import TypedGraph.Entity.Id

/-!
# Failures of Replication

What can go wrong between a remote and the authority, apart from texts that are no messages.
-/

namespace TypedGraph

/-- Why a request or a connection fails. -/
inductive SyncError where
  /-- The channel or the dispatcher is gone. -/
  | channelClosed
  /-- A newer request waits for the same kind of reply. -/
  | superseded
  /-- The snapshot does not conform to the client's schema. -/
  | invalidSnapshot (id : EntityId)
  /-- The reply has not come in time. -/
  | timeout
deriving DecidableEq

/-- The wording of an error. -/
def SyncError.message : SyncError → String
  | channelClosed => "channel closed"
  | superseded => "request superseded by a newer request of the same kind"
  | invalidSnapshot id =>
    "snapshot rejected by the local schema (first failing entity: " ++ id.text ++ ")"
  | timeout => "operation timed out"

end TypedGraph
