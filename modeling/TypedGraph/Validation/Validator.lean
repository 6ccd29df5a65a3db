import TypedGraph.Schema.Basic
import TypedGraph.Validation.Assignment

/-!
# Matching One Entity

A validator decides whether values conform to descriptors over a schema and a graph. This module
matches what can be decided on the value alone and collects its references as goals: each goal asks
that an entity of the graph gets one of some kinds.
-/

namespace TypedGraph

/-- A schema and a graph to validate. -/
structure Validator where
  /-- The kinds that entities can have. -/
  schema : Schema
  /-- The entities that references can point at. -/
  graph : EntityGraph
  /-- The entity of an id, found without going through the graph. -/
  entity? : EntityId → Option Json
  /-- The entity found is that of the graph. -/
  entity?_eq : ∀ id, entity? id = graph.get? id

/-- A reference to be resolved: the entity has to get one of the kinds, tried in this order. -/
structure RefGoal where
  /-- The entity referred to. -/
  id : EntityId
  /-- The kinds that are left to try. -/
  kinds : List String
deriving DecidableEq

namespace Validator

/-- The entities of a graph by id. -/
def entityIndex (graph : EntityGraph) : Std.ExtTreeMap EntityId Json := .ofList graph.entries

theorem getElem?_entityIndex (graph : EntityGraph) (id : EntityId) :
    (entityIndex graph)[id]? = graph.get? id := by
  have hdistinct : graph.entries.Pairwise fun a b => ¬ compare a.1 b.1 = .eq := by
    have := graph.nodup_keys
    rw [List.Nodup, List.pairwise_map] at this
    exact this.imp fun h he => h (Std.compare_eq_iff_eq.1 he)
  cases h : graph.get? id with
  | some v =>
    exact Std.ExtTreeMap.getElem?_ofList_of_mem (Std.compare_eq_iff_eq.2 rfl) hdistinct
      (OrderedMap.get?_eq_some_iff.1 h)
  | none =>
    apply Std.ExtTreeMap.getElem?_ofList_of_contains_eq_false
    have hmem := OrderedMap.get?_eq_none_iff.1 h
    simpa [OrderedMap.keys] using hmem

/-- The validator of a schema and a graph. -/
def of (schema : Schema) (graph : EntityGraph) : Validator :=
  let index := entityIndex graph
  { schema, graph
    entity? := fun id => index[id]?
    entity?_eq := getElem?_entityIndex graph }

/-- The entity that a token points at: the value has to be an object with a string under `ref` and
nothing else, and the entity has to be in the graph. -/
def target? (v : Validator) : Json → Option EntityId
  | .obj [(key, .str text)] =>
    if key = "ref" ∧ (v.entity? ⟨text⟩).isSome then some ⟨text⟩ else none
  | _ => none

/-- Matches a value, or its absence, as far as it goes without other entities. The references in it
are the goals that remain, in order; there are none when the value does not match. -/
def collect (v : Validator) : Descriptor → Option Json → Option (List RefGoal)
  | .optional _, none => some []
  | .optional d, some value => v.collect d (some value)
  -- nothing else may be absent
  | _, none => none
  | .primitive p, some value => if p.accepts value then some [] else none
  | .union literals, some value =>
    if value.str?.any literals.contains then some [] else none
  | .arrayOf d, some value => do
    let goals ← (← value.items?).mapM fun item => v.collect d (some item)
    return goals.flatten
  | .ref kinds, some value => do
    let id ← v.target? value
    return [⟨id, kinds⟩]

/-- Matches an entity with a structure: it has to be an object, every field of it has to be
declared, and the declared fields have to match in order. -/
def collectFields (v : Validator) (s : Structure) (entity : Json) : Option (List RefGoal) := do
  let members ← entity.members?
  if members.all fun m => s.contains m.1 then
    let goals ← s.fields.entries.mapM fun f => v.collect f.2 (Json.lookup members f.1)
    return goals.flatten
  else none

/-- What comes of asking that an entity gets a kind. -/
inductive Entry where
  /-- The answer is known at once. -/
  | settled (ok : Bool)
  /-- The entity gets the kind for the time being, and goals remain. -/
  | opened (bound : Assignment) (goals : List RefGoal)

/-- Asks that an entity gets a kind. An entity that has a kind keeps it. Another one gets the kind
for the time being if its own fields match. -/
def enter (v : Validator) (id : EntityId) (kind : String) (a : Assignment) : Entry :=
  match a.kind? id with
  | some bound => .settled (bound == kind)
  | none =>
    match v.schema.kind? kind, v.entity? id with
    | some s, some entity =>
      match v.collectFields s entity with
      -- bound before the goals are resolved, so that references back to the entity find its kind
      | some goals => .opened (a.bind id kind) goals
      | none => .settled false
    | _, _ => .settled false

end Validator

end TypedGraph
