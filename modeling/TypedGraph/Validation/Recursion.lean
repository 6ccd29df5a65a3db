import TypedGraph.Validation.Search

/-!
# Checking by Recursion

The decision of the search as a plain recursion. Values are matched one after the other, each of
them completely, and a reference is resolved at the moment it is met. Each level of the recursion
gives a kind to one more entity, so a level more than there are entities without kind is never
needed.
-/

namespace TypedGraph

/-- Asks that an entity gets a kind: whether it does, and the assignment then. -/
abbrev Check := EntityId → String → Assignment → Bool × Assignment

namespace Check

/-- Asks for the first of some kinds that the entity can get. -/
def first (check : Check) (id : EntityId) : List String → Assignment → Bool × Assignment
  | [], a => (false, a)
  | kind :: kinds, a =>
    match check id kind a with
    | (true, a') => (true, a')
    | (false, a') => check.first id kinds a'

/-- Goes through a list until a part of it fails. -/
def each {α : Type u} (part : α → Assignment → Bool × Assignment) :
    List α → Assignment → Bool × Assignment
  | [], a => (true, a)
  | x :: xs, a =>
    match part x a with
    | (true, a') => each part xs a'
    | (false, a') => (false, a')

/-- Takes back what was bound if the outcome is a failure. -/
def orUndo (a : Assignment) : Bool × Assignment → Bool × Assignment
  | (true, a') => (true, a')
  | (false, _) => (false, a)

end Check

namespace Validator

/-- Matches a value, or its absence, and asks for the kinds of the entities that it refers to. -/
def matchBy (v : Validator) (check : Check) :
    Descriptor → Option Json → Assignment → Bool × Assignment
  | .optional _, none, a => (true, a)
  | .optional d, some value, a => v.matchBy check d (some value) a
  | _, none, a => (false, a)
  | .primitive p, some value, a => (p.accepts value, a)
  | .union literals, some value, a => (value.str?.any literals.contains, a)
  | .arrayOf d, some value, a =>
    match value.items? with
    | some items => Check.each (fun item => v.matchBy check d (some item)) items a
    | none => (false, a)
  | .ref kinds, some value, a =>
    match v.target? value with
    | some id => check.first id kinds a
    | none => (false, a)

/-- Matches an entity with a structure: its fields have to be declared, and the declared fields are
matched in order. -/
def matchFieldsBy (v : Validator) (check : Check) (s : Structure) (entity : Json)
    (a : Assignment) : Bool × Assignment :=
  match entity.members? with
  | none => (false, a)
  | some members =>
    if members.all fun m => s.contains m.1 then
      Check.each (fun f => v.matchBy check f.2 (Json.lookup members f.1)) s.fields.entries a
    else (false, a)

/-- Asks that an entity gets a kind, with some levels of recursion for the entities it refers to. An
entity with a kind keeps it; another one is bound before its fields are matched. -/
def checkWithin (v : Validator) : Nat → Check
  | 0 => fun _ _ a => (false, a)
  | levels + 1 => fun id kind a =>
    match a.kind? id with
    | some bound => (bound == kind, a)
    | none =>
      match v.schema.kind? kind, v.entity? id with
      | some s, some entity =>
        -- what the fields have bound is taken back together with the kind of the entity
        Check.orUndo a (v.matchFieldsBy (v.checkWithin levels) s entity (a.bind id kind))
      | _, _ => (false, a)

/-- Asks that an entity gets a kind, by recursion. -/
def checkByRecursion (v : Validator) : Check := fun id kind a =>
  v.checkWithin (v.unbound a + 1) id kind a

/-- Matches a value, or its absence, by recursion. -/
def matchValueByRecursion (v : Validator) (d : Descriptor) (value : Option Json)
    (a : Assignment) : Bool × Assignment :=
  Check.orUndo a (v.matchBy v.checkByRecursion d value a)

/-- Matches the structure of a kind by recursion. -/
def matchStructureByRecursion (v : Validator) (kind : String) (entity : Json) (a : Assignment) :
    Bool × Assignment :=
  match v.schema.kind? kind with
  | some s => Check.orUndo a (v.matchFieldsBy v.checkByRecursion s entity a)
  | none => (false, a)

end Validator

end TypedGraph
