import TypedGraph.Text.Decimal
import TypedGraph.Text.Quoted
import Std.Data.ExtTreeMap

/-!
# Entity Ids

Entities are named by opaque strings. A mint makes ids of its own: a stem followed by a counter. It
looks at ids that come from elsewhere so as not to make them again, and its counter wraps to zero
after the greatest 64-bit number.
-/

namespace TypedGraph

/-- The name of an entity. -/
structure EntityId where
  /-- The id as text. -/
  text : String
deriving DecidableEq

namespace EntityId

/-- Ids are ordered by their code points. -/
instance : Ord EntityId := ⟨fun a b => compare a.text b.text⟩

instance : Std.TransOrd EntityId where
  eq_swap {a b} :=
    show compare a.text b.text = (compare b.text a.text).swap from Std.OrientedCmp.eq_swap
  isLE_trans {a b c} (h : (compare a.text b.text).isLE) (h' : (compare b.text c.text).isLE) :=
    show (compare a.text c.text).isLE from Std.TransCmp.isLE_trans h h'

instance : Std.LawfulEqOrd EntityId where
  compare_self {a} := show compare a.text a.text = .eq from Std.ReflCmp.compare_self
  eq_of_compare {a b} (h : compare a.text b.text = .eq) := by
    have := Std.LawfulEqCmp.eq_of_compare h
    cases a; cases b; simpa using this

instance : ToString EntityId := ⟨EntityId.text⟩

/-- The refusal of a text that is no id. -/
inductive ParseError where
  /-- The text is empty. -/
  | invalidId (text : String)

/-- The wording of a refusal. -/
def ParseError.message : ParseError → String
  | invalidId text => "invalid entity id: " ++ quoted text

/-- The id of a text that is not empty. -/
def parse (text : String) : Except ParseError EntityId :=
  if text.isEmpty then .error (.invalidId text) else .ok ⟨text⟩

end EntityId

/-- A source of ids `stem ++ counter`. -/
structure IdMint where
  /-- What every minted id starts with. -/
  stem : String
  /-- The counter of the next id. -/
  next : UInt64
deriving DecidableEq

namespace IdMint

/-- The stem of mints that are given none. -/
def defaultStem : String := "$"

/-- The mint of a stem that has made no id yet. -/
def ofStem (stem : String) : IdMint := ⟨stem, 0⟩

/-- The id of a stem and a counter. -/
def idAt (stem : String) (counter : Nat) : EntityId := ⟨stem ++ Decimal.text counter⟩

/-- The next id, and the mint after it. -/
def mint (m : IdMint) : EntityId × IdMint :=
  (idAt m.stem m.next.toNat, { m with next := m.next + 1 })

/-- The 64-bit number that a text stands for: digits after an optional plus sign. -/
def counter? (cs : List Char) : Option Nat :=
  let digits := if cs.head? = some '+' then cs.tail else cs
  if digits.isEmpty ∨ ¬ digits.all Char.isDigit then none
  else
    let n := Decimal.ofDigits digits
    if n < UInt64.size then some n else none

/-- The text after a stem, for a text that starts with it. -/
def afterStem? : List Char → List Char → Option (List Char)
  | [], cs => some cs
  | _ :: _, [] => none
  | s :: stem, c :: cs => if s = c then afterStem? stem cs else none

/-- The counter that an id carries, if it starts with the stem. -/
def counterOf? (m : IdMint) (id : EntityId) : Option Nat := do
  counter? (← afterStem? m.stem.toList id.text.toList)

/-- Moves the counter past that of an id. An id of another form is ignored, and so is one whose
counter is the greatest. -/
def observe (m : IdMint) (id : EntityId) : IdMint :=
  match m.counterOf? id with
  | some n =>
    if n + 1 < UInt64.size then { m with next := max m.next (UInt64.ofNat (n + 1)) } else m
  | none => m

end IdMint

end TypedGraph
