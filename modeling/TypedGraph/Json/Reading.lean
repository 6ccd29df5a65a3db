import TypedGraph.Json.Token

/-!
# Readings

What a JSON text says as far as it goes. A text that is no JSON still has a reading: the tree of
what stands before the first flaw, which marks the place where it stops. Shapes are checked on
readings, so that of two faults the one that stands first in the text is the one reported.
-/

namespace TypedGraph.Json

/-- How the list of parts of an array or an object ends. -/
inductive Stop where
  /-- With its bracket. -/
  | closed
  /-- At the beginning or after a part, with a flaw. -/
  | flawed (flaw : Flaw)
  /-- After a comma, with a flaw instead of a key. -/
  | afterComma (flaw : Flaw)
deriving DecidableEq

/-- The tree of what a text says before its first flaw. -/
inductive Reading where
  | null
  | bool (value : Bool)
  | num (value : Number)
  | str (value : String)
  | arr (items : List Reading) (stop : Stop)
  | obj (members : List (String × Reading)) (stop : Stop)
  /-- A number or a word that breaks off stands here. -/
  | broken (flaw : Flaw)
  /-- A value should stand here. -/
  | flawed (flaw : Flaw)

instance : Inhabited Reading := ⟨.null⟩

/-! ## From Tokens -/

/-- An array or object that is being read, with its parts so far, the last one first. -/
inductive Open where
  | arr (items : List Reading)
  /-- The value of `key` is being read. -/
  | member (members : List (String × Reading)) (key : String)

/-- What is due next. -/
inductive Place where
  | value
  /-- The first item of an array, or its end. -/
  | firstItem
  /-- The first key of an object, or its end. -/
  | firstKey
  /-- A key after a comma. -/
  | nextKey (members : List (String × Reading))
  /-- The colon after a key. -/
  | colon (members : List (String × Reading)) (key : String)
  /-- A value has been read. -/
  | after (value : Reading)

/-- The whole tree when reading stops inside the open arrays and objects. -/
def abandon : List Open → Reading → Reading
  | [], r => r
  | .arr items :: outer, r => abandon outer (.arr (r :: items).reverse (.flawed .malformed))
  | .member members key :: outer, r =>
    abandon outer (.obj ((key, r) :: members).reverse (.flawed .malformed))

/-- Begins a value. At most `limit` arrays and objects are open at a time. -/
def beginValue (limit : Nat) (stack : List Open) : Token → Except Reading (Place × List Open)
  | .null => .ok (.after .null, stack)
  | .bool b => .ok (.after (.bool b), stack)
  | .num n => .ok (.after (.num n), stack)
  | .str s => .ok (.after (.str s), stack)
  | .openArray =>
    if stack.length < limit then .ok (.firstItem, stack)
    else .error (abandon stack (.arr [] (.flawed .malformed)))
  | .openObject =>
    if stack.length < limit then .ok (.firstKey, stack)
    else .error (abandon stack (.obj [] (.flawed .malformed)))
  | .bad f => .error (abandon stack (.broken f))
  | .badString f => .error (abandon stack (.flawed f))
  | .closeArray | .closeObject | .comma | .colon => .error (abandon stack (.flawed .malformed))

/-- Reads one token: the next place with the open arrays and objects, or the tree where reading
stops. -/
def step (limit : Nat) (place : Place) (stack : List Open) (t : Token) :
    Except Reading (Place × List Open) :=
  match place with
  | .value => beginValue limit stack t
  | .firstItem =>
    match t with
    | .closeArray => .ok (.after (.arr [] .closed), stack)
    | t => beginValue limit (.arr [] :: stack) t
  | .firstKey =>
    match t with
    | .closeObject => .ok (.after (.obj [] .closed), stack)
    | .str key => .ok (.colon [] key, stack)
    | .badString f => .error (abandon stack (.obj [] (.flawed f)))
    | _ => .error (abandon stack (.obj [] (.flawed .malformed)))
  | .nextKey members =>
    match t with
    | .str key => .ok (.colon members key, stack)
    | .badString f => .error (abandon stack (.obj members.reverse (.afterComma f)))
    | _ => .error (abandon stack (.obj members.reverse (.afterComma .malformed)))
  | .colon members key =>
    match t with
    | .colon => .ok (.value, .member members key :: stack)
    | _ => .error (abandon (.member members key :: stack) (.flawed .malformed))
  | .after value =>
    match stack, t with
    | .arr items :: outer, .comma => .ok (.value, .arr (value :: items) :: outer)
    | .arr items :: outer, .closeArray =>
      .ok (.after (.arr (value :: items).reverse .closed), outer)
    | .member members key :: outer, .comma => .ok (.nextKey ((key, value) :: members), outer)
    | .member members key :: outer, .closeObject =>
      .ok (.after (.obj ((key, value) :: members).reverse .closed), outer)
    -- no comma and no bracket of the right kind: the value is the last part
    | stack, _ => .error (abandon stack value)

/-- The whole tree when the text ends. -/
def finish (place : Place) (stack : List Open) : Reading :=
  match place with
  | .value => abandon stack (.flawed .ended)
  | .firstItem => abandon stack (.arr [] (.flawed .ended))
  | .firstKey => abandon stack (.obj [] (.flawed .ended))
  | .nextKey members => abandon stack (.obj members.reverse (.afterComma .ended))
  | .colon members key => abandon (.member members key :: stack) (.flawed .ended)
  | .after value =>
    match stack with
    | [] => value
    | .arr items :: outer => abandon outer (.arr (value :: items).reverse (.flawed .ended))
    | .member members key :: outer =>
      abandon outer (.obj ((key, value) :: members).reverse (.flawed .ended))

/-- Reads one value; also gives the tokens after it. -/
def readFrom (limit : Nat) (place : Place) (stack : List Open) : List Token → Reading × List Token
  | [] => (finish place stack, [])
  | t :: rest =>
    match place, stack with
    -- the outermost value is complete
    | .after value, [] => (value, t :: rest)
    | place, stack =>
      match step limit place stack t with
      | .ok (place, stack) => readFrom limit place stack rest
      | .error r => (r, [])

/-! ## Errors -/

/-- Why a text does not say a value of the wanted shape. -/
inductive ReadError where
  /-- The text is no JSON. -/
  | flaw (flaw : Flaw)
  /-- The text says a value of another shape. -/
  | shape
deriving DecidableEq

/-- Arrays and objects inside one another that a text may have. -/
def depthLimit : Nat := 127

/-- Reads a text whose arrays and objects are nested at most `limit` deep. Nothing may follow the
value. -/
def readTextWithin {α : Type u} (limit : Nat) (decode : Reading → Except ReadError α)
    (text : String) : Except ReadError α :=
  match readFrom limit .value [] (tokens text.toList) with
  | (reading, rest) =>
    match decode reading with
    -- what follows the value is looked at last
    | .ok a => if rest.isEmpty then .ok a else .error (.flaw .malformed)
    | .error e => .error e

/-- Reads a text. -/
def readText {α : Type u} (decode : Reading → Except ReadError α) (text : String) :
    Except ReadError α :=
  readTextWithin depthLimit decode text

namespace Stop

/-- The parts of an array or object are complete. -/
def check : Stop → Except ReadError Unit
  | .closed => .ok ()
  | .flawed f => .error (.flaw f)
  | .afterComma f => .error (.flaw f)

end Stop

namespace Reading

/-! ## Untyped Values -/

mutual

/-- The value as it is written, with all members of objects in their order. -/
def content : Reading → Except ReadError Json
  | .null => .ok .null
  | .bool b => .ok (.bool b)
  | .num n => .ok (.num n)
  | .str s => .ok (.str s)
  | .arr items stop => do
    -- a flaw in an item stands before the one that ends the array
    let items ← contentItems items
    stop.check
    .ok (.arr items)
  | .obj members stop => do
    let members ← contentMembers members
    stop.check
    .ok (.obj members)
  | .broken f | .flawed f => .error (.flaw f)

/-- The values of a list. -/
def contentItems : List Reading → Except ReadError (List Json)
  | [] => .ok []
  | r :: rest => do
    let v ← content r
    let vs ← contentItems rest
    .ok (v :: vs)

/-- The members of a list with their values. -/
def contentMembers : List (String × Reading) → Except ReadError (List (String × Json))
  | [] => .ok []
  | (k, r) :: rest => do
    let v ← content r
    let vs ← contentMembers rest
    .ok ((k, v) :: vs)

end

/-- The untyped value: members sorted by key, of equal keys the last. -/
def untyped (r : Reading) : Except ReadError Json := r.content.map canonical

mutual

/-- The reading of a value. -/
def ofJson : Json → Reading
  | .null => .null
  | .bool b => .bool b
  | .num n => .num n
  | .str s => .str s
  | .arr items => .arr (ofItems items) .closed
  | .obj members => .obj (ofMembers members) .closed

/-- The readings of a list of values. -/
def ofItems : List Json → List Reading
  | [] => []
  | v :: rest => ofJson v :: ofItems rest

/-- The members with the readings of their values. -/
def ofMembers : List (String × Json) → List (String × Reading)
  | [] => []
  | (k, v) :: rest => (k, ofJson v) :: ofMembers rest

end

/-! ## Shapes -/

/-- The reading has none of the wanted shapes; a flaw in its place comes first. -/
def mismatch {α : Type u} : Reading → Except ReadError α
  | .broken f | .flawed f => .error (.flaw f)
  | _ => .error .shape

/-- A string. -/
def string : Reading → Except ReadError String
  | .str s => .ok s
  | r => r.mismatch

/-- The value `null`. -/
def unit : Reading → Except ReadError Unit
  | .null => .ok ()
  | r => r.mismatch

/-- An array whose items have a shape. -/
def list {α : Type u} (item : Reading → Except ReadError α) : Reading → Except ReadError (List α)
  | .arr items stop =>
    match items.mapM item with
    | .ok values => stop.check.map fun _ => values
    | .error e => .error e
  | r => r.mismatch

/-- An object whose values have a shape, with its members in order. -/
def members {α : Type u} (value : Reading → Except ReadError α) :
    Reading → Except ReadError (List (String × α))
  | .obj members stop =>
    match members.mapM fun m => (value m.2).map (m.1, ·) with
    | .ok values => stop.check.map fun _ => values
    | .error e => .error e
  | r => r.mismatch

end Reading

/-- Reads an untyped value. -/
def readUntyped (text : String) : Except ReadError Json := readText Reading.untyped text

end TypedGraph.Json
