import TypedGraph.Json.Reading
import TypedGraph.Schema.Descriptor

/-!
# Reading Descriptors

A descriptor is written as a keyword or as an object with one keyword for its only member. Scalars
have both forms, with `null` for a payload in the second one.
-/

namespace TypedGraph

/-- The keywords of descriptors. -/
inductive Keyword where
  | scalar (kind : Primitive)
  | union
  | optional
  | arrayOf
  | ref
deriving DecidableEq

/-- The keyword of a name. -/
def Keyword.ofName? (name : String) : Option Keyword :=
  match Primitive.ofKeyword? name with
  | some p => some (.scalar p)
  | none =>
    if name = "union" then some .union
    else if name = "optional" then some .optional
    else if name = "arrayOf" then some .arrayOf
    else if name = "ref" then some .ref
    else none

namespace Descriptor

open Json (Reading ReadError Stop)

/-- After the only member of an object the closing brace is due, and nothing else. -/
def checkSingle (rest : List (String × Reading)) (stop : Stop) : Except ReadError Unit :=
  match rest, stop with
  | [], .closed => .ok ()
  | [], .flawed f => .error (.flaw f)
  | _, _ => .error (.flaw .malformed)

/-- An object without a first member: a string for its key is due. -/
def noMember : Stop → ReadError
  | .closed => .flaw .malformed
  | .flawed f => .flaw f
  | .afterComma f => .flaw f

/-- Reads a descriptor. -/
def read : Reading → Except ReadError Descriptor
  | .str name =>
    match Primitive.ofKeyword? name with
    | some p => .ok (primitive p)
    | none => .error .shape
  | .obj [] stop => .error (noMember stop)
  | .obj ((key, payload) :: rest) stop =>
    match Keyword.ofName? key with
    | none => .error .shape
    | some keyword => do
      let d ←
        match keyword with
        | .scalar p => payload.unit.map fun _ => primitive p
        | .union => (payload.list Reading.string).map fun names => union (.ofList names)
        | .optional => (read payload).map optional
        | .arrayOf => (read payload).map arrayOf
        | .ref => (payload.list Reading.string).map ref
      checkSingle rest stop
      return d
  | .flawed f => .error (.flaw f)
  | _ => .error (.flaw .malformed)

/-- Reads a descriptor from a text. -/
def ofText (text : String) : Except ReadError Descriptor := Json.readText read text

/-- The descriptor that an untyped value is the written form of. -/
def ofJson? (value : Json) : Option Descriptor := (read (.ofJson value)).toOption

end Descriptor

end TypedGraph
