import TypedGraph.Entity.Graph
import TypedGraph.Text.Quoted

/-!
# Messages

What a remote and the authority say to each other. A message is written as an object with its kind
under `type`; the remote sends requests, the authority answers with snapshots of its graph or with
the entity that the remote stands for.
-/

namespace TypedGraph

/-- A named request to change the authority's model. -/
structure ActionRequest where
  /-- The name of the operation. -/
  op : String
  /-- The argument of the operation. -/
  value : Json
deriving DecidableEq

/-- A message between a remote and the authority. -/
inductive Message where
  /-- The remote asks for a snapshot. -/
  | getObservation
  /-- The remote asks which entity it stands for. -/
  | getSelf
  /-- The remote asks for an action. -/
  | doAction (request : ActionRequest)
  /-- The authority's graph, and whether the action before it was refused. -/
  | snapshot (graph : EntityGraph) (error : Bool)
  /-- The entity that the remote stands for. -/
  | selfRef (id : EntityId)
deriving DecidableEq

namespace Message

/-- The kinds of messages. -/
inductive Kind where
  | getObservation
  | getSelf
  | doAction
  | snapshot
  | selfRef
deriving DecidableEq

namespace Kind

/-- The kinds in the order in which they are listed. -/
def all : List Kind := [getObservation, getSelf, doAction, snapshot, selfRef]

/-- The name of a kind under `type`. -/
def name : Kind → String
  | getObservation => "getObservation"
  | getSelf => "getSelf"
  | doAction => "doAction"
  | snapshot => "dataModelReponse"
  | selfRef => "refReponse"

/-- The kind of a name. -/
def ofName? (name : String) : Option Kind := all.find? (·.name = name)

/-- The names of a kind's fields, in the order of its array form. -/
def fields : Kind → List String
  | getObservation => []
  | getSelf => []
  | doAction => ["op", "value"]
  | snapshot => ["value", "error"]
  | selfRef => ["ref"]

theorem ofName?_name (k : Kind) : ofName? k.name = some k := by cases k <;> decide

end Kind

/-- The kind of a message. -/
def kind : Message → Kind
  | getObservation => .getObservation
  | getSelf => .getSelf
  | doAction _ => .doAction
  | snapshot _ _ => .snapshot
  | selfRef _ => .selfRef

/-- The message goes from the remote to the authority. -/
def isRequest : Message → Bool
  | getObservation => true
  | getSelf => true
  | doAction _ => true
  | snapshot _ _ => false
  | selfRef _ => false

/-- The message goes from the authority to the remote. -/
def isReply (m : Message) : Bool := !m.isRequest

/-! ## Writing -/

/-- The fields of a message after its kind, in the order in which they are written. -/
def parts : Message → List (String × Json)
  | getObservation => []
  | getSelf => []
  | doAction request => [("op", .str request.op), ("value", request.value)]
  | snapshot graph error => [("value", graph.written), ("error", .bool error)]
  | selfRef id => [("ref", .str id.text)]

/-- The written form of a message, with its kind first. -/
def written (m : Message) : Json := .obj (("type", .str m.kind.name) :: m.parts)

/-- The text of a message. -/
def encode (m : Message) : String := m.written.text

/-- The message as an untyped value, with all members sorted. -/
def toJson (m : Message) : Json := m.written.canonical

/-! ## Reading -/

/-- Why something is no message. -/
inductive Fault where
  /-- A flaw of the text, or something else than an object or an array. -/
  | unreadable (error : Json.ReadError)
  /-- There is no kind. -/
  | untagged
  /-- The kind is not one of those known. -/
  | unknownKind (name : String)
  /-- A field or the kind is given twice. -/
  | repeatedField (name : String)
  /-- A field is missing. -/
  | missingField (name : String)
  /-- A field has another type than the one expected. -/
  | wrongType (found : Json) (expected : String)
  /-- The array form has too many items. -/
  | tooLong

namespace Fault

/-- The error of reading that a fault amounts to. -/
def readError : Fault → Json.ReadError
  | unreadable e => e
  | _ => .shape

/-- A name between backticks. -/
def ticked (name : String) : String := "`" ++ name ++ "`"

/-- A value as a message about types names it. -/
def describe : Json → String
  | .null => "null"
  | .bool b => "boolean " ++ ticked (Json.bool b).text
  | .num (.int i) => "integer " ++ ticked (Json.num (.int i)).text
  | .num (.float x) => "floating point " ++ ticked (Json.num (.float x)).text
  | .str s => "string " ++ quoted s
  | .arr _ => "sequence"
  | .obj _ => "map"

/-- The wording of a fault. -/
def reason : Fault → String
  | unreadable (.flaw .ended) => "unexpected end"
  | unreadable (.flaw .malformed) => "malformed text"
  | unreadable .shape => "neither object nor array"
  | untagged => "missing field " ++ ticked "type"
  | unknownKind name =>
    "unknown variant " ++ ticked name ++ ", expected one of " ++
      ", ".intercalate (Kind.all.map fun k => ticked k.name)
  | repeatedField name => "duplicate field " ++ ticked name
  | missingField name => "missing field " ++ ticked name
  | wrongType found expected => "invalid type: " ++ describe found ++ ", expected " ++ expected
  | tooLong => "too many items"

end Fault

open Json (Reading)

/-- The value of a field as a string. -/
def textField (parts : List (String × Json)) (name : String) : Except Fault String :=
  match Json.lookup parts name with
  | some (.str s) => .ok s
  | some found => .error (.wrongType found "a string")
  | none => .error (.missingField name)

/-- The value of a field as a truth value, false when there is none. -/
def flagField (parts : List (String × Json)) (name : String) : Except Fault Bool :=
  match Json.lookup parts name with
  | some (.bool b) => .ok b
  | some found => .error (.wrongType found "a boolean")
  | none => .ok false

/-- The value of a field as a graph, whose entities are untyped values. -/
def graphField (parts : List (String × Json)) (name : String) : Except Fault EntityGraph :=
  match Json.lookup parts name with
  | some (.obj members) => .ok (.ofMembers (Json.canonicalMembers members))
  | some found => .error (.wrongType found "a map")
  | none => .error (.missingField name)

/-- The first field of a kind that is given twice. -/
def repeated? (kind : Kind) (parts : List (String × Json)) : Option String :=
  kind.fields.find? fun name => decide (1 < (parts.filter (·.1 = name)).length)

/-- The message of a kind with some fields, which are looked at in the order of their names; other
fields do not matter. -/
def ofParts (kind : Kind) (parts : List (String × Json)) : Except Fault Message :=
  match repeated? kind parts with
  | some name => .error (.repeatedField name)
  | none =>
    match kind with
    | .getObservation => .ok .getObservation
    | .getSelf => .ok .getSelf
    | .doAction => do
      let op ← textField parts "op"
      return .doAction ⟨op, ((Json.lookup parts "value").getD .null).canonical⟩
    | .snapshot => do
      let error ← flagField parts "error"
      let graph ← graphField parts "value"
      return .snapshot graph error
    | .selfRef => do
      let text ← textField parts "ref"
      return .selfRef ⟨text⟩

/-- Reads the kind of a message. -/
def readKind (r : Reading) : Except Fault Kind :=
  match r.string with
  | .ok name =>
    match Kind.ofName? name with
    | some kind => .ok kind
    | none => .error (.unknownKind name)
  | .error e => .error (.unreadable e)

/-- Reads the members of a message in order: its kind, given once, and its fields. -/
def readMembers (kind : Option Kind) (parts : List (String × Json)) :
    List (String × Reading) → Except Fault (Option Kind × List (String × Json))
  | [] => .ok (kind, parts.reverse)
  | (key, r) :: rest =>
    if key = "type" then
      match kind, readKind r with
      | some _, _ => .error (.repeatedField "type")
      | none, .ok kind => readMembers (some kind) parts rest
      | none, .error e => .error e
    else
      match r.content with
      | .ok value => readMembers kind ((key, value) :: parts) rest
      | .error e => .error (.unreadable e)

/-- Reads a message: an object with its kind under `type`, or an array of kind and fields. -/
def read : Reading → Except Fault Message
  | .obj members stop => do
    let (kind, parts) ← readMembers none [] members
    (stop.check.mapError .unreadable)
    match kind with
    | some kind => ofParts kind parts
    | none => .error .untagged
  | .arr [] stop => do
    (stop.check.mapError .unreadable)
    .error .untagged
  | .arr (tag :: items) stop => do
    let kind ← readKind tag
    let values ← (Reading.contentItems items).mapError .unreadable
    (stop.check.mapError .unreadable)
    if kind.fields.length < values.length then .error .tooLong
    else ofParts kind (kind.fields.zip values)
  | r => (r.mismatch : Except Json.ReadError Message).mapError .unreadable

/-- Reads a message from a text. -/
def decode (text : String) : Except Json.ReadError Message :=
  Json.readText (fun r => (read r).mapError Fault.readError) text

/-- Why an untyped value is no message. -/
inductive ProtocolError where
  /-- The value has no string under `type`. -/
  | untagged (value : Json)
  /-- The value does not have the fields of its kind. -/
  | malformed (tag : String) (fault : Fault)

/-- The wording of an error. -/
def ProtocolError.message : ProtocolError → String
  | untagged value =>
    "protocol error: message has no " ++ Fault.ticked "type" ++ " tag: " ++ value.text
  | malformed tag fault =>
    "protocol error: malformed " ++ tag ++ " message: " ++ fault.reason

/-- The message that an untyped value stands for. -/
def ofJson (value : Json) : Except ProtocolError Message :=
  match (value.member? "type").bind Json.str? with
  | none => .error (.untagged value)
  | some tag => (read (.ofJson value)).mapError (.malformed tag)

end Message

end TypedGraph
