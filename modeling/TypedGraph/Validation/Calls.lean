import TypedGraph.Validation.InPlace

/-!
# Calls on an Assignment That Changes in Place

What a validator is asked, on an assignment that the caller keeps from one call to the next:
`perform` for one entity or value, `assign` for a whole graph, `diagnose` for the reasons of a
failure. Each call says how the loop that resolves references is run (`Driver`), either to its end,
or with a bound for the passes after which it is cut off without an outcome.

## Main definitions

* `perform`, `assign`, `diagnose`: the calls, with every loop run to its end;
* `perform?`, `assign?`, `diagnose?`: the same calls, with every loop cut off at its `passLimit`.
-/

namespace TypedGraph.Validator.InPlace

/-- What can be asked on an assignment. -/
inductive Call where
  /-- An entity of the graph gets a kind, or has it already. -/
  | check (id : EntityId) (kind : String)
  /-- A value, or its absence, matches a descriptor. -/
  | matchValue (d : Descriptor) (value : Option Json)
  /-- A value that need not be an entity of the graph matches the structure of a kind. -/
  | matchStructure (kind : String) (entity : Json)

/-- A way to run the loop on a first frame. -/
abbrev Driver (m : Type → Type) := Attempt → Bindings → m (Bool × Bindings)

section Driven

variable {m : Type → Type} [Monad m] (v : Validator) (drive : Driver m)

/-- Meets the goals that a value has opened, unless it does not match by itself. -/
def meetWith (goals : Option (List RefGoal)) (b : Bindings) : m (Bool × Bindings) :=
  match goals with
  | some goals => drive (.start b.mark goals) b
  | none => pure (false, b)

/-- Answers a call. -/
def performWith (call : Call) (b : Bindings) : m (Bool × Bindings) :=
  match call with
  | .check id kind =>
    match enter v id kind b with
    | (.settled ok, b) => pure (ok, b)
    | (.opened root, b) => drive root b
  | .matchValue d value => meetWith drive (v.collect d value) b
  | .matchStructure kind entity =>
    meetWith drive ((v.schema.kind? kind).bind (v.collectFields · entity)) b

/-- Gives an entity the first of some kinds that it can get. -/
def checkAnyWith (id : EntityId) : List String → Bindings → m (Bool × Bindings)
  | [], b => pure (false, b)
  | kind :: kinds, b => do
    let (ok, b) ← performWith v drive (.check id kind) b
    if ok then pure (true, b) else checkAnyWith id kinds b

/-- Gives a kind to each of some entities in turn, trying kinds in the order of the schema. Fails
with the first entity that no kind accepts. -/
def assignAllWith : List EntityId → Bindings → m (Except EntityId Bindings)
  | [], b => pure (.ok b)
  | id :: ids, b => do
    let (ok, b) ← checkAnyWith v drive id v.schema.kindNames b
    if ok then assignAllWith ids b else pure (.error id)

/-- Gives a kind to every entity of the graph. -/
def assignWith : m (Except EntityId KindIndex) := do
  let assigned ← assignAllWith v drive v.graph.ids .new
  return assigned.map (·.toIndex v.graph)

/-- Why a field of an entity does not match its descriptor. -/
def diagnoseFieldWith (members : List (String × Json)) (name : String) (d : Descriptor) :
    m (Option Mismatch) :=
  match Json.lookup members name with
  | none => pure (if d.isOptional then none else some (.missingField name))
  | some value => do
    let (ok, _) ← performWith v drive (.matchValue d (some value)) .new
    return if ok then none else some (.fieldType name d value)

/-- The first reason why some fields of an entity do not match, if there is one. -/
def diagnoseFieldsWith (members : List (String × Json)) :
    List (String × Descriptor) → m (Option Mismatch)
  | [] => pure none
  | f :: fields => do
    match ← diagnoseFieldWith v drive members f.1 f.2 with
    | some reason => return some reason
    | none => diagnoseFieldsWith members fields

/-- The first reason why an entity does not conform to a kind, if one shows in a field by itself. -/
def diagnoseWith (kind : String) (entity : Json) : m (Option Mismatch) :=
  match v.schema.kind? kind, entity.members? with
  | none, _ => pure (some .unknownKind)
  | _, none => pure (some .notAnObject)
  | some s, some members =>
    match members.find? fun m => !s.contains m.1 with
    | some m => pure (some (.undeclaredField m.1))
    | none => diagnoseFieldsWith v drive members s.fields.entries

end Driven

/-! ## Loops Run to Their End -/

/-- Answers a call. -/
def perform (v : Validator) (call : Call) (b : Bindings) : Bool × Bindings :=
  Id.run (performWith v (resolve v) call b)

/-- Gives a kind to every entity of the graph. -/
def assign (v : Validator) : Except EntityId KindIndex := Id.run (assignWith v (resolve v))

/-- The first reason why an entity does not conform to a kind, if one shows in a field by itself. -/
def diagnose (v : Validator) (kind : String) (entity : Json) : Option Mismatch :=
  Id.run (diagnoseWith v (resolve v) kind entity)

/-! ## Loops That Are Cut Off -/

/-- Runs the loop for some passes at most. -/
def Loop.outcome? (v : Validator) : Nat → Loop → Option (Bool × Bindings)
  | 0, s => if s.stack.isEmpty then some s.outcome else none
  | n + 1, s =>
    match s.pass? v with
    | some s' => outcome? v n s'
    | none => some s.outcome

/-- Passes that are enough for a first frame. -/
def passLimit (v : Validator) (root : Attempt) (b : Bindings) : Nat :=
  (goalWork root.remaining + 1) * v.base.pow (v.unbound b.toAssignment + 1)

/-- Meets the goals of a frame, and of all frames that it opens, within the passes that are
enough. -/
def resolve? (v : Validator) : Driver Option := fun root b =>
  (Loop.start root b).outcome? v (passLimit v root b)

/-- Answers a call within the passes that are enough. -/
def perform? (v : Validator) : Call → Bindings → Option (Bool × Bindings) :=
  performWith v (resolve? v)

/-- Gives a kind to every entity of the graph within the passes that are enough. -/
def assign? (v : Validator) : Option (Except EntityId KindIndex) := assignWith v (resolve? v)

/-- Looks for the first reason of a failure within the passes that are enough. -/
def diagnose? (v : Validator) : String → Json → Option (Option Mismatch) :=
  diagnoseWith v (resolve? v)

end TypedGraph.Validator.InPlace
