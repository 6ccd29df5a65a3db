import TypedGraph.Schema.Builder
import TypedGraph.Validation.Diagnosis

/-!
# Reports

The two reports of the command line: the audit of a schema, and the validation of a graph.
-/

namespace TypedGraph

/-- Lines of text, each with its end. -/
def unlines (lines : List String) : String := String.join (lines.map (· ++ "\n"))

/-- The audit of a schema. -/
structure CheckReport where
  /-- The implications between kinds. -/
  analysis : Analysis
  /-- The references to kinds that are not declared; they only give a warning. -/
  dangling : List DanglingRef

namespace CheckReport

/-- Audits a schema. -/
def of (schema : Schema) : CheckReport := ⟨schema.analyze, schema.danglingRefs⟩

/-- No kind implies another. -/
def isCoherent (r : CheckReport) : Bool := r.analysis.isCoherent

/-- The warning about a reference. -/
def warning (r : DanglingRef) : String :=
  "warning: " ++ r.kind ++ "." ++ r.field ++ " references undeclared kind " ++ r.missing

/-- The verdict, with the implications found. -/
def verdict (r : CheckReport) : List String :=
  if r.isCoherent then ["coherent: no kind implies another"]
  else
    ("incoherent: " ++ Decimal.text r.analysis.problems.length ++ " implication(s) found") ::
      r.analysis.problems.map fun i => "  " ++ i.display

/-- The report as text. -/
def render (r : CheckReport) : String :=
  let kinds := r.analysis.matrix.kinds
  unlines <|
    ("kinds: " ++ Decimal.text kinds.length ++ " (" ++ ", ".intercalate kinds ++ ")") ::
    ("fixpoint reached after " ++ Decimal.text r.analysis.passes ++ " pass(es)") ::
    (r.dangling.map warning ++ r.verdict)

end CheckReport

/-- The validation of a graph. -/
inductive ValidateReport where
  /-- Every entity has a kind. -/
  | valid (index : KindIndex)
  /-- No kind accepts the failed entity. Unmatched entities are explained, the failed one first. -/
  | invalid (failed : EntityId) (unmatched : List (EntityId × Explanation))

namespace ValidateReport

/-- The entities to explain when validation fails: the failed one, and every other that no kind
accepts by itself. -/
def unmatched (v : Validator) (failed : EntityId) : List (EntityId × Explanation) :=
  let others := (v.graph.ids.filter (· ≠ failed)).filterMap fun id =>
    match v.explain id with
    | some reasons => if reasons.all (·.2 ≠ .conflict) then some (id, reasons) else none
    | none => none
  match v.explain failed with
  | some reasons => (failed, reasons) :: others
  | none => others

/-- Validates a graph. -/
def of (schema : Schema) (graph : EntityGraph) : ValidateReport :=
  let v := Validator.of schema graph
  match v.assign with
  | .ok index => .valid index
  | .error failed => .invalid failed (unmatched v failed)

/-- Every entity has a kind. -/
def isValid : ValidateReport → Bool
  | valid _ => true
  | invalid _ _ => false

/-- The lines that explain one entity. -/
def explanationLines (e : EntityId × Explanation) : List String :=
  ("  " ++ e.1.text ++ ":") ::
    if e.2.isEmpty then ["    (schema declares no kinds)"]
    else e.2.map fun r => "    " ++ r.1 ++ ": " ++ r.2.display

/-- The report as text. -/
def render : ValidateReport → String
  | valid index => unlines <|
    ("valid: " ++ Decimal.text index.size ++ " entities") ::
      index.entries.map fun e => "  " ++ e.1.text ++ ": " ++ e.2
  | invalid failed unmatched => unlines <|
    ("invalid: no kind accepts entity " ++ failed.text) :: unmatched.flatMap explanationLines

end ValidateReport

end TypedGraph
