import TypedGraph.Report

/-!
# Command Line

Two commands print the reports: `check` audits the schema in a file, and `validate` validates the
graph in a second file against it. The exit status is 0 when the input is accepted, 1 when it is
rejected or a file is of no use, and 2 when the arguments make no sense. Files come in as a
function, which has no text for a file that is missing or is not UTF-8.
-/

namespace TypedGraph

/-- The texts of files by name. -/
abbrev Files := String → Option String

/-- Why a file is of no use. -/
inductive FileError where
  /-- There is no text of the schema. -/
  | unreadableSchema (name : String)
  /-- The text says no schema. -/
  | invalidSchema (name : String)
  /-- There is no text of the graph. -/
  | unreadableGraph (name : String)
  /-- The text says no graph. -/
  | invalidGraph (name : String)
deriving DecidableEq

/-- The wording of an error. -/
def FileError.message : FileError → String
  | unreadableSchema name => "failed to read schema " ++ name
  | invalidSchema name => "invalid schema " ++ name
  | unreadableGraph name => "failed to read graph " ++ name
  | invalidGraph name => "invalid entity graph " ++ name ++ " (expected an object keyed by id)"

namespace Files

/-- The schema in a file. -/
def schema (files : Files) (name : String) : Except FileError Schema :=
  match files name with
  | none => .error (.unreadableSchema name)
  | some text => (Schema.ofText text).mapError fun _ => .invalidSchema name

/-- The graph in a file. -/
def graph (files : Files) (name : String) : Except FileError EntityGraph :=
  match files name with
  | none => .error (.unreadableGraph name)
  | some text => (EntityGraph.ofText text).mapError fun _ => .invalidGraph name

/-- Audits the schema in a file. -/
def check (files : Files) (schema : String) : Except FileError CheckReport :=
  (files.schema schema).map CheckReport.of

/-- Validates the graph in a file; the schema is looked at first. -/
def validate (files : Files) (schema graph : String) : Except FileError ValidateReport := do
  let s ← files.schema schema
  let g ← files.graph graph
  return .of s g

end Files

/-- A command with the files that it is about. -/
inductive Invocation where
  | check (schema : String)
  | validate (schema graph : String)
deriving DecidableEq

namespace Invocation

/-- The option that asks for more log lines; it changes nothing else. -/
def isVerbose (arg : String) : Bool := arg = "-v" || arg = "--verbose"

/-- The argument has the form of an option; a dash alone is the name of a file. -/
def isOption (arg : String) : Bool := arg.toList.head? = some '-' && arg ≠ "-"

/-- The names of files among the arguments of a command, after those already read in reverse. The
only option is given at most once, and two dashes end the options. -/
def names? (verbose : Bool) (read : List String) : List String → Option (List String)
  | [] => some read.reverse
  | arg :: rest =>
    if isVerbose arg then if verbose then none else names? true read rest
    else if arg = "--" then some (read.reverse ++ rest)
    else if isOption arg then none
    else names? verbose (arg :: read) rest

/-- The invocation of a command with files whose names are not empty. -/
def ofCommand? (command : String) (names : List String) : Option Invocation :=
  if names.any String.isEmpty then none
  else
    match names with
    | [schema] => if command = "check" then some (check schema) else none
    | [schema, graph] => if command = "validate" then some (validate schema graph) else none
    | _ => none

/-- The invocation that arguments stand for. The option may also stand once before the command. -/
def ofArgs? : List String → Option Invocation
  | [] => none
  | arg :: rest =>
    if isVerbose arg then
      match rest with
      | [] => none
      | command :: rest => (names? false [] rest).bind (ofCommand? command)
    else (names? false [] rest).bind (ofCommand? arg)

/-- The names of the files that the invocation is about. -/
def files : Invocation → List String
  | check schema => [schema]
  | validate schema graph => [schema, graph]

end Invocation

/-- How the program ends. -/
inductive Ending where
  /-- A report is printed. -/
  | report (accepted : Bool) (text : String)
  /-- A file is of no use. -/
  | failure (error : FileError)
  /-- The arguments make no sense. -/
  | misuse
deriving DecidableEq

namespace Ending

/-- The exit status. -/
def status : Ending → UInt32
  | report true _ => 0
  | report false _ => 1
  | failure _ => 1
  | misuse => 2

/-- What is printed. -/
def output : Ending → String
  | report _ text => text
  | _ => ""

/-- How to call the program. -/
def usage : String := "usage: check [-v] SCHEMA | validate [-v] SCHEMA GRAPH"

/-- What is printed about an error. -/
def complaint : Ending → String
  | report _ _ => ""
  | failure e => "Error: " ++ e.message
  | misuse => usage

end Ending

/-- Carries out an invocation. -/
def Invocation.run (files : Files) : Invocation → Ending
  | check schema =>
    match files.check schema with
    | .ok r => .report r.isCoherent r.render
    | .error e => .failure e
  | validate schema graph =>
    match files.validate schema graph with
    | .ok r => .report r.isValid r.render
    | .error e => .failure e

/-- What the program does with its arguments. -/
def Ending.of (files : Files) (args : List String) : Ending :=
  match Invocation.ofArgs? args with
  | some i => i.run files
  | none => .misuse

end TypedGraph
