import SearchFilter.CommandLine.Request
import SearchFilter.Environment
import SearchFilter.Filter.Format
import SearchFilter.Fragment.Compile
import SearchFilter.UnknownName
import SearchFilter.Value.Literal

/-!
# Answers

A request is answered from the files it names and the variables of the process. The stages come
in a fixed order and the first that fails decides the answer: the catalog file, its JSON, the
file of settings, the settings, the dialect, the kind of filter, the compilation.
-/

namespace SearchFilter.CommandLine

inductive Failure
  | catalogFile (failure : ReadFailure)
  | catalogJson
  | environment (e : Environment.Error)
  | argument (e : UnknownName)
  | compile (e : CompileError)
  deriving DecidableEq, Repr

/-- What the library says about a text that it refuses as JSON. Without a line it names no place. -/
structure Refusal where
  reason : String := "not a catalog"
  line : Nat := 0
  column : Nat := 0
  deriving DecidableEq, Repr

def Refusal.message (r : Refusal) : String :=
  if r.line = 0 then r.reason else r.reason ++ " at line " ++ r.line.repr ++ " column " ++ r.column.repr

def Failure.message (failure : Failure) (refusal : Refusal := {}) : String :=
  match failure with
  | catalogFile failure => "Failed to read the catalog file: " ++ failure.message
  | catalogJson => "Failed to deserialize the catalog file as JSON: " ++ refusal.message
  | environment e => e.message
  | argument e => "Invalid argument: " ++ e.message
  | compile e => "Failed to compile the filter: " ++ e.message

/-- What the request can see: the files by their path, and the variables of the process. -/
structure Surroundings where
  file : String → Except ReadFailure String
  vars : Keyed String

def versionText : String := "filterc 0.1.0\n"

def helpText : String :=
  "Compiles catalog search filters into SQL fragments\n\n" ++
  "Usage: filterc compile --catalog <CATALOG> --field <FIELD> [--type <TYPE>] [--dialect <DIALECT>]\n" ++
  "                       [--env-file <ENV_FILE>] [--value <VALUE>]... [--set] [--negate] [--query <QUERY>]\n" ++
  "       filterc explain --catalog <CATALOG> --field <FIELD> [--type <TYPE>] [--dialect <DIALECT>]\n" ++
  "                       [--env-file <ENV_FILE>]\n"

/-- One value stands for itself and no value for null, unless a set is asked for. -/
def operand (values : List String) (asSet : Bool) : Operand :=
  match values.map Value.ofWord, asSet with
  | [], false => .one .null
  | [v], false => .one v
  | vs, _ => .set vs

def settled {α : Type} (r : α × Option Environment.Error) : Except Failure α :=
  match r.2 with
  | none => .ok r.1
  | some e => .error (.environment e)

def parseCatalog (source : String) : Except Failure Catalog :=
  match Catalog.parse? source with
  | some c => .ok c
  | none => .error .catalogJson

namespace Target

/-- The variables of the process, and over them those of the file of settings. -/
def loadVariables (s : Surroundings) (t : Target) : Keyed String × Option Environment.Error :=
  match t.envFile with
  | some path => Environment.loadFile s.vars path (s.file path)
  | none => (s.vars, none)

def loadCatalog (s : Surroundings) (t : Target) : Except Failure Catalog := do
  let source ← (s.file t.catalog).mapError .catalogFile
  let catalog ← parseCatalog source
  let vars ← settled (t.loadVariables s)
  settled (Environment.override vars catalog)

def load (s : Surroundings) (t : Target) (operand : Operand) : Except Failure (Catalog × Dialect × Filter) := do
  let catalog ← t.loadCatalog s
  let dialect ← (Dialect.ofName t.dialect).mapError .argument
  let kind ← (FilterKind.ofName t.kind).mapError .argument
  return (catalog, dialect, ⟨t.field, kind, operand⟩)

end Target

def Request.files : Request → List String
  | .compile target .. | .explain target => target.catalog :: target.envFile.toList
  | .help | .version => []

def Request.answer (s : Surroundings) : Request → Except Failure String
  | .compile target values asSet negated query => do
    let (catalog, dialect, filter) ← target.load s (operand values asSet)
    let fragment ← (catalog.compile dialect Filter.tableAlias filter negated query).mapError .compile
    return fragment ++ "\n"
  | .explain target => do
    let (catalog, _, filter) ← target.load s (.one .null)
    let plan ← (catalog.plan filter).mapError .compile
    return plan.toJson.pretty ++ "\n"
  | .help => .ok helpText
  | .version => .ok versionText

end SearchFilter.CommandLine
