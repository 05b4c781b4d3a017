/-!
# Requests

What the arguments of the command line ask for. The command comes first and its options follow,
each as `--name value` or `--name=value`.
-/

namespace SearchFilter.CommandLine

structure Target where
  catalog : String
  field : String
  kind : String
  dialect : String
  envFile : Option String
  deriving DecidableEq, Repr

inductive Request
  | compile (target : Target) (values : List String) (asSet negated : Bool) (query : String)
  | explain (target : Target)
  | help
  | version
  deriving DecidableEq, Repr

/-- What an option may be followed by, and whether it may be given again. -/
inductive OptionKind
  | flag
  | value
  | values
  deriving DecidableEq, Repr

def targetOption? (name : String) : Option OptionKind :=
  if name ∈ ["catalog", "field", "type", "dialect", "env-file"] then some .value else none

def compileOption? (name : String) : Option OptionKind :=
  if name = "value" then some .values
  else if name = "query" then some .value
  else if name = "set" ∨ name = "negate" then some .flag
  else targetOption? name

/-- The options given, in order, a flag with an empty value. -/
abbrev Given := List (String × String)

namespace Given

/-- One more option, unless it may not be given again. -/
def add? (kind : OptionKind) (name value : String) (g : Given) : Option Given :=
  if kind ≠ .values ∧ g.any (·.1 = name) then none else some (g ++ [(name, value)])

def get? (name : String) (g : Given) : Option String :=
  g.lookup name

def all (name : String) (g : Given) : List String :=
  (g.filter (·.1 = name)).map (·.2)

def has (name : String) (g : Given) : Bool :=
  g.any (·.1 = name)

def target? (g : Given) : Option Target := do
  return {
    catalog := ← g.get? "catalog"
    field := ← g.get? "field"
    kind := (g.get? "type").getD "term"
    dialect := (g.get? "dialect").getD "mysql"
    envFile := g.get? "env-file" }

end Given

/-- What an argument is by its dashes. A single dash is a word. -/
inductive Argument
  | word
  | short (letters : List Char)
  | long (name : String) (attached : Option String)
  | endOfOptions
  deriving DecidableEq, Repr

def Argument.ofString (arg : String) : Argument :=
  match arg.toList with
  | ['-', '-'] => endOfOptions
  | '-' :: '-' :: cs =>
    let name := String.ofList (cs.takeWhile (· ≠ '='))
    match cs.dropWhile (· ≠ '=') with
    | [] => long name none
    | _ :: value => long name (some (String.ofList value))
  | '-' :: c :: cs => short (c :: cs)
  | _ => word

/-- Why no command can be read: help was asked for, or the arguments make no sense. -/
inductive Stop
  | help
  | usage
  deriving DecidableEq, Repr

def Stop.unless {α : Type} : Option α → Except Stop α
  | some x => .ok x
  | none => .error .usage

/-- Reads the options of a command. Asking for help ends the reading, as does the first mistake. -/
def readOptions (option? : String → Option OptionKind) (g : Given) : List String → Except Stop Given
  | [] => .ok g
  | arg :: args =>
    match Argument.ofString arg with
    | .word => .error .usage
    | .endOfOptions => if args = [] then .ok g else .error .usage
    | .short letters => .error (if letters.head? = some 'h' then .help else .usage)
    | .long name attached =>
      match option? name, attached with
      | none, none => .error (if name = "help" then .help else .usage)
      | none, some _ => .error .usage
      | some .flag, none => do readOptions option? (← Stop.unless (g.add? .flag name "")) args
      | some .flag, some _ => .error .usage
      | some kind, some value => do readOptions option? (← Stop.unless (g.add? kind name value)) args
      | some kind, none =>
        match args with
        | [] => .error .usage
        | value :: args =>
          if Argument.ofString value = .word then do
            readOptions option? (← Stop.unless (g.add? kind name value)) args
          else .error .usage

def compileRequest (args : List String) : Except Stop Request := do
  let g ← readOptions compileOption? [] args
  let target ← Stop.unless g.target?
  return .compile target (g.all "value") (g.has "set") (g.has "negate") ((g.get? "query").getD "")

def explainRequest (args : List String) : Except Stop Request := do
  let g ← readOptions targetOption? [] args
  return .explain (← Stop.unless g.target?)

def Request.ofArguments? (args : List String) : Option Request :=
  let read :=
    match args with
    | "compile" :: args => compileRequest args
    | "explain" :: args => explainRequest args
    | "help" :: [] => .ok .help
    | "help" :: [command] => if command ∈ ["compile", "explain", "help"] then .ok .help else .error .usage
    | arg :: _ =>
      match Argument.ofString arg with
      | .short ('V' :: _) | .long "version" none => .ok .version
      | .short ('h' :: _) | .long "help" none => .ok .help
      | _ => .error .usage
    | [] => .error .usage
  match read with
  | .ok request => some request
  | .error .help => some .help
  | .error .usage => none

end SearchFilter.CommandLine
