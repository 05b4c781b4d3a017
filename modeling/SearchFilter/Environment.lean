import SearchFilter.Catalog.Basic
import SearchFilter.Number.Int64
import SearchFilter.Text.Blank
import SearchFilter.Text.Case

/-!
# Settings from the environment

A file of lines `KEY=VALUE` adds to the variables of the process, and three of the variables
override what a catalog says. Both stop at the first thing that is wrong and keep what was done
up to there.
-/

namespace SearchFilter
open Text

inductive ReadFailure
  | notFound
  | isDirectory
  | notText
  | other (reason : String)
  deriving DecidableEq, Repr

def ReadFailure.message : ReadFailure → String
  | notFound => "No such file or directory (os error 2)"
  | isDirectory => "Is a directory (os error 21)"
  | notText => "stream did not contain valid UTF-8"
  | other reason => reason

namespace Environment

def tablePrefixVariable : String := "FILTERC_TABLE_PREFIX"
def storeVariable : String := "FILTERC_STORE_ID"
def showOutOfStockVariable : String := "FILTERC_SHOW_OUT_OF_STOCK"

inductive Error
  | unreadable (path : String) (failure : ReadFailure)
  | emptyKey (line : Nat)
  | malformed (line : Nat)
  | badStore (raw : String)
  | badFlag (raw : String)
  deriving DecidableEq, Repr

def Error.reason : Error → String
  | unreadable path failure => "Failed to read env file " ++ path ++ ": " ++ failure.message
  | emptyKey line => "Invalid env file: empty key at line " ++ line.repr
  | malformed line => "Invalid env file: malformed line " ++ line.repr ++ " (expected KEY=VALUE)"
  | badStore raw => storeVariable ++ " must be an integer, got '" ++ raw ++ "'"
  | badFlag raw => showOutOfStockVariable ++ " must be a boolean, got '" ++ raw ++ "'"

def Error.message (e : Error) : String :=
  "Configuration error: " ++ e.reason

inductive Line
  | blank
  | assignment (key value : List Char)
  | emptyKey
  | malformed
  deriving DecidableEq, Repr

/-- What stands between two of these quotes, if they are the first and the last character. -/
def between? (quote : Char) : List Char → Option (List Char)
  | [] => none
  | c :: cs => if c = quote ∧ cs.getLast? = some quote then some cs.dropLast else none

/-- A value without the white space around it and then without one pair of quotes. -/
def bareValue (cs : List Char) : List Char :=
  let value := trim cs
  ((between? '"' value).or (between? '\'' value)).getD value

/-- Lines without text and comments say nothing. The first `=` ends the key. -/
def Line.read (cs : List Char) : Line :=
  let line := trim cs
  if line = [] ∨ line.head? = some '#' then blank
  else if '=' ∈ line then
    let key := trim (line.takeWhile (· ≠ '='))
    if key = [] then emptyKey else assignment key (bareValue ((line.dropWhile (· ≠ '=')).drop 1))
  else malformed

/-- The variables after the lines, the first of which has this number, up to one that is wrong. -/
def loadLines (vars : Keyed String) (number : Nat) : List (List Char) → Keyed String × Option Error
  | [] => (vars, none)
  | cs :: rest =>
    match Line.read cs with
    | .blank => loadLines vars (number + 1) rest
    | .assignment key value =>
      loadLines (vars.put (String.ofList key) (String.ofList value)) (number + 1) rest
    | .emptyKey => (vars, some (.emptyKey number))
    | .malformed => (vars, some (.malformed number))

/-- Lines end at a line feed; a carriage return before it goes with the white space. -/
def load (vars : Keyed String) (content : String) : Keyed String × Option Error :=
  loadLines vars 1 (content.toList.splitOn '\n')

def loadFile (vars : Keyed String) (path : String) (content : Except ReadFailure String) :
    Keyed String × Option Error :=
  match content with
  | .ok content => load vars content
  | .error failure => (vars, some (.unreadable path failure))

def flag? (raw : String) : Option Bool :=
  let word := lower (String.ofList (trim raw.toList))
  if word ∈ ["1", "true", "yes", "on"] then some true
  else if word ∈ ["0", "false", "no", "off"] then some false
  else none

def overridePrefix (vars : Keyed String) (c : Catalog) : Catalog :=
  match vars.get? tablePrefixVariable with
  | some tablePrefix => c.setTablePrefix tablePrefix
  | none => c

def overrideStore (vars : Keyed String) (c : Catalog) : Except Error Catalog :=
  match vars.get? storeVariable with
  | some raw =>
    match Numeral.readInt64? (trim raw.toList) with
    | some store => .ok (c.setStore store)
    | none => .error (.badStore raw)
  | none => .ok c

def overrideFlag (vars : Keyed String) (c : Catalog) : Except Error Catalog :=
  match vars.get? showOutOfStockVariable with
  | some raw =>
    match flag? raw with
    | some flag => .ok (c.putFlag showOutOfStock flag)
    | none => .error (.badFlag raw)
  | none => .ok c

/-- The catalog with the variables in the place of its settings: the prefix first, then the store,
then the flag. -/
def override (vars : Keyed String) (c : Catalog) : Catalog × Option Error :=
  let c := overridePrefix vars c
  match overrideStore vars c with
  | .error e => (c, some e)
  | .ok c =>
    match overrideFlag vars c with
    | .error e => (c, some e)
    | .ok c => (c, none)

end Environment

end SearchFilter
