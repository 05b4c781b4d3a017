import SearchFilter.Text.Quoted
import SearchFilter.Value.Basic
import SearchFilter.Text.Case

/-!
# SQL dialects

How names and values are written in each of the two databases, and where else they differ.
-/

namespace SearchFilter
open Text

inductive Dialect
  | mysql
  | postgres
  deriving DecidableEq, Repr, Inhabited

namespace Dialect

/-- ASCII letters may be of either case. -/
def ofName? (s : String) : Option Dialect :=
  if lower s = "mysql" then some mysql
  else if lower s = "pg" ∨ lower s = "postgres" ∨ lower s = "postgresql" then some postgres
  else none

def name : Dialect → String
  | mysql => "MySQL"
  | postgres => "PostgreSQL"

def quote : Dialect → Char
  | mysql => '`'
  | postgres => '"'

def ifNull : Dialect → String
  | mysql => "IFNULL"
  | postgres => "COALESCE"

/-- Whether `HAVING` may use the aliases of the columns selected. -/
def havingSeesAliases : Dialect → Bool
  | mysql => true
  | postgres => false

def quoteName (d : Dialect) (name : String) : String :=
  String.ofList (enclose d.quote name.toList)

/-- Each part between dots is quoted by itself. -/
def quotePath (d : Dialect) (path : String) : String :=
  String.ofList (['.'].intercalate ((path.toList.splitOn '.').map (enclose d.quote)))

/-- What a backslash literal has for a character. -/
def escape (c : Char) : List Char :=
  match c with
  | '\x00' => ['\\', '0']
  | '\n' => ['\\', 'n']
  | '\r' => ['\\', 'r']
  | '\x1a' => ['\\', 'Z']
  | '\\' => ['\\', '\\']
  | '\'' => ['\\', '\'']
  | '"' => ['\\', '"']
  | c => [c]

def quoteText (d : Dialect) (s : String) : String :=
  match d with
  | mysql => String.ofList ('\'' :: (s.toList.flatMap escape ++ ['\'']))
  | postgres => String.ofList (enclose '\'' s.toList)

def quoteValue (d : Dialect) : Value → String
  | .text s => d.quoteText s
  | .bool b =>
    match d with
    | mysql => if b then "1" else "0"
    | postgres => if b then "TRUE" else "FALSE"
  | v => v.display

end Dialect

end SearchFilter
