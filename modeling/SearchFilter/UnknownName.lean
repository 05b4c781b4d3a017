import SearchFilter.Dialect
import SearchFilter.Filter.Basic
import SearchFilter.Text.Case

/-!
# Names that nothing has

Kinds of filter and dialects are asked for by name.
-/

namespace SearchFilter
open Text

inductive UnknownName
  | filterKind (name : String)
  | dialect (name : String)
  deriving DecidableEq, Repr

def UnknownName.message : UnknownName → String
  | filterKind name => "Unknown filter type: " ++ lower name
  | dialect name => "Unsupported SQL dialect: " ++ lower name

def FilterKind.ofName (name : String) : Except UnknownName FilterKind :=
  match ofName? name with
  | some kind => .ok kind
  | none => .error (.filterKind name)

def Dialect.ofName (name : String) : Except UnknownName Dialect :=
  match ofName? name with
  | some d => .ok d
  | none => .error (.dialect name)

end SearchFilter
