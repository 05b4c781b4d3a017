import SearchFilter.Value.Integer
import SearchFilter.Text.Case

/-!
# Filters

A filter names a field, says whether it matches terms or a range, and carries what the field is
compared with.
-/

namespace SearchFilter
open Text

inductive FilterKind
  | term
  | range
  deriving DecidableEq, Repr

namespace FilterKind

def name : FilterKind → String
  | term => "term"
  | range => "range"

/-- ASCII letters may be of either case. -/
def ofName? (s : String) : Option FilterKind :=
  if lower s = "term" then some term
  else if lower s = "range" then some range
  else none

theorem ofName?_name (k : FilterKind) : ofName? k.name = some k := by
  cases k <;> decide

end FilterKind

structure Filter where
  field : String
  kind : FilterKind
  operand : Operand
  deriving DecidableEq, Repr

namespace Filter

def equals (f g : Filter) : Bool :=
  f.field = g.field && f.kind = g.kind && f.operand.equals g.operand

def fingerprint (f : Filter) : List Nat :=
  (Value.text f.field).fingerprint ++ (if f.kind = .term then 0 else 1) :: f.operand.fingerprint

end Filter

/-! ## Fields that no attribute describes -/

def priceField : String := "price"
def categoryField : String := "category_ids"
def visibilityField : String := "visibility"

end SearchFilter
