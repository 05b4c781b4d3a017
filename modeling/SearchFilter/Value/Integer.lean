import SearchFilter.Value.Basic

/-!
# Values as integers

Every value reads as a 64-bit integer. Numbers are cut toward zero and held within the range, a
text counts as the numeral it begins with, and what has no number in it is 0. A set reads as
whether it has members.
-/

namespace SearchFilter

def isGap (c : Char) : Bool :=
  c = ' ' || c = '\t' || c = '\n' || c = '\r' || c = '\x0b' || c = '\x0c'

/-- The integer written without point and exponent, otherwise the number cut toward zero. -/
def Numeral.toInt64 (n : Numeral) : Int64 :=
  .ofIntClamp (if n.isInteger then n.integer else n.toBinary64.truncate)

def leadingInteger (cs : List Char) : Int64 :=
  match Numeral.scan? (cs.dropWhile isGap) with
  | some (n, _) => n.toInt64
  | none => 0

def Value.integer : Value → Int64
  | int n => n
  | float x => .ofIntClamp x.truncate
  | text s => leadingInteger s.toList
  | bool b => if b then 1 else 0
  | null => 0

def Operand.integer : Operand → Int64
  | one v => v.integer
  | set vs => if vs.isEmpty then 0 else 1

end SearchFilter
