import SearchFilter.Number.Layout

/-!
# Values

A filter compares a field with one value or with a set of values. Values compare as numbers do:
`equals` is coarser than equality on the two zeros and fails for what is not a number, while
`fingerprint`, the words given to a hash function, tells every two different values apart.
-/

namespace SearchFilter

inductive Value
  | int (n : Int64)
  | float (x : Binary64)
  | text (s : String)
  | bool (b : Bool)
  | null
  deriving DecidableEq, Repr

namespace Value

def equals : Value → Value → Bool
  | int m, int n => m = n
  | float x, float y => x.equals y
  | text s, text t => s = t
  | bool a, bool b => a = b
  | null, null => true
  | _, _ => false

/-- A tag for the kind of value, then its content, a text with its length in front. -/
def fingerprint : Value → List Nat
  | int n => [0, n.toUInt64.toNat]
  | float x => [1, x.bits]
  | text s => 2 :: s.length :: s.toList.map Char.toNat
  | bool b => [3, b.toNat]
  | null => [4]

def display : Value → String
  | int n => String.ofList (Numeral.ofInt n.toInt).text
  | float x => String.ofList x.text
  | text s => s
  | bool true => "true"
  | bool false => "false"
  | null => "NULL"

end Value

inductive Operand
  | one (value : Value)
  | set (values : List Value)
  deriving DecidableEq, Repr

namespace Operand

def equals : Operand → Operand → Bool
  | one v, one w => v.equals w
  | set vs, set ws => vs.length = ws.length && (vs.zip ws).all fun (v, w) => v.equals w
  | _, _ => false

def fingerprint : Operand → List Nat
  | one v => 0 :: v.fingerprint
  | set vs => 1 :: vs.length :: vs.flatMap Value.fingerprint

end Operand

end SearchFilter
