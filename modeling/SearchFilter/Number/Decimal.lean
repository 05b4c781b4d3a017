import SearchFilter.Number.Numeral

/-!
# Decimal numbers

The non-negative number `coefficient * 10 ^ exponent`.
-/

namespace SearchFilter

structure Decimal where
  coefficient : Nat
  exponent : Int
  deriving DecidableEq, Repr

/-- The number a numeral denotes, its sign left aside. -/
def Numeral.magnitude (n : Numeral) : Decimal :=
  let fraction := n.fraction.getD []
  ⟨digitsValue (n.whole ++ fraction), ((n.exponent.map Exponent.value).getD 0) - fraction.length⟩

namespace Decimal

/-- The significant digits, without zeros at the end; zero has none. -/
def digits (d : Decimal) : List Char :=
  ((Nat.toDigits 10 d.coefficient).reverse.dropWhile (· = '0')).reverse

def leading (d : Decimal) : Int :=
  d.exponent + (Nat.toDigits 10 d.coefficient).length - 1

end Decimal

end SearchFilter
