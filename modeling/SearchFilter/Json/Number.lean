import SearchFilter.Number.Binary64

/-!
# JSON numbers

A number without point and exponent is an integer if it has 64 bits and is not `-0`. Any other
is a floating point number: the digits are first gathered into a 64-bit significand, and that is
then scaled by a power of ten, each of the steps rounded. The last digit may therefore differ
from the nearest number's. What exceeds the largest finite number is refused.
-/

namespace SearchFilter

namespace Binary64

def product (a b : Nat) : Nat :=
  nearest (units a * units b) one

def quotient (a b : Nat) : Nat :=
  nearest (units a * one) (units b)

def ofNat (n : Nat) : Nat :=
  nearest (n * one) 1

/-- The greatest power of ten that is finite has this exponent. -/
def greatestPower : Nat := 308

/-- The magnitude divided by a power of ten, by the greatest one as often as needed. -/
def scaleDown (m exponent : Nat) : Nat :=
  if exponent ≤ greatestPower then quotient m (ofNat (Nat.pow 10 exponent))
  else if m = 0 then 0
  else scaleDown (quotient m (ofNat (Nat.pow 10 greatestPower))) (exponent - greatestPower)
termination_by exponent
decreasing_by simp only [greatestPower] at *; omega

/-- The magnitude multiplied by a power of ten, if that is finite. -/
def scaleUp (m exponent : Nat) : Option Nat :=
  if m = 0 then some 0
  else if exponent ≤ greatestPower then
    (some (product m (ofNat (Nat.pow 10 exponent)))).filter (· < infinity)
  else none

end Binary64

namespace Numeral

/-- Takes on digits as long as the significand has 64 bits, and counts the digits left over. -/
def gather (significand : Nat) : List Char → Nat × Nat
  | [] => (significand, 0)
  | c :: cs =>
    let next := 10 * significand + (c.toNat - '0'.toNat)
    if next < 0x10000000000000000 then gather next cs else (significand, cs.length + 1)

/-- Digits left over in front of the point raise the exponent, digits taken behind it lower it. -/
def significand (n : Numeral) : Decimal :=
  let fraction := n.fraction.getD []
  let (whole, above) := gather 0 n.whole
  let (all, below) := gather whole fraction
  ⟨all, ((n.exponent.map Exponent.value).getD 0) + above - (fraction.length - below : Nat)⟩

def jsonFloat? (n : Numeral) : Option Binary64 :=
  let d := n.significand
  let m := Binary64.ofNat d.coefficient
  let scaled :=
    if 0 ≤ d.exponent then Binary64.scaleUp m d.exponent.toNat
    else some (Binary64.scaleDown m (-d.exponent).toNat)
  scaled.bind fun m => if h : m < 0x8000000000000000 then some ⟨n.isNegative, m, h⟩ else none

def jsonInteger? (n : Numeral) : Option Int64 :=
  if n.isInteger ∧ ¬(n.isNegative ∧ n.integer = 0) ∧
      Int64.minValue.toInt ≤ n.integer ∧ n.integer ≤ Int64.maxValue.toInt then
    some (.ofInt n.integer)
  else none

end Numeral

end SearchFilter
