import SearchFilter.Number.Shortest

/-!
# Layouts of decimals

A decimal is written plainly, or with its first digit in front of the point and an exponent.
-/

namespace SearchFilter

namespace Decimal

/-- The digits around the point when no exponent is written, zeros filled in as needed. -/
def parts (d : Decimal) : List Char × List Char :=
  if d.leading < 0 then (['0'], List.replicate (-d.leading - 1).toNat '0' ++ d.digits)
  else
    let n := d.leading.toNat + 1
    (d.digits.take n ++ List.replicate (n - d.digits.length) '0', d.digits.drop n)

/-- Without exponent, and without a point if there is nothing behind it. -/
def plain (sign : Option Sign) (d : Decimal) : Numeral :=
  let (whole, fraction) := d.parts
  ⟨sign, whole, if fraction = [] then none else some fraction, none⟩

/-- Without exponent, and with at least one digit behind the point. -/
def pointed (sign : Option Sign) (d : Decimal) : Numeral :=
  let (whole, fraction) := d.parts
  ⟨sign, whole, some (if fraction = [] then ['0'] else fraction), none⟩

def scientific (sign : Option Sign) (d : Decimal) : Numeral :=
  let fraction := d.digits.drop 1
  ⟨sign, d.digits.take 1, if fraction = [] then none else some fraction,
    some ⟨'e', some (if d.leading < 0 then .minus else .plus), Nat.toDigits 10 d.leading.natAbs⟩⟩

end Decimal

namespace Binary64

def sign (x : Binary64) : Option Sign :=
  if x.negative then some .minus else none

/-- The text in SQL: never an exponent, and no point behind a whole number. -/
def text (x : Binary64) : List Char :=
  if x.isNaN then "NaN".toList
  else if x.isFinite then (Decimal.plain x.sign (shortest .up x.magnitude)).text
  else Numeral.signText x.sign ++ "inf".toList

/-- The numeral of a finite number in JSON: an exponent below `10 ^ -5` and from `10 ^ 16` on, a
point otherwise. -/
def jsonNumeral (x : Binary64) : Numeral :=
  let d := shortest .even x.magnitude
  if -5 ≤ d.leading ∧ d.leading ≤ 15 then d.pointed x.sign else d.scientific x.sign

end Binary64

end SearchFilter
