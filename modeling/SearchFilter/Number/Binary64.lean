import SearchFilter.Number.Decimal

/-!
# 64-bit floating point numbers

A number is its sign and its magnitude. The magnitude counts upwards from zero through the
finite numbers, then infinity, then the values that are not numbers, as the bits of the format
do. All finite numbers are multiples of `2 ^ -1074`; `units` is that multiple. Rounding is to
the nearest number, a tie going to the even magnitude.
-/

namespace SearchFilter

structure Binary64 where
  negative : Bool
  magnitude : Fin 0x8000000000000000
  deriving DecidableEq, Repr

namespace Binary64

def one : Nat := Nat.pow 2 1074

/-- How many numbers there are from one power of two up to the next. -/
def octave : Nat := 0x10000000000000

def infinity : Nat := 0x7FF0000000000000

/-- The quotient rounded to the nearest integer, ties to even. -/
def roundDiv (num den : Nat) : Nat :=
  let q := num / den
  let r := num % den
  if 2 * r < den ∨ (2 * r = den ∧ q % 2 = 0) then q else q + 1

def units (magnitude : Nat) : Nat :=
  if magnitude < octave then magnitude
  else (octave + magnitude % octave) * Nat.pow 2 (magnitude / octave - 1)

/-- The magnitude nearest to `num / den` units. From `2 ^ 53` units on, `shift` low bits are
lost and 53 are kept. -/
def nearest (num den : Nat) : Nat :=
  let shift := (num / den).log2 - 52
  min (shift * octave + roundDiv num (den * Nat.pow 2 shift)) infinity

theorem nearest_lt (num den : Nat) : nearest num den < 0x8000000000000000 :=
  Nat.lt_of_le_of_lt (Nat.min_le_right _ _) (by decide)

def round (negative : Bool) (num den : Nat) : Binary64 :=
  ⟨negative, nearest num den, nearest_lt num den⟩

/-- The number nearest to a decimal. From `10 ^ 309` on all is infinite, and where the exponent
exceeds the bits of the coefficient by 1100 all is zero, so exponents beyond these are cut. -/
def ofDecimal (negative : Bool) (d : Decimal) : Binary64 :=
  let up := min d.exponent.toNat 309
  let down := min (-d.exponent).toNat (d.coefficient.log2 + 1100)
  round negative (d.coefficient * Nat.pow 10 up * one) (Nat.pow 10 down)

def infinite (negative : Bool) : Binary64 := ⟨negative, infinity, by decide⟩

def nan (negative : Bool) : Binary64 := ⟨negative, infinity + octave / 2, by decide⟩

def isFinite (x : Binary64) : Bool := x.magnitude.val < infinity

def isNaN (x : Binary64) : Bool := infinity < x.magnitude.val

/-- The comparison of numbers: what is not a number equals nothing, and both zeros are equal. -/
def equals (x y : Binary64) : Bool :=
  !x.isNaN && !y.isNaN && (x = y || (x.magnitude = 0 && y.magnitude = 0))

def bits (x : Binary64) : Nat :=
  (if x.negative then 0x8000000000000000 else 0) + x.magnitude

/-- The integer part, or 0 if the number is not finite. -/
def truncate (x : Binary64) : Int :=
  if x.isFinite then
    let n : Nat := units x.magnitude / one
    if x.negative then -(n : Int) else n
  else 0

end Binary64

def Numeral.toBinary64 (n : Numeral) : Binary64 :=
  .ofDecimal n.isNegative n.magnitude

end SearchFilter
