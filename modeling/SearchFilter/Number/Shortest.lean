import SearchFilter.Number.Binary64

/-!
# The shortest decimal of a number

Of the decimals that read back as the number, `shortest` takes one with the fewest digits and of
those the nearest. With `n` digits only two decimals come into question, the ones next below and
next above. Seventeen digits always suffice; should none read back, the exact value is taken,
which does.
-/

namespace SearchFilter

inductive Tie
  | even
  | up
  deriving DecidableEq, Repr

namespace Binary64

def exact (magnitude : Nat) : Decimal :=
  ⟨units magnitude * Nat.pow 5 1074, -1074⟩

/-- The power of ten that the first digit of a positive number counts. -/
def leading (magnitude : Nat) : Int :=
  (Nat.toDigits 10 (units magnitude * Nat.pow 10 324 / one)).length - 325

/-- The two decimals next to the number on the grid `10 ^ grid`, the nearer one first. -/
def neighbours (tie : Tie) (magnitude : Nat) (grid : Int) : List Decimal :=
  let num := units magnitude * Nat.pow 10 (-grid).toNat
  let den := one * Nat.pow 10 grid.toNat
  let q := num / den
  let r := num % den
  let down := 2 * r < den ∨ (2 * r = den ∧ tie = .even ∧ q % 2 = 0)
  if down then [⟨q, grid⟩, ⟨q + 1, grid⟩] else [⟨q + 1, grid⟩, ⟨q, grid⟩]

def readsBack (magnitude : Nat) (d : Decimal) : Bool :=
  (ofDecimal false d).magnitude = magnitude

def shortest (tie : Tie) (magnitude : Nat) : Decimal :=
  if magnitude = 0 then ⟨0, 0⟩
  else
    let first := leading magnitude
    let found := (List.range 17).findSome? fun (n : Nat) =>
      (neighbours tie magnitude (first - n)).find? (readsBack magnitude)
    found.getD (exact magnitude)

end Binary64

end SearchFilter
