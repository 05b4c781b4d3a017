import Mathlib.Data.List.DropRight
import SearchFilter.Json.Number
import SearchFilter.Proofs.Json.RoundTrip
import SearchFilter.Proofs.Number.Layout
import SearchFilter.Proofs.Number.Numeral

/-!
# Numbers written in JSON

Integers and finite floating point numbers are written as JSON has numbers: digits in all parts, no
zero in front of other digits and a digit behind a point. An integer is read back as that integer.
The numeral of a floating point number has a point or an exponent and is never read as an integer.
-/

namespace SearchFilter

/-! ## Integers -/

theorem head?_toDigits {n : Nat} (h : n ≠ 0) : (Nat.toDigits 10 n).head? ≠ some '0' := by
  induction n using Nat.strongRecOn with
  | _ n ih =>
    rw [Nat.toDigits_eq_if (by decide)]
    by_cases hn : n < 10
    · have hall : ∀ d, d < 10 → d ≠ 0 → Nat.digitChar d ≠ '0' := by decide
      rw [if_pos hn]
      simpa using hall n hn h
    · have hd := ih (n / 10) (by omega) (by omega)
      have hne : Nat.toDigits 10 (n / 10) ≠ [] := Nat.toDigits_ne_nil
      rwa [if_neg hn, List.head?_append_of_ne_nil _ hne]

namespace Numeral

theorem isNumber_ofInt (i : Int) : Json.isNumber (ofInt i) = true := by
  have hsign : (ofInt i).sign ≠ some .plus := by
    by_cases hi : i < 0 <;> simp [ofInt, hi]
  have hwhole : (ofInt i).whole = ['0'] ∨ (ofInt i).whole ≠ [] ∧ (ofInt i).whole.head? ≠ some '0' := by
    by_cases hi : i.natAbs = 0
    · left
      show Nat.toDigits 10 i.natAbs = ['0']
      rw [hi]
      decide
    · right
      exact ⟨Nat.toDigits_ne_nil, head?_toDigits hi⟩
  have hfraction : (ofInt i).fraction ≠ some [] := by simp [ofInt]
  exact Json.isNumber_iff.2 ⟨hsign, hwhole, hfraction⟩

theorem jsonInteger?_ofInt (n : Int64) : (ofInt n.toInt).jsonInteger? = some n := by
  have hzero : ¬ ((ofInt n.toInt).isNegative = true ∧ n.toInt = 0) := by
    rintro ⟨hneg, hn⟩
    rw [hn] at hneg
    cases hneg
  rw [jsonInteger?, integer_ofInt, if_pos ⟨rfl, hzero, n.minValue_le_toInt, n.toInt_le⟩, Int64.ofInt_toInt]

theorem jsonInteger?_eq_none {n : Numeral} (h : n.isInteger = false) : n.jsonInteger? = none := by
  rw [jsonInteger?, h]
  exact if_neg fun hn => by cases hn.1

end Numeral

/-! ## Decimals -/

namespace Decimal

theorem digits_eq_rdropWhile (d : Decimal) : d.digits = (Nat.toDigits 10 d.coefficient).rdropWhile (· = '0') := rfl

/-- The first digit of a number that is not zero is not zero. -/
theorem exists_digits_eq_cons {d : Decimal} (h : d.coefficient ≠ 0) : ∃ c cs, d.digits = c :: cs ∧ c ≠ '0' := by
  have hhead := head?_toDigits h
  have hprefix := List.rdropWhile_prefix (· = '0') (Nat.toDigits 10 d.coefficient)
  rw [← digits_eq_rdropWhile] at hprefix
  cases hd : d.digits with
  | nil =>
    -- all digits would be zeros, the first one too
    rw [digits_eq_rdropWhile, List.rdropWhile_eq_nil_iff] at hd
    obtain ⟨c, cs, hc⟩ := List.exists_cons_of_ne_nil (Nat.toDigits_ne_nil (b := 10) (n := d.coefficient))
    rw [hc] at hd hhead
    have hz : c = '0' := by simpa using hd c List.mem_cons_self
    exact absurd (congrArg some hz) hhead
  | cons c cs =>
    obtain ⟨rest, hrest⟩ := hprefix
    rw [hd] at hrest
    refine ⟨c, cs, rfl, fun hc => hhead ?_⟩
    rw [← hrest, hc]
    rfl

section
variable (sign : Option Sign) (d : Decimal)

theorem fraction_pointed {ds : List Char} (h : (d.pointed sign).fraction = some ds) : IsDigits ds ∧ ds ≠ [] := by
  have hf : (if d.parts.2 = [] then ['0'] else d.parts.2) = ds := Option.some.inj h
  by_cases hnil : d.parts.2 = []
  · rw [if_pos hnil] at hf
    subst hf
    exact ⟨isDigit_replicate_zero 1, nofun⟩
  · rw [if_neg hnil] at hf
    subst hf
    exact ⟨d.isDigit_parts.2, hnil⟩

theorem fraction_scientific {ds : List Char} (h : (d.scientific sign).fraction = some ds) : IsDigits ds ∧ ds ≠ [] := by
  have hf : (if d.digits.drop 1 = [] then none else some (d.digits.drop 1)) = some ds := h
  by_cases hnil : d.digits.drop 1 = []
  · rw [if_pos hnil] at hf
    cases hf
  · rw [if_neg hnil] at hf
    cases hf
    exact ⟨fun c hc => d.isDigit_digits c (List.mem_of_mem_drop hc), hnil⟩

theorem isProper_pointed : (d.pointed sign).IsProper where
  whole := d.isDigit_parts.1
  fraction _ h := (fraction_pointed sign d h).1
  exponent := nofun
  hasDigit h := absurd h d.whole_ne_nil

theorem isProper_scientific (h : d.coefficient ≠ 0) : (d.scientific sign).IsProper where
  whole c hc := d.isDigit_digits c (List.mem_of_mem_take hc)
  fraction _ h := (fraction_scientific sign d h).1
  exponent e he := by
    cases he
    exact ⟨Or.inl rfl, Numeral.isDigits_toDigits _, Nat.toDigits_ne_nil⟩
  hasDigit hw := by
    obtain ⟨c, cs, hc, -⟩ := exists_digits_eq_cons h
    simp [scientific, hc] at hw

variable {sign} (hs : sign ≠ some .plus)
include hs

theorem isNumber_pointed (h : d.coefficient ≠ 0 ∨ d = ⟨0, 0⟩) : Json.isNumber (d.pointed sign) = true := by
  have hwhole : d.parts.1 = ['0'] ∨ d.parts.1 ≠ [] ∧ d.parts.1.head? ≠ some '0' := by
    rcases h with h | rfl
    · unfold parts
      split
      · exact Or.inl rfl
      · obtain ⟨c, cs, hc, hne⟩ := exists_digits_eq_cons h
        right
        simp [hc, hne]
    · left
      decide
  have hfraction : (d.pointed sign).fraction ≠ some [] := fun hf => (fraction_pointed sign d hf).2 rfl
  exact Json.isNumber_iff.2 ⟨hs, hwhole, hfraction⟩

theorem isNumber_scientific (h : d.coefficient ≠ 0) : Json.isNumber (d.scientific sign) = true := by
  obtain ⟨c, cs, hc, hne⟩ := exists_digits_eq_cons h
  have hwhole : (d.scientific sign).whole ≠ [] ∧ (d.scientific sign).whole.head? ≠ some '0' := by
    simp [scientific, hc, hne]
  have hfraction : (d.scientific sign).fraction ≠ some [] := fun hf => (fraction_scientific sign d hf).2 rfl
  exact Json.isNumber_iff.2 ⟨hs, Or.inr hwhole, hfraction⟩

end

end Decimal

/-! ## Floating point numbers -/

namespace Binary64

theorem nearest_zero (den : Nat) : nearest 0 den = 0 := by
  have hr : ∀ den, roundDiv 0 den = 0 := by
    intro den
    unfold roundDiv
    rw [Nat.zero_div, Nat.zero_mod]
    refine if_pos ?_
    omega
  simp only [nearest, Nat.zero_div, hr]
  rfl

theorem units_ne_zero {m : Nat} (h : m ≠ 0) : units m ≠ 0 := by
  unfold units
  split
  · exact h
  · refine Nat.mul_ne_zero ?_ (Nat.ne_of_gt (Nat.pow_pos (by decide)))
    have : 0 < octave := by decide
    omega

/-- The power is too large to be computed in a proof. -/
theorem exists_exact_eq (m : Nat) : ∃ k, exact m = ⟨units m * Nat.pow 5 k, -1074⟩ :=
  ⟨1074, by rw [exact]⟩

theorem coefficient_exact_ne_zero {m : Nat} (h : m ≠ 0) : (exact m).coefficient ≠ 0 := by
  obtain ⟨k, hk⟩ := exists_exact_eq m
  rw [hk]
  exact Nat.mul_ne_zero (units_ne_zero h) (Nat.ne_of_gt (Nat.pow_pos (by decide)))

theorem coefficient_ne_zero_of_readsBack {m : Nat} {d : Decimal} (hm : m ≠ 0) (h : readsBack m d = true) :
    d.coefficient ≠ 0 := by
  intro hz
  have hmag : (ofDecimal false d).magnitude = m := by simpa [readsBack] using h
  apply hm
  rw [← hmag]
  simp only [ofDecimal, round, hz, Nat.zero_mul, nearest_zero]

theorem shortest_eq_or_readsBack (tie : Tie) {m : Nat} (hm : m ≠ 0) :
    shortest tie m = exact m ∨ readsBack m (shortest tie m) = true := by
  unfold shortest
  rw [if_neg hm]
  generalize exact m = d
  dsimp only
  cases hf : ((List.range 17).findSome? fun (n : Nat) =>
      (neighbours tie m (leading m - n)).find? (readsBack m)) with
  | none =>
    left
    rfl
  | some d =>
    right
    obtain ⟨n, -, hd⟩ := List.exists_of_findSome?_eq_some hf
    exact List.find?_some hd

/-- The decimal taken for a number has digits if the number is not zero. -/
theorem coefficient_shortest (tie : Tie) (m : Nat) :
    (shortest tie m).coefficient ≠ 0 ∨ shortest tie m = ⟨0, 0⟩ := by
  by_cases hm : m = 0
  · right
    unfold shortest
    exact if_pos hm
  · left
    rcases shortest_eq_or_readsBack tie hm with h | h
    · rw [h]
      exact coefficient_exact_ne_zero hm
    · exact coefficient_ne_zero_of_readsBack hm h

section
variable (x : Binary64)

theorem sign_ne_plus : x.sign ≠ some .plus := by
  unfold sign
  split <;> nofun

/-- Only a number with digits is written with an exponent, zero is not. -/
theorem jsonNumeral_cases : ∃ d : Decimal,
    (d.coefficient ≠ 0 ∨ d = ⟨0, 0⟩) ∧ x.jsonNumeral = d.pointed x.sign ∨
      d.coefficient ≠ 0 ∧ x.jsonNumeral = d.scientific x.sign := by
  have hc := coefficient_shortest .even x.magnitude
  unfold jsonNumeral
  generalize shortest .even x.magnitude = d at hc
  refine ⟨d, ?_⟩
  by_cases hl : -5 ≤ d.leading ∧ d.leading ≤ 15
  · left
    exact ⟨hc, if_pos hl⟩
  · right
    rcases hc with hc | rfl
    · exact ⟨hc, if_neg hl⟩
    · exact absurd (by decide) hl

theorem isProper_jsonNumeral : x.jsonNumeral.IsProper := by
  obtain ⟨d, ⟨-, h⟩ | ⟨hc, h⟩⟩ := x.jsonNumeral_cases
  · rw [h]
    exact d.isProper_pointed x.sign
  · rw [h]
    exact d.isProper_scientific x.sign hc

theorem isNumber_jsonNumeral : Json.isNumber x.jsonNumeral = true := by
  obtain ⟨d, ⟨hc, h⟩ | ⟨hc, h⟩⟩ := x.jsonNumeral_cases
  · rw [h]
    exact d.isNumber_pointed x.sign_ne_plus hc
  · rw [h]
    exact d.isNumber_scientific x.sign_ne_plus hc

theorem isInteger_jsonNumeral : x.jsonNumeral.isInteger = false := by
  obtain ⟨d, ⟨-, h⟩ | ⟨-, h⟩⟩ := x.jsonNumeral_cases
  · rw [h]
    rfl
  · rw [h]
    simp [Decimal.scientific, Numeral.isInteger]

end

end Binary64

/-! ## Values -/

namespace Json.Node

theorem isPlain_number {n : Numeral} (hn : n.IsProper) (hj : isNumber n = true) : (number n).IsPlain := by
  rw [IsPlain, tokens]
  exact List.forall_mem_singleton.2 ⟨hn, hj⟩

theorem isPlain_integer (n : Int64) : (integer n).IsPlain :=
  isPlain_number (Numeral.isProper_ofInt n.toInt) (Numeral.isNumber_ofInt n.toInt)

end Json.Node

end SearchFilter
