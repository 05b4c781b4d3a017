import Mathlib.Order.Monotone.Basic
import Mathlib.Tactic.Ring
import SearchFilter.Number.Binary64

/-!
# Rounding

Rounding a quotient gives the floating point number nearest to it, of two that are equally near
the even one. Infinity takes part as the power of two that would come next (`isNearest_nearest`),
and no other number is nearest (`IsNearest.unique`).
-/

namespace SearchFilter

namespace Binary64

theorem octave_pos : 0 < octave := by decide

/-! ## The numbers in order -/

theorem units_of_lt {m : Nat} (h : m < octave) : units m = m :=
  if_pos h

theorem units_normal (e : Nat) {f : Nat} (h : f < octave) : units ((e + 1) * octave + f) = (octave + f) * 2 ^ e := by
  have hle : ¬ (e + 1) * octave + f < octave := by
    rw [Nat.succ_mul]
    omega
  have hdiv : ((e + 1) * octave + f) / octave = e + 1 := by
    rw [Nat.add_comm, Nat.add_mul_div_right _ _ octave_pos, Nat.div_eq_of_lt h, Nat.zero_add]
  have hmod : ((e + 1) * octave + f) % octave = f := by
    rw [Nat.add_comm, Nat.add_mul_mod_self_right, Nat.mod_eq_of_lt h]
  rw [units, if_neg hle, hdiv, hmod]
  rfl

theorem exists_normal {m : Nat} (h : octave ≤ m) : ∃ e f, m = (e + 1) * octave + f ∧ f < octave := by
  refine ⟨m / octave - 1, m % octave, ?_, Nat.mod_lt _ octave_pos⟩
  have hdiv : 1 ≤ m / octave := (Nat.one_le_div_iff octave_pos).2 h
  rw [Nat.sub_add_cancel hdiv, Nat.mul_comm]
  exact (Nat.div_add_mod m octave).symm

theorem units_lt_units_succ (m : Nat) : units m < units (m + 1) := by
  have hfirst : units octave = octave := by
    have h := units_normal 0 octave_pos
    rwa [Nat.zero_add, Nat.one_mul, Nat.add_zero, pow_zero, Nat.mul_one] at h
  rcases Nat.lt_or_ge m octave with hm | hm
  · rw [units_of_lt hm]
    rcases Nat.lt_or_ge (m + 1) octave with hs | hs
    · rw [units_of_lt hs]
      exact Nat.lt_succ_self m
    · have hs' : m + 1 = octave := by omega
      rw [hs', hfirst]
      exact hm
  · obtain ⟨e, f, rfl, hf⟩ := exists_normal hm
    have hp : 0 < 2 ^ e := Nat.two_pow_pos e
    rw [units_normal e hf]
    rcases Nat.lt_or_ge (f + 1) octave with hs | hs
    · rw [Nat.add_assoc, units_normal e hs]
      exact Nat.mul_lt_mul_of_pos_right (by omega) hp
    · -- the next number is a power of two
      have hnext : (e + 1) * octave + f + 1 = (e + 1 + 1) * octave + 0 := by
        rw [Nat.succ_mul (e + 1)]
        omega
      rw [hnext, units_normal (e + 1) octave_pos, pow_succ, ← Nat.mul_assoc, Nat.mul_right_comm]
      exact Nat.mul_lt_mul_of_pos_right (by omega) hp

theorem units_strictMono : StrictMono units :=
  strictMono_nat_of_lt_succ units_lt_units_succ

/-- The numbers from `shift` octaves on are `2 ^ shift` apart. -/
theorem units_shift {shift k : Nat} (h : shift = 0 ∨ octave ≤ k) (hk : k ≤ 2 * octave) :
    units (shift * octave + k) = k * 2 ^ shift := by
  rcases Nat.lt_or_ge k octave with hlt | hge
  · obtain rfl : shift = 0 := h.resolve_right (Nat.not_le.2 hlt)
    rw [Nat.zero_mul, Nat.zero_add, units_of_lt hlt, pow_zero, Nat.mul_one]
  · obtain ⟨f, rfl⟩ := Nat.exists_eq_add_of_le hge
    rcases Nat.lt_or_ge f octave with hf | hf
    · rw [← units_normal shift hf, Nat.succ_mul, Nat.add_assoc]
    · obtain rfl : f = octave := by omega
      have hnext : shift * octave + (octave + octave) = (shift + 1 + 1) * octave + 0 := by
        rw [Nat.succ_mul, Nat.succ_mul]
        omega
      rw [hnext, units_normal (shift + 1) octave_pos, pow_succ]
      ring

/-! ## The nearest integer -/

def gap (m n : Nat) : Nat := ((m : Int) - n).natAbs

/-- No multiple of `den` is nearer to `num` than that by the rounded quotient, and if another one is
as near, the rounded quotient is even. -/
theorem gap_roundDiv (num : Nat) {den : Nat} (hd : 0 < den) (a : Nat) :
    gap (roundDiv num den * den) num ≤ gap (a * den) num ∧
      (a ≠ roundDiv num den → gap (a * den) num = gap (roundDiv num den * den) num → roundDiv num den % 2 = 0) := by
  have hdiv : den * (num / den) + num % den = num := Nat.div_add_mod num den
  have hmod : num % den < den := Nat.mod_lt num hd
  unfold roundDiv gap
  generalize num / den = q at hdiv ⊢
  generalize num % den = r at hdiv hmod ⊢
  rw [Nat.mul_comm] at hdiv
  have hsucc : (q + 1) * den = q * den + den := Nat.succ_mul q den
  -- where the multiples of the other integers are
  have hbelow : a < q → a * den + den ≤ q * den := fun h => Nat.succ_mul a den ▸ Nat.mul_le_mul_right den h
  have habove : q + 1 < a → q * den + den + den ≤ a * den := by
    intro h
    rw [← hsucc, ← Nat.succ_mul]
    exact Nat.mul_le_mul_right den h
  have heq : a = q → a * den = q * den := fun h => by rw [h]
  have heq' : a = q + 1 → a * den = q * den + den := fun h => by rw [h, hsucc]
  dsimp only
  split
  · omega
  · rw [hsucc]
    omega

theorem div_le_roundDiv (num den : Nat) : num / den ≤ roundDiv num den ∧ roundDiv num den ≤ num / den + 1 := by
  unfold roundDiv
  dsimp only
  split <;> omega

/-! ## The nearest number -/

/-- How far the number is from `num / den` units, in parts of which a unit has `den`. -/
def distance (num den m : Nat) : Nat := gap (units m * den) num

/-- The number is nearest to `num / den` units, and even if another one is as near. Infinity counts
as the power of two behind the largest finite number. -/
structure IsNearest (num den m : Nat) : Prop where
  le_infinity : m ≤ infinity
  distance_le : ∀ k ≤ infinity, distance num den m ≤ distance num den k
  even : ∀ k ≤ infinity, k ≠ m → distance num den k = distance num den m → m % 2 = 0

/-- How many of its lowest bits the quotient loses. -/
def lost (num den : Nat) : Nat := (num / den).log2 - 52

def unbounded (num den : Nat) : Nat :=
  lost num den * octave + roundDiv num (den * 2 ^ lost num den)

theorem nearest_eq_min (num den : Nat) : nearest num den = min (unbounded num den) infinity := rfl

section
variable {num den : Nat}

/-- The quotient is below the next power of two. -/
theorem div_lt_of_lost_le {shift : Nat} (h : lost num den ≤ shift) :
    num / (den * 2 ^ shift) < 2 * octave := by
  have hlog : num / den < 2 ^ ((num / den).log2 + 1) := Nat.lt_log2_self
  have hpow : 2 ^ ((num / den).log2 + 1) ≤ 2 ^ (53 + shift) :=
    Nat.pow_le_pow_right (by decide) (by unfold lost at h; omega)
  have hoctave : 2 ^ (53 + shift) = 2 * octave * 2 ^ shift := Nat.pow_add 2 53 shift
  rw [hoctave] at hpow
  rw [← Nat.div_div_eq_div_mul, Nat.div_lt_iff_lt_mul (Nat.two_pow_pos shift)]
  exact Nat.lt_of_lt_of_le hlog hpow

theorem octave_le_div (h : lost num den ≠ 0) : octave ≤ num / (den * 2 ^ lost num den) := by
  have hne : num / den ≠ 0 := by
    intro hz
    rw [lost, hz] at h
    exact h rfl
  have hlog : 2 ^ (num / den).log2 ≤ num / den := Nat.log2_self_le hne
  have hsum : (num / den).log2 = 52 + lost num den := by
    unfold lost at h ⊢
    omega
  rw [hsum, Nat.pow_add] at hlog
  rw [← Nat.div_div_eq_div_mul, Nat.le_div_iff_mul_le (Nat.two_pow_pos _)]
  exact hlog

theorem distance_eq {m a e : Nat} (h : units m = a * 2 ^ e) : distance num den m = gap (a * (den * 2 ^ e)) num := by
  rw [distance, h, Nat.mul_assoc, Nat.mul_comm (2 ^ e)]

theorem units_unbounded :
    units (unbounded num den) = roundDiv num (den * 2 ^ lost num den) * 2 ^ lost num den := by
  have hlt := @div_lt_of_lost_le num den _ (Nat.le_refl _)
  obtain ⟨hle, hge⟩ := div_le_roundDiv num (den * 2 ^ lost num den)
  refine units_shift ?_ (by omega)
  by_cases h : lost num den = 0
  · exact Or.inl h
  · have := octave_le_div h
    exact Or.inr (by omega)

/-- The number is among those that are as far apart as the nearest one from its neighbours, or it is
below them all. -/
theorem exists_units_eq_or_lt (shift j : Nat) :
    (∃ a, units j = a * 2 ^ shift) ∨ shift ≠ 0 ∧ units j < octave * 2 ^ shift := by
  by_cases hs : shift = 0
  · exact Or.inl ⟨units j, by rw [hs, pow_zero, Nat.mul_one]⟩
  · rcases Nat.lt_or_ge j ((shift + 1) * octave) with hj | hj
    · have hfirst := units_normal shift octave_pos
      simp only [Nat.add_zero] at hfirst
      rw [← hfirst]
      exact Or.inr ⟨hs, units_strictMono hj⟩
    · have hoctave : octave ≤ j := Nat.le_trans (Nat.le_mul_of_pos_left octave (Nat.succ_pos shift)) hj
      obtain ⟨e, f, rfl, hf⟩ := exists_normal hoctave
      have he : shift ≤ e := by
        refine Nat.le_of_not_lt fun hlt => ?_
        have hmul : (e + 1 + 1) * octave ≤ (shift + 1) * octave := Nat.mul_le_mul_right octave (by omega)
        rw [Nat.succ_mul] at hmul
        omega
      obtain ⟨i, rfl⟩ := Nat.exists_eq_add_of_le he
      exact Or.inl ⟨(octave + f) * 2 ^ i, by rw [units_normal _ hf, pow_add]; ring⟩

theorem distance_unbounded (hd : 0 < den) (j : Nat) :
    distance num den (unbounded num den) ≤ distance num den j ∧
      (j ≠ unbounded num den → distance num den j = distance num den (unbounded num den) →
        unbounded num den % 2 = 0) := by
  have hD : 0 < den * 2 ^ lost num den := Nat.mul_pos hd (Nat.two_pow_pos _)
  have hunits := @units_unbounded num den
  rw [distance_eq hunits]
  rcases exists_units_eq_or_lt (lost num den) j with ⟨a, ha⟩ | ⟨hs, hlt⟩
  · rw [distance_eq ha]
    obtain ⟨hle, heven⟩ := gap_roundDiv num hD a
    refine ⟨hle, fun hne heq => ?_⟩
    have hane : a ≠ roundDiv num (den * 2 ^ lost num den) := by
      rintro rfl
      exact hne (units_strictMono.injective (ha.trans hunits.symm))
    have hoctave : octave % 2 = 0 := by decide
    rw [unbounded, Nat.add_mod, Nat.mul_mod, hoctave, heven hane heq, Nat.mul_zero]
  · -- a number below is farther than the first of those above, which is no nearer
    have hfirst : octave * (den * 2 ^ lost num den) ≤ num :=
      (Nat.le_div_iff_mul_le hD).1 (octave_le_div hs)
    have hbelow : units j * den < octave * (den * 2 ^ lost num den) := by
      rw [Nat.mul_left_comm, Nat.mul_comm den]
      exact Nat.mul_lt_mul_of_pos_right hlt hd
    have hstrict : gap (octave * (den * 2 ^ lost num den)) num < distance num den j := by
      unfold distance gap
      omega
    have hle := (gap_roundDiv num hD octave).1
    exact ⟨by omega, fun _ heq => by omega⟩

theorem units_two_octaves (n : Nat) : units (n * octave + 2 * octave) = 2 * octave * 2 ^ n :=
  units_shift (Or.inr (Nat.le_mul_of_pos_left octave (by decide))) (Nat.le_refl _)

theorem exists_infinity_eq : ∃ n, n = 2045 ∧ infinity = n * octave + 2 * octave := ⟨_, rfl, by decide⟩

/-- What rounds to more than infinity is at least what infinity stands for. -/
theorem units_infinity_mul_le (hd : 0 < den) (h : infinity < unbounded num den) : units infinity * den ≤ num := by
  obtain ⟨n, -, hn⟩ := exists_infinity_eq
  have hlost : n < lost num den := by
    refine Nat.lt_of_not_le fun hle => ?_
    have hlt := @div_lt_of_lost_le num den _ (Nat.le_refl _)
    have hround := (div_le_roundDiv num (den * 2 ^ lost num den)).2
    have hmul : lost num den * octave ≤ n * octave := Nat.mul_le_mul_right octave hle
    unfold unbounded at h
    omega
  have hunits : units infinity = 2 * octave * 2 ^ n := hn ▸ units_two_octaves n
  have hpow : 2 ^ (n + 1) ≤ 2 ^ lost num den := Nat.pow_le_pow_right (by decide) hlost
  have hbound : octave * (den * 2 ^ lost num den) ≤ num :=
    (Nat.le_div_iff_mul_le (Nat.mul_pos hd (Nat.two_pow_pos _))).1 (octave_le_div (by omega))
  calc units infinity * den = octave * (den * 2 ^ (n + 1)) := by rw [hunits, pow_succ]; ring
    _ ≤ octave * (den * 2 ^ lost num den) := Nat.mul_le_mul_left _ (Nat.mul_le_mul_left _ hpow)
    _ ≤ num := hbound

/-- Infinity is nearest from half the way on between the largest finite number and what it stands for. -/
theorem isNearest_infinity_iff (hd : 0 < den) :
    IsNearest num den infinity ↔ (units (infinity - 1) + units infinity) * den ≤ 2 * num := by
  have hlast : units (infinity - 1) < units infinity := units_strictMono (by decide)
  have hmul := Nat.mul_lt_mul_of_pos_right hlast hd
  rw [Nat.add_mul]
  constructor
  · intro h
    have hdist := h.distance_le (infinity - 1) (Nat.sub_le _ _)
    unfold distance gap at hdist
    omega
  · intro h
    refine ⟨Nat.le_refl _, fun k hk => ?_, fun _ _ _ _ => by decide⟩
    rcases Nat.lt_or_eq_of_le hk with hlt | rfl
    · have hbelow := Nat.mul_le_mul_right den (units_strictMono.monotone (Nat.le_sub_one_of_lt hlt))
      unfold distance gap
      omega
    · exact Nat.le_refl _

theorem isNearest_infinity (hd : 0 < den) (h : units infinity * den ≤ num) : IsNearest num den infinity := by
  have hlast : units (infinity - 1) ≤ units infinity := units_strictMono.monotone (Nat.sub_le _ _)
  rw [isNearest_infinity_iff hd, Nat.add_mul, Nat.two_mul]
  exact Nat.add_le_add (Nat.le_trans (Nat.mul_le_mul_right den hlast) h) h

theorem isNearest_zero (h : 2 * num < den) : IsNearest num den 0 := by
  have hzero : units 0 = 0 := units_of_lt octave_pos
  have hpos : ∀ k, k ≠ 0 → den ≤ units k * den := by
    intro k hk
    have hlt := units_strictMono (Nat.pos_of_ne_zero hk)
    exact Nat.le_mul_of_pos_left den (by omega)
  refine ⟨Nat.zero_le _, fun k _ => ?_, fun _ _ _ _ => rfl⟩
  by_cases hk : k = 0
  · rw [hk]
  · have := hpos k hk
    unfold distance gap
    rw [hzero]
    omega

/-- Rounding finds the nearest number. -/
theorem isNearest_nearest (num : Nat) (hd : 0 < den) : IsNearest num den (nearest num den) := by
  rw [nearest_eq_min]
  rcases Nat.lt_or_ge infinity (unbounded num den) with h | h
  · rw [Nat.min_eq_right (Nat.le_of_lt h)]
    exact isNearest_infinity hd (units_infinity_mul_le hd h)
  · rw [Nat.min_eq_left h]
    exact ⟨h, fun k _ => (distance_unbounded hd k).1, fun k _ => (distance_unbounded hd k).2⟩

theorem IsNearest.not_lt {m k : Nat} (hd : 0 < den) (hm : IsNearest num den m) (hk : IsNearest num den k) : ¬ m < k := by
  intro hlt
  have heq : distance num den k = distance num den m :=
    Nat.le_antisymm (hk.distance_le m hm.le_infinity) (hm.distance_le k hk.le_infinity)
  have hmeven := hm.even k hk.le_infinity (by omega) heq
  have hkeven := hk.even m hm.le_infinity (by omega) heq.symm
  -- the number in between is nearer
  have hbetween := hm.distance_le (m + 1) (by have := hk.le_infinity; omega)
  have hlow := Nat.mul_lt_mul_of_pos_right (units_strictMono (Nat.lt_add_one m)) hd
  have hhigh := Nat.mul_lt_mul_of_pos_right (units_strictMono (show m + 1 < k by omega)) hd
  unfold distance gap at heq hbetween
  omega

theorem IsNearest.unique {m k : Nat} (hd : 0 < den) (hm : IsNearest num den m) (hk : IsNearest num den k) : m = k :=
  Nat.le_antisymm (Nat.le_of_not_lt (hk.not_lt hd hm)) (Nat.le_of_not_lt (hm.not_lt hd hk))

/-- A quotient that is at least a number is not rounded below it. -/
theorem IsNearest.le {m k : Nat} (h : IsNearest num den m) (hk : k ≤ infinity) (hd : 0 < den)
    (hle : units k * den ≤ num) : k ≤ m := by
  refine Nat.le_of_not_lt fun hlt => ?_
  have hmul := Nat.mul_lt_mul_of_pos_right (units_strictMono hlt) hd
  have hdist := h.distance_le k hk
  unfold distance gap at hdist
  omega

end

end Binary64

/-! ## Decimals -/

namespace Decimal

/-- The numerator of a decimal in units of `2 ^ -1074`. -/
def numerator (d : Decimal) : Nat := d.coefficient * 10 ^ d.exponent.toNat * Binary64.one

def denominator (d : Decimal) : Nat := 10 ^ (-d.exponent).toNat

theorem denominator_pos (d : Decimal) : 0 < d.denominator := Nat.pow_pos (by decide)

end Decimal

namespace Binary64

/-- Powers this large are not to be computed in a proof. -/
theorem exists_one_eq : ∃ n, n = 1074 ∧ one = 2 ^ n := by
  unfold one
  generalize 1074 = n
  exact ⟨n, rfl, rfl⟩

theorem one_pos : 0 < one := by
  obtain ⟨n, -, hone⟩ := exists_one_eq
  rw [hone]
  exact Nat.two_pow_pos n

theorem units_power (e : Nat) : units ((e + 1023) * octave) = 2 ^ e * one := by
  obtain ⟨n, hn, hone⟩ := exists_one_eq
  have hpow : octave * 2 ^ (e + 1022) = 2 ^ (52 + (e + 1022)) := (Nat.pow_add 2 52 (e + 1022)).symm
  have hexponent : 52 + (e + 1022) = e + n := by omega
  have hunits := @units_shift (e + 1022) octave (Or.inr (Nat.le_refl octave)) (Nat.le_mul_of_pos_left octave (by decide))
  rw [Nat.succ_mul (e + 1022), hunits, hpow, hexponent, hone, pow_add]

theorem exists_units_infinity_eq : ∃ n, n = 1024 ∧ units infinity = 2 ^ n * one := by
  obtain ⟨n, hn⟩ : ∃ n, n = 1024 := ⟨_, rfl⟩
  have hinfinity : infinity = (n + 1023) * octave := by
    rw [hn]
    decide
  exact ⟨n, hn, (congrArg units hinfinity).trans (units_power n)⟩

/-- From this power of ten on, all is infinite. -/
theorem units_infinity_le {coefficient up : Nat} (hc : coefficient ≠ 0) (h : 309 ≤ up) :
    units infinity ≤ coefficient * 10 ^ up * one := by
  obtain ⟨n, hn, hunits⟩ := exists_units_infinity_eq
  obtain ⟨k, hk⟩ : ∃ k, k = 11 := ⟨11, rfl⟩
  have hpow : 2 ^ n ≤ 10 ^ up := by
    calc 2 ^ n ≤ 2 ^ (93 * k + 3) := Nat.pow_le_pow_right (by decide) (by omega)
      _ = (2 ^ 93) ^ k * 2 ^ 3 := by rw [pow_add, pow_mul]
      _ ≤ (10 ^ 28) ^ k * 10 := Nat.mul_le_mul (Nat.pow_le_pow_left (by decide) k) (by decide)
      _ = 10 ^ (28 * k + 1) := by rw [pow_add, pow_mul, pow_one]
      _ ≤ 10 ^ up := Nat.pow_le_pow_right (by decide) (by omega)
  rw [hunits]
  exact Nat.mul_le_mul_right one (Nat.le_trans hpow (Nat.le_mul_of_pos_left _ (Nat.pos_of_ne_zero hc)))

/-- Below this power of ten, all is zero. -/
theorem two_mul_lt_pow {coefficient down : Nat} (h : coefficient.log2 + 1100 ≤ down) :
    2 * (coefficient * one) < 10 ^ down := by
  obtain ⟨n, hn, hone⟩ := exists_one_eq
  have hlog : coefficient < 2 ^ (coefficient.log2 + 1) := Nat.lt_log2_self
  rw [hone]
  calc 2 * (coefficient * 2 ^ n) < 2 * (2 ^ (coefficient.log2 + 1) * 2 ^ n) :=
        Nat.mul_lt_mul_of_pos_left (Nat.mul_lt_mul_of_pos_right hlog (Nat.two_pow_pos n)) (by decide)
    _ = 2 ^ (coefficient.log2 + 2 + n) := by ring
    _ ≤ 2 ^ down := Nat.pow_le_pow_right (by decide) (by omega)
    _ ≤ 10 ^ down := Nat.pow_le_pow_left (by decide) down

theorem nearest_eq_infinity {num den : Nat} (hd : 0 < den) (h : units infinity * den ≤ num) :
    nearest num den = infinity :=
  (isNearest_nearest num hd).unique hd (isNearest_infinity hd h)

theorem nearest_eq_zero {num den : Nat} (h : 2 * num < den) : nearest num den = 0 :=
  have hd : 0 < den := Nat.zero_lt_of_lt h
  (isNearest_nearest num hd).unique hd (isNearest_zero h)

/-- A positive exponent may be cut off where all is infinite. -/
theorem isNearest_cut_up (coefficient up : Nat) {most : Nat} (h : 309 ≤ most) :
    IsNearest (coefficient * 10 ^ up * one) 1 (nearest (coefficient * 10 ^ min up most * one) 1) := by
  rcases Nat.lt_or_ge most up with hup | hup
  · rw [Nat.min_eq_right (Nat.le_of_lt hup)]
    by_cases hc : coefficient = 0
    · simp only [hc, Nat.zero_mul]
      exact isNearest_nearest 0 Nat.one_pos
    · rw [nearest_eq_infinity Nat.one_pos (by rw [Nat.mul_one]; exact units_infinity_le hc h)]
      refine isNearest_infinity Nat.one_pos ?_
      rw [Nat.mul_one]
      exact units_infinity_le hc (by omega)
  · rw [Nat.min_eq_left hup]
    exact isNearest_nearest _ Nat.one_pos

/-- A negative exponent may be cut off where all is zero. -/
theorem isNearest_cut_down (coefficient down : Nat) {most : Nat} (h : coefficient.log2 + 1100 ≤ most) :
    IsNearest (coefficient * one) (10 ^ down) (nearest (coefficient * one) (10 ^ min down most)) := by
  rcases Nat.lt_or_ge most down with hdown | hdown
  · rw [Nat.min_eq_right (Nat.le_of_lt hdown), nearest_eq_zero (two_mul_lt_pow h)]
    exact isNearest_zero (two_mul_lt_pow (by omega))
  · rw [Nat.min_eq_left hdown]
    exact isNearest_nearest _ (Nat.pow_pos (by decide))

theorem isNearest_ofDecimal (negative : Bool) (d : Decimal) :
    IsNearest d.numerator d.denominator (ofDecimal negative d).magnitude := by
  have hup := isNearest_cut_up d.coefficient d.exponent.toNat (Nat.le_refl 309)
  have hdown := isNearest_cut_down d.coefficient (-d.exponent).toNat (Nat.le_refl _)
  show IsNearest (d.coefficient * 10 ^ d.exponent.toNat * one) (10 ^ (-d.exponent).toNat)
    (nearest (d.coefficient * 10 ^ min d.exponent.toNat 309 * one)
      (10 ^ min (-d.exponent).toNat (d.coefficient.log2 + 1100)))
  rcases Int.le_total 0 d.exponent with h | h
  · have hz : (-d.exponent).toNat = 0 := by omega
    rw [hz, Nat.zero_min, pow_zero]
    exact hup
  · have hz : d.exponent.toNat = 0 := by omega
    have hnum : d.coefficient * 10 ^ 0 * one = d.coefficient * one :=
      congrArg (· * one) (Nat.mul_one d.coefficient)
    rw [hz, Nat.zero_min, hnum]
    exact hdown

/-- A decimal is read as infinite from half the way on behind the largest finite number. -/
theorem ofDecimal_eq_infinite_iff (negative : Bool) (d : Decimal) :
    ofDecimal negative d = infinite negative ↔
      (units (infinity - 1) + units infinity) * d.denominator ≤ 2 * d.numerator := by
  have hd := d.denominator_pos
  have hnearest := isNearest_ofDecimal negative d
  rw [← isNearest_infinity_iff hd]
  constructor
  · intro h
    rwa [h] at hnearest
  · intro h
    exact congrArg (Binary64.mk negative) (Fin.ext (hnearest.unique hd h))

end Binary64

/-! ## Numerals -/

structure Numeral.RoundsTo (n : Numeral) (x : Binary64) : Prop where
  negative : x.negative = n.isNegative
  isNearest : Binary64.IsNearest n.magnitude.numerator n.magnitude.denominator x.magnitude

theorem Numeral.roundsTo_iff (n : Numeral) (x : Binary64) : n.RoundsTo x ↔ x = n.toBinary64 := by
  have hd := n.magnitude.denominator_pos
  have hnearest := Binary64.isNearest_ofDecimal n.isNegative n.magnitude
  constructor
  · rintro ⟨hs, hm⟩
    have hmagnitude := Fin.ext (hm.unique hd hnearest)
    cases x
    cases hs
    cases hmagnitude
    rfl
  · rintro rfl
    exact ⟨rfl, hnearest⟩

end SearchFilter
