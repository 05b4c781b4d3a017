import SearchFilter.Proofs.Number.Longest
import SearchFilter.Proofs.Number.Rounding
import SearchFilter.Value.Integer

/-!
# Texts as integers

A text counts as the longest numeral behind its gaps: exactly, if it is written as an integer,
otherwise as the integer part of the nearest number. What exceeds 64 bits counts as the nearest
integer that does not.
-/

namespace SearchFilter

def clamp (i : Int) : Int :=
  max Int64.minValue.toInt (min i Int64.maxValue.toInt)

theorem toInt_ofIntClamp (i : Int) : (Int64.ofIntClamp i).toInt = clamp i := by
  have hle : Int64.minValue.toInt ≤ Int64.maxValue.toInt := by decide
  unfold clamp Int64.ofIntClamp
  split
  · split
    · rw [Int64.toInt_ofIntLE]
      omega
    · omega
  · omega

namespace Binary64

/-- Of the integers between zero and the number, the one farthest from zero. -/
structure CutTo (x : Binary64) (i : Int) : Prop where
  le : i.natAbs * one ≤ units x.magnitude
  lt : units x.magnitude < (i.natAbs + 1) * one
  negative : i < 0 → x.negative = true
  positive : 0 < i → x.negative = false

theorem cutTo_iff {x : Binary64} (h : x.isFinite = true) (i : Int) : x.CutTo i ↔ i = x.truncate := by
  have htruncate : x.truncate =
      if x.negative then -((units x.magnitude / one : Nat) : Int) else (units x.magnitude / one : Nat) := if_pos h
  have hquotient : i.natAbs * one ≤ units x.magnitude ∧ units x.magnitude < (i.natAbs + 1) * one ↔
      i.natAbs = units x.magnitude / one := by
    rw [← Nat.le_div_iff_mul_le one_pos, ← Nat.div_lt_iff_lt_mul one_pos]
    omega
  rw [htruncate]
  generalize units x.magnitude / one = q at hquotient
  constructor
  · rintro ⟨hle, hlt, hneg, hpos⟩
    have hq := hquotient.1 ⟨hle, hlt⟩
    cases hn : x.negative
    · have hge : ¬ i < 0 := fun hi => by rw [hneg hi] at hn; cases hn
      simp only [Bool.false_eq_true, if_false]
      omega
    · have hle : ¬ 0 < i := fun hi => by rw [hpos hi] at hn; cases hn
      simp only [if_true]
      omega
  · intro hi
    obtain ⟨hle, hlt⟩ := hquotient.2 (by rw [hi]; split <;> omega)
    refine ⟨hle, hlt, ?_, ?_⟩
    · intro hneg
      by_contra hn
      rw [if_neg hn] at hi
      omega
    · intro hpos
      by_contra hn
      rw [if_pos (Bool.eq_true_of_not_eq_false hn)] at hi
      omega

end Binary64

inductive CountsAs (cs : List Char) : Int → Prop
  | nothing (h : ∀ n : Numeral, n.IsProper → ¬ n.text <+: cs) : CountsAs cs 0
  | integer {n : Numeral} (h : n.IsLongest cs) (hi : n.fraction = none ∧ n.exponent = none) :
      CountsAs cs (clamp n.integer)
  | infinite {n : Numeral} {x : Binary64} (h : n.IsLongest cs) (hi : ¬ (n.fraction = none ∧ n.exponent = none))
      (hx : n.RoundsTo x) (hf : x.isFinite = false) : CountsAs cs 0
  | finite {n : Numeral} {x : Binary64} {i : Int} (h : n.IsLongest cs)
      (hi : ¬ (n.fraction = none ∧ n.exponent = none)) (hx : n.RoundsTo x) (hf : x.isFinite = true) (hc : x.CutTo i) :
      CountsAs cs (clamp i)

theorem Numeral.isInteger_iff (n : Numeral) : n.isInteger = true ↔ n.fraction = none ∧ n.exponent = none := by
  simp [Numeral.isInteger]

section
variable {n : Numeral}

theorem toInt_toInt64_of_integer (hi : n.fraction = none ∧ n.exponent = none) : n.toInt64.toInt = clamp n.integer := by
  rw [Numeral.toInt64, if_pos (n.isInteger_iff.2 hi), toInt_ofIntClamp]

theorem toInt_toInt64_of_not_integer (hi : ¬ (n.fraction = none ∧ n.exponent = none)) :
    n.toInt64.toInt = clamp n.toBinary64.truncate := by
  rw [Numeral.toInt64, if_neg fun h => hi (n.isInteger_iff.1 h), toInt_ofIntClamp]

theorem Binary64.truncate_of_infinite {x : Binary64} (h : x.isFinite = false) : x.truncate = 0 :=
  if_neg (by rw [h]; exact Bool.false_ne_true)

theorem clamp_zero : clamp 0 = 0 := by decide

variable (cs : List Char)

theorem CountsAs.toInt_eq {i : Int} (h : CountsAs (cs.dropWhile isGap) i) : (leadingInteger cs).toInt = i := by
  cases h with
  | nothing h =>
    rw [leadingInteger, Numeral.scan?_eq_none_iff.2 h]
    rfl
  | integer h hi =>
    obtain ⟨rest, hs⟩ := h.scan?
    rw [leadingInteger, hs]
    exact toInt_toInt64_of_integer hi
  | infinite h hi hx hf =>
    obtain ⟨rest, hs⟩ := h.scan?
    rw [leadingInteger, hs]
    obtain rfl := (Numeral.roundsTo_iff _ _).1 hx
    rw [toInt_toInt64_of_not_integer hi, Binary64.truncate_of_infinite hf, clamp_zero]
  | finite h hi hx hf hc =>
    obtain ⟨rest, hs⟩ := h.scan?
    rw [leadingInteger, hs]
    obtain rfl := (Numeral.roundsTo_iff _ _).1 hx
    obtain rfl := (Binary64.cutTo_iff hf _).1 hc
    exact toInt_toInt64_of_not_integer hi

theorem exists_countsAs : ∃ i, CountsAs cs i := by
  cases hs : Numeral.scan? cs with
  | none => exact ⟨0, .nothing (Numeral.scan?_eq_none_iff.1 hs)⟩
  | some found =>
    have hlongest := Numeral.isLongest_of_scan? hs
    have hround := (Numeral.roundsTo_iff found.1 _).2 rfl
    by_cases hi : found.1.fraction = none ∧ found.1.exponent = none
    · exact ⟨_, .integer hlongest hi⟩
    · cases hf : found.1.toBinary64.isFinite with
      | false => exact ⟨0, .infinite hlongest hi hround hf⟩
      | true => exact ⟨_, .finite hlongest hi hround hf ((Binary64.cutTo_iff hf _).2 rfl)⟩

theorem toInt_leadingInteger_iff (i : Int) : (leadingInteger cs).toInt = i ↔ CountsAs (cs.dropWhile isGap) i := by
  constructor
  · rintro rfl
    obtain ⟨i, hi⟩ := exists_countsAs (cs.dropWhile isGap)
    rw [hi.toInt_eq]
    exact hi
  · exact CountsAs.toInt_eq cs

end

/-! ## Numerals behind gaps -/

theorem not_isDigit_of_isGap {c : Char} (h : isGap c = true) : c.isDigit = false := by
  simp only [isGap, Bool.or_eq_true, decide_eq_true_eq] at h
  rcases h with ((((rfl | rfl) | rfl) | rfl) | rfl) | rfl <;> rfl

theorem isGap_head?_text {n : Numeral} (hn : n.IsProper) (rest : List Char) :
    ∀ c ∈ (n.text ++ rest).head?, isGap c = false := by
  intro c hc
  simp only [Numeral.text, List.append_assoc] at hc
  cases hs : n.sign with
  | some s =>
    rw [hs] at hc
    obtain rfl : s.char = c := by simpa [Numeral.signText] using hc
    cases s <;> rfl
  | none =>
    rw [hs] at hc
    by_cases hw : n.whole = []
    · obtain ⟨ds, hds, -⟩ := hn.hasDigit hw
      rw [hw, hds] at hc
      obtain rfl : '.' = c := by simpa [Numeral.signText, Numeral.fractionText] using hc
      rfl
    · have hdigit := Numeral.isDigit_head? hn.whole hw c hc
      by_contra hgap
      rw [not_isDigit_of_isGap (Bool.eq_true_of_not_eq_false hgap)] at hdigit
      cases hdigit

theorem dropWhile_isGap_text {n : Numeral} (hn : n.IsProper) (rest : List Char) :
    (n.text ++ rest).dropWhile isGap = n.text ++ rest := by
  have h := isGap_head?_text hn rest
  cases htext : n.text ++ rest with
  | nil => rfl
  | cons c cs =>
    rw [htext] at h
    rw [List.dropWhile_cons_of_neg]
    simp [h c rfl]

theorem clamp_toInt (n : Int64) : clamp n.toInt = n.toInt := by
  have hmin := n.minValue_le_toInt
  have hmax := n.toInt_le
  unfold clamp
  omega

/-- An integer is found again behind gaps, in front of what cannot continue it. -/
theorem leadingInteger_display (n : Int64) {gaps rest : List Char} (hg : ∀ c ∈ gaps, isGap c = true)
    (hr : ∀ c ∈ rest.head?, continuesNumeral c = false) :
    leadingInteger (gaps ++ ((Value.int n).display.toList ++ rest)) = n := by
  have hn := Numeral.isProper_ofInt n.toInt
  have htext : (Value.int n).display.toList = (Numeral.ofInt n.toInt).text := String.toList_ofList
  have hinteger : (Numeral.ofInt n.toInt).toInt64 = n := by
    refine Int64.toInt_inj.1 ?_
    rw [toInt_toInt64_of_integer ⟨rfl, rfl⟩, Numeral.integer_ofInt, clamp_toInt]
  rw [leadingInteger, List.dropWhile_append_of_pos hg, htext, dropWhile_isGap_text hn, Numeral.scan?_append hn hr]
  exact hinteger

/-- A text counts as the number it begins with. -/
theorem Value.integer_text (s : String) :
    (∀ i, (Value.text s).integer.toInt = i ↔ CountsAs (s.toList.dropWhile isGap) i) ∧
      ∀ (n : Int64) (before behind : String), (∀ c ∈ before.toList, isGap c = true) →
        (∀ c ∈ behind.toList.head?, continuesNumeral c = false) → s = before ++ (Value.int n).display ++ behind →
        (Value.text s).integer = n := by
  refine ⟨toInt_leadingInteger_iff s.toList, ?_⟩
  rintro n before behind hg hr rfl
  have htext : (before ++ (Value.int n).display ++ behind).toList =
      before.toList ++ ((Value.int n).display.toList ++ behind.toList) := by
    simp only [String.toList_append, List.append_assoc]
  rw [Value.integer, htext]
  exact leadingInteger_display n hg hr

theorem Value.integer_text_items :
    (Value.text "\t -7 items").integer = -7 ∧ CountsAs "-7 items".toList (-7) := by
  have h := Value.integer_text "\t -7 items"
  have hbehind : ∀ c ∈ " items".toList.head?, continuesNumeral c = false := by
    rintro c ⟨⟩
    rfl
  have hinteger := h.2 (-7) "\t " " items" (List.all_eq_true.1 (by decide)) hbehind (by decide)
  exact ⟨hinteger, (h.1 (-7)).1 (by rw [hinteger]; rfl)⟩

end SearchFilter
