import SearchFilter.Proofs.Number.Numeral
import SearchFilter.Proofs.Text.Offset

/-!
# Numerals by offset

Scanning once more, now over the bytes of a text from one offset to the next. It steps over signs,
digits, points and letters only, each of one byte, so it stops between two characters, whatever
follows, where scanning the characters has the rest (`numeralEnd?_bytes`).
-/

namespace SearchFilter.Numeral
open SearchFilter.Text

def isDigitByte (b : UInt8) : Bool :=
  48 ≤ b.toNat && b.toNat ≤ 57

def digitsEnd (bs : List UInt8) (i : Nat) : Nat :=
  if h : i < bs.length then
    if isDigitByte bs[i] then digitsEnd bs (i + 1) else i
  else i
termination_by bs.length - i

def signEnd (bs : List UInt8) (i : Nat) : Nat :=
  if bs[i]? = some (asciiByte '-') ∨ bs[i]? = some (asciiByte '+') then i + 1 else i

def fractionEnd? (bs : List UInt8) (hasWhole : Bool) (i : Nat) : Option Nat :=
  if bs[i]? = some (asciiByte '.') then
    let stop := digitsEnd bs (i + 1)
    if hasWhole = true ∨ i + 1 < stop then some stop else none
  else none

def exponentEnd? (bs : List UInt8) (i : Nat) : Option Nat :=
  if bs[i]? = some (asciiByte 'e') ∨ bs[i]? = some (asciiByte 'E') then
    let start := signEnd bs (i + 1)
    let stop := digitsEnd bs start
    if start < stop then some stop else none
  else none

/-- Where the numeral ends that the bytes begin with, and whether it is written as an integer. -/
def numeralEnd? (bs : List UInt8) : Option (Nat × Bool) :=
  let start := signEnd bs 0
  let whole := digitsEnd bs start
  let fraction? := fractionEnd? bs (start < whole) whole
  if start < whole ∨ fraction?.isSome then
    let stop := fraction?.getD whole
    let exponent? := exponentEnd? bs stop
    some (exponent?.getD stop, fraction?.isNone && exponent?.isNone)
  else none

/-! ## The parts of a numeral -/

theorem isAscii_of_isDigit {c : Char} (h : c.isDigit = true) : IsAscii c := by
  have hc : 48 ≤ c.toNat ∧ c.toNat ≤ 57 := Char.isDigit_iff_toNat.1 h
  show c.toNat < 128
  omega

theorem isDigitByte_asciiByte {c : Char} (h : IsAscii c) : isDigitByte (asciiByte c) = c.isDigit := by
  have hc : c.isDigit = true ↔ 48 ≤ c.toNat ∧ c.toNat ≤ 57 := Char.isDigit_iff_toNat
  rw [Bool.eq_iff_iff, hc, isDigitByte, toNat_asciiByte h, Bool.and_eq_true, decide_eq_true_iff, decide_eq_true_iff]

theorem any_isDigitByte_head? (cs : List Char) : (bytes cs).head?.any isDigitByte = cs.head?.any Char.isDigit := by
  cases cs with
  | nil => rw [bytes_nil]; rfl
  | cons c cs =>
    by_cases hc : IsAscii c
    · rw [bytes_ascii hc]
      exact isDigitByte_asciiByte hc
    · obtain ⟨b, bs, hb, hle⟩ := bytes_not_ascii hc cs
      have hdigit : c.isDigit = false := Bool.eq_false_iff.2 fun h => hc (isAscii_of_isDigit h)
      rw [hb, List.head?_cons, List.head?_cons, Option.any_some, Option.any_some, hdigit, isDigitByte]
      simp only [Bool.and_eq_false_iff, decide_eq_false_iff_not]
      omega

theorem digitsEnd_eq_ite (bs : List UInt8) (i : Nat) :
    digitsEnd bs i = if bs[i]?.any isDigitByte = true then digitsEnd bs (i + 1) else i := by
  rw [digitsEnd]
  by_cases h : i < bs.length
  · rw [dif_pos h, List.getElem?_eq_getElem h, Option.any_some]
  · rw [dif_neg h, List.getElem?_eq_none (Nat.le_of_not_lt h)]
    rfl

section
variable {cs rest : List Char} {i : Nat}

/-- At a border as many bytes are stepped over as there are digits behind it, and this leads to the next border. -/
theorem digitsEnd_bytes (h : IsBorder cs i rest) :
    digitsEnd (bytes cs) i = i + (takeDigits rest).1.length ∧
      IsBorder cs (digitsEnd (bytes cs) i) (takeDigits rest).2 := by
  -- the reader counts up to the end of the bytes, and the characters behind the offset count down with it
  induction rest generalizing i with
  | nil =>
    rw [digitsEnd_eq_ite, h.getElem?_bytes, any_isDigitByte_head?]
    exact ⟨rfl, h⟩
  | cons c rest ih =>
    rw [digitsEnd_eq_ite, h.getElem?_bytes, any_isDigitByte_head?, List.head?_cons, Option.any_some]
    cases hc : c.isDigit with
    | true =>
      obtain ⟨hlength, hborder⟩ := ih (h.next (isAscii_of_isDigit hc))
      have htake : takeDigits (c :: rest) = (c :: (takeDigits rest).1, (takeDigits rest).2) := by
        rw [takeDigits, List.takeWhile_cons_of_pos hc, List.dropWhile_cons_of_pos hc]
        rfl
      rw [if_pos rfl, htake, List.length_cons]
      exact ⟨by omega, hborder⟩
    | false =>
      have htake : takeDigits (c :: rest) = ([], c :: rest) := takeDigits_of_not_isDigit (by simpa using hc)
      rw [if_neg Bool.false_ne_true, htake]
      exact ⟨rfl, h⟩

theorem lt_digitsEnd_iff (h : IsBorder cs i rest) : i < digitsEnd (bytes cs) i ↔ (takeDigits rest).1 ≠ [] := by
  rw [(digitsEnd_bytes h).1, ← List.length_pos_iff]
  omega

theorem isBorder_signEnd (h : IsBorder cs i rest) : IsBorder cs (signEnd (bytes cs) i) (takeSign rest).2 := by
  have hminus : IsAscii '-' := by decide
  have hplus : IsAscii '+' := by decide
  simp only [signEnd, h.getElem?_bytes_eq_iff hminus, h.getElem?_bytes_eq_iff hplus]
  by_cases hm : rest.head? = some '-'
  · obtain ⟨tail, rfl⟩ := List.head?_eq_some_iff.1 hm
    rw [if_pos (Or.inl hm)]
    exact h.next hminus
  · by_cases hp : rest.head? = some '+'
    · obtain ⟨tail, rfl⟩ := List.head?_eq_some_iff.1 hp
      rw [if_pos (Or.inr hp)]
      exact h.next hplus
    · have hnone : takeSign (signText none ++ rest) = (none, rest) := takeSign_append none fun c hc =>
        ⟨fun he => hp (he ▸ hc), fun he => hm (he ▸ hc)⟩
      rw [if_neg (by simp [hm, hp]), show takeSign rest = (none, rest) from hnone]
      exact h

theorem fractionEnd?_bytes (h : IsBorder cs i rest) {whole : List Char} {hasWhole : Bool}
    (hw : hasWhole = true ↔ whole ≠ []) :
    (fractionEnd? (bytes cs) hasWhole i).isSome = (takeFraction whole rest).1.isSome ∧
      IsBorder cs ((fractionEnd? (bytes cs) hasWhole i).getD i) (takeFraction whole rest).2 := by
  have hascii : IsAscii '.' := by decide
  simp only [fractionEnd?, h.getElem?_bytes_eq_iff hascii]
  by_cases hdot : rest.head? = some '.'
  · obtain ⟨tail, rfl⟩ := List.head?_eq_some_iff.1 hdot
    have hnext := h.next hascii
    have htaken : (hasWhole = true ∨ i + 1 < digitsEnd (bytes cs) (i + 1)) ↔ ¬ (whole = [] ∧ (takeDigits tail).1 = []) := by
      rw [hw, lt_digitsEnd_iff hnext, Decidable.not_and_iff_not_or_not]
    rw [if_pos hdot, takeFraction]
    by_cases hnone : whole = [] ∧ (takeDigits tail).1 = []
    · rw [if_neg fun ht => htaken.1 ht hnone, if_pos hnone]
      exact ⟨rfl, h⟩
    · rw [if_pos (htaken.2 hnone), if_neg hnone]
      exact ⟨rfl, (digitsEnd_bytes hnext).2⟩
  · have hnone : takeFraction whole rest = (none, rest) := by
      unfold takeFraction
      split
      · exact absurd rfl hdot
      · rfl
    rw [if_neg hdot, hnone]
    exact ⟨rfl, h⟩

theorem exponentEnd?_bytes (h : IsBorder cs i rest) :
    (exponentEnd? (bytes cs) i).isSome = (takeExponent rest).1.isSome ∧
      IsBorder cs ((exponentEnd? (bytes cs) i).getD i) (takeExponent rest).2 := by
  have hlower : IsAscii 'e' := by decide
  have hupper : IsAscii 'E' := by decide
  simp only [exponentEnd?, h.getElem?_bytes_eq_iff hlower, h.getElem?_bytes_eq_iff hupper]
  cases rest with
  | nil => exact ⟨rfl, h⟩
  | cons c tail =>
    simp only [takeExponent, List.head?_cons, Option.some_inj]
    by_cases hc : c = 'e' ∨ c = 'E'
    · have hascii : IsAscii c := by rcases hc with rfl | rfl <;> decide
      have hsign := isBorder_signEnd (h.next hascii)
      have htaken := lt_digitsEnd_iff hsign
      rw [if_pos hc, if_pos hc]
      by_cases hnone : (takeDigits (takeSign tail).2).1 = []
      · rw [if_neg fun ht => htaken.1 ht hnone, if_pos hnone]
        exact ⟨rfl, h⟩
      · rw [if_pos (htaken.2 hnone), if_neg hnone]
        exact ⟨rfl, (digitsEnd_bytes hsign).2⟩
    · rw [if_neg hc, if_neg hc]
      exact ⟨rfl, h⟩

end

/-! ## Whole numerals -/

theorem length_text_of_isBorder {cs rest : List Char} {n : Numeral} {i : Nat} (hs : scan? cs = some (n, rest))
    (h : IsBorder cs i rest) : (bytes n.text).length = i := by
  obtain ⟨before, hcs, hi⟩ := h
  rw [List.append_cancel_right ((scan?_text hs).trans hcs), hi]

theorem numeralEnd?_bytes (cs : List Char) :
    numeralEnd? (bytes cs) = (scan? cs).map fun found => ((bytes found.1.text).length, found.1.isInteger) := by
  have hsign := isBorder_signEnd (isBorder_zero cs)
  have hwhole := (digitsEnd_bytes hsign).2
  have hdigits := decide_eq_true_iff.trans (lt_digitsEnd_iff hsign)
  obtain ⟨hpoint, hpointed⟩ := fractionEnd?_bytes hwhole hdigits
  obtain ⟨hpower, hpowered⟩ := exponentEnd?_bytes hpointed
  have hfound := or_congr (decide_eq_true_iff.symm.trans hdigits) (Bool.eq_iff_iff.1 hpoint)
  by_cases hnone : (takeDigits (takeSign cs).2).1 = [] ∧
      (takeFraction (takeDigits (takeSign cs).2).1 (takeDigits (takeSign cs).2).2).1 = none
  · have hscan : scan? cs = none := if_pos hnone
    have hend : numeralEnd? (bytes cs) = none := if_neg fun h => by
      rcases hfound.1 h with hdigits | hpointed
      · exact hdigits hnone.1
      · rw [hnone.2] at hpointed
        cases hpointed
    rw [hscan, hend, Option.map_none]
  · have hscan : scan? cs = some (_, _) := if_neg hnone
    have hsome := hfound.2 (by rwa [Option.isSome_iff_ne_none, ← Decidable.not_and_iff_not_or_not])
    have hend : numeralEnd? (bytes cs) = some (_, _) := if_pos hsome
    rw [hscan, hend, Option.map_some, length_text_of_isBorder hscan hpowered, isInteger, ← Option.not_isSome,
      ← Option.not_isSome, hpoint, hpower, Option.not_isSome, Option.not_isSome]

end SearchFilter.Numeral
