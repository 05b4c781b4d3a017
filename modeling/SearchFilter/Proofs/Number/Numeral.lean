import SearchFilter.Number.Int64

/-!
# Numerals read back

A numeral that is made of digits in all its parts is found again in front of any text that cannot
continue it, and scanning finds no other numerals. So a text is an integer of 64 bits exactly if it
is digits behind an optional sign, within the range.
-/

namespace SearchFilter

def IsDigits (cs : List Char) : Prop :=
  ∀ c ∈ cs, c.isDigit = true

def continuesNumeral (c : Char) : Bool :=
  c.isDigit || c = '.' || c = 'e' || c = 'E'

theorem ends_of_not_continuesNumeral {c : Char} (h : continuesNumeral c = false) : c.isDigit = false ∧ c ≠ '.' := by
  simp only [continuesNumeral, Bool.or_eq_false_iff, decide_eq_false_iff_not] at h
  exact h.1.1

structure Exponent.IsProper (e : Exponent) : Prop where
  mark : e.mark = 'e' ∨ e.mark = 'E'
  digits : IsDigits e.digits
  digits_ne_nil : e.digits ≠ []

theorem Exponent.IsProper.mark_ends {e : Exponent} (he : e.IsProper) : e.mark.isDigit = false ∧ e.mark ≠ '.' := by
  rcases he.mark with h | h
  · rw [h]; decide
  · rw [h]; decide

namespace Numeral

structure IsProper (n : Numeral) : Prop where
  whole : IsDigits n.whole
  fraction : ∀ ds, n.fraction = some ds → IsDigits ds
  exponent : ∀ e, n.exponent = some e → e.IsProper
  hasDigit : n.whole = [] → ∃ ds, n.fraction = some ds ∧ ds ≠ []

/-! ## The parts of a numeral -/

theorem takeDigits_append_digits {ds : List Char} (hd : IsDigits ds) (rest : List Char) :
    takeDigits (ds ++ rest) = (ds ++ (takeDigits rest).1, (takeDigits rest).2) := by
  unfold takeDigits
  rw [List.takeWhile_append_of_pos hd, List.dropWhile_append_of_pos hd]

theorem takeDigits_of_not_isDigit {rest : List Char} (hr : ∀ c ∈ rest.head?, c.isDigit = false) :
    takeDigits rest = ([], rest) := by
  unfold takeDigits
  cases rest with
  | nil => rfl
  | cons c cs => simp [hr c rfl]

theorem takeDigits_append {ds rest : List Char} (hd : IsDigits ds) (hr : ∀ c ∈ rest.head?, c.isDigit = false) :
    takeDigits (ds ++ rest) = (ds, rest) := by
  rw [takeDigits_append_digits hd, takeDigits_of_not_isDigit hr, List.append_nil]

theorem isDigits_takeDigits (cs : List Char) : IsDigits (takeDigits cs).1 := by
  intro c hc
  exact (List.all_eq_true.1 List.all_takeWhile) c hc

theorem takeSign_append (sign : Option Sign) {cs : List Char} (h : ∀ c ∈ cs.head?, c ≠ '+' ∧ c ≠ '-') :
    takeSign (signText sign ++ cs) = (sign, cs) := by
  cases sign with
  | some s => cases s <;> rfl
  | none =>
    cases cs with
    | nil => rfl
    | cons c cs =>
      obtain ⟨hp, hm⟩ := h c rfl
      simp [signText, takeSign, hp, hm]

theorem ne_sign_of_isDigit {c : Char} (h : c.isDigit = true) : c ≠ '+' ∧ c ≠ '-' := by
  constructor
  · intro he
    rw [he] at h
    exact absurd h (by decide)
  · intro he
    rw [he] at h
    exact absurd h (by decide)

theorem isDigit_head? {ds rest : List Char} (hd : IsDigits ds) (hn : ds ≠ []) :
    ∀ c ∈ (ds ++ rest).head?, c.isDigit = true := by
  intro c hc
  cases ds with
  | nil => exact absurd rfl hn
  | cons d ds =>
    obtain rfl : d = c := by simpa using hc
    exact hd d List.mem_cons_self

theorem takeFraction_append_digits {whole ds : List Char} (hd : IsDigits ds) (hw : whole = [] → ds ≠ []) (rest : List Char) :
    takeFraction whole (fractionText (some ds) ++ rest) = (some (ds ++ (takeDigits rest).1), (takeDigits rest).2) := by
  have hn : ¬ (whole = [] ∧ ds ++ (takeDigits rest).1 = []) :=
    fun h => hw h.1 (List.append_eq_nil_iff.1 h.2).1
  simp only [fractionText, List.cons_append, takeFraction, takeDigits_append_digits hd, if_neg hn]

theorem takeFraction_append {whole rest : List Char} {fraction : Option (List Char)}
    (hd : ∀ ds, fraction = some ds → IsDigits ds) (hw : whole = [] → fraction ≠ some [])
    (hr : ∀ c ∈ rest.head?, c.isDigit = false ∧ c ≠ '.') :
    takeFraction whole (fractionText fraction ++ rest) = (fraction, rest) := by
  cases fraction with
  | none =>
    cases rest with
    | nil => rfl
    | cons c cs =>
      have hc := (hr c rfl).2
      simp [fractionText, takeFraction, hc]
  | some ds =>
    rw [takeFraction_append_digits (hd ds rfl) fun h hds => hw h (congrArg some hds),
      takeDigits_of_not_isDigit fun c hc => (hr c hc).1, List.append_nil]

theorem takeExponent_append_digits {e : Exponent} (he : e.IsProper) (rest : List Char) :
    takeExponent (exponentText (some e) ++ rest) =
      (some { e with digits := e.digits ++ (takeDigits rest).1 }, (takeDigits rest).2) := by
  obtain ⟨hm, hd, hn⟩ := he
  have hs : takeSign (signText e.sign ++ (e.digits ++ rest)) = (e.sign, e.digits ++ rest) :=
    takeSign_append e.sign fun c hc => ne_sign_of_isDigit (isDigit_head? hd hn c hc)
  have hn' : e.digits ++ (takeDigits rest).1 ≠ [] := fun h => hn (List.append_eq_nil_iff.1 h).1
  simp only [exponentText, List.cons_append, List.append_assoc, takeExponent, if_pos hm, hs,
    takeDigits_append_digits hd, if_neg hn']

theorem takeExponent_append {rest : List Char} {exponent : Option Exponent}
    (he : ∀ e, exponent = some e → e.IsProper) (hr : ∀ c ∈ rest.head?, continuesNumeral c = false) :
    takeExponent (exponentText exponent ++ rest) = (exponent, rest) := by
  cases exponent with
  | none =>
    cases rest with
    | nil => rfl
    | cons c cs =>
      have hc : ¬ (c = 'e' ∨ c = 'E') := by
        have h := hr c rfl
        simp only [continuesNumeral, Bool.or_eq_false_iff, decide_eq_false_iff_not] at h
        rintro (h' | h')
        · exact h.1.2 h'
        · exact h.2 h'
      simp only [exponentText, List.nil_append, takeExponent, if_neg hc]
  | some e =>
    rw [takeExponent_append_digits (he e rfl),
      takeDigits_of_not_isDigit fun c hc => (ends_of_not_continuesNumeral (hr c hc)).1, List.append_nil]

/-! ## Whole numerals -/

section
variable {n : Numeral} {cs rest : List Char}

theorem head?_exponentText (hn : n.IsProper)
    (hr : n.exponent = none → ∀ c ∈ rest.head?, c.isDigit = false ∧ c ≠ '.') :
    ∀ c ∈ (exponentText n.exponent ++ rest).head?, c.isDigit = false ∧ c ≠ '.' := by
  intro c hc
  cases he : n.exponent with
  | none =>
    rw [he] at hc
    exact hr he c hc
  | some e =>
    rw [he] at hc
    obtain rfl : e.mark = c := by simpa [exponentText] using hc
    exact (hn.exponent e he).mark_ends

theorem head?_fractionText (fraction : Option (List Char))
    (hr : fraction = none → ∀ c ∈ rest.head?, c.isDigit = false) :
    ∀ c ∈ (fractionText fraction ++ rest).head?, c.isDigit = false := by
  intro c hc
  cases fraction with
  | none => exact hr rfl c hc
  | some ds =>
    obtain rfl : '.' = c := by simpa [fractionText] using hc
    decide

theorem head?_behindSign (hn : n.IsProper) (rest : List Char) :
    ∀ c ∈ (n.whole ++ (fractionText n.fraction ++ rest)).head?, c ≠ '+' ∧ c ≠ '-' := by
  intro c hc
  by_cases hwh : n.whole = []
  · obtain ⟨ds, hds, -⟩ := hn.hasDigit hwh
    rw [hwh, hds] at hc
    obtain rfl : '.' = c := by simpa [fractionText] using hc
    decide
  · exact ne_sign_of_isDigit (isDigit_head? hn.whole hwh c hc)

theorem IsProper.fraction_ne (hn : n.IsProper) (hw : n.whole = []) : n.fraction ≠ some [] := by
  intro hf
  obtain ⟨ds, hds, hne⟩ := hn.hasDigit hw
  rw [hds] at hf
  exact hne (Option.some.inj hf)

/-- A proper numeral is found in front of every text that cannot continue it. -/
theorem scan?_append (hn : n.IsProper) (hr : ∀ c ∈ rest.head?, continuesNumeral c = false) :
    scan? (n.text ++ rest) = some (n, rest) := by
  have he := head?_exponentText hn fun _ c hc => ends_of_not_continuesNumeral (hr c hc)
  have hfraction := head?_fractionText n.fraction fun _ c hc => (he c hc).1
  have hsome : ¬ (n.whole = [] ∧ n.fraction = none) := by
    rintro ⟨h, hf⟩
    obtain ⟨ds, hds, -⟩ := hn.hasDigit h
    rw [hf] at hds
    cases hds
  simp only [scan?, text, List.append_assoc, takeSign_append n.sign (head?_behindSign hn _),
    takeDigits_append hn.whole hfraction, takeFraction_append hn.fraction hn.fraction_ne he,
    takeExponent_append hn.exponent hr, if_neg hsome]

theorem isDigits_takeFraction (whole cs ds : List Char) (h : (takeFraction whole cs).1 = some ds) : IsDigits ds := by
  unfold takeFraction at h
  split at h
  · simp only at h
    split at h
    · cases h
    · cases h
      exact isDigits_takeDigits _
  · cases h

theorem takeFraction_ne_nil {whole ds : List Char} (hw : whole = []) (h : (takeFraction whole cs).1 = some ds) :
    ds ≠ [] := by
  unfold takeFraction at h
  split at h
  · simp only at h
    split at h
    · cases h
    · rename_i hn
      cases h
      exact fun hnil => hn ⟨hw, hnil⟩
  · cases h

theorem isProper_takeExponent (cs : List Char) (e : Exponent) (h : (takeExponent cs).1 = some e) : e.IsProper := by
  unfold takeExponent at h
  split at h
  · cases h
  · split at h
    · rename_i hm
      simp only at h
      split at h
      · cases h
      · rename_i hn
        cases h
        exact ⟨hm, isDigits_takeDigits _, hn⟩
    · cases h

theorem isProper_of_scan? (h : scan? cs = some (n, rest)) : n.IsProper := by
  simp only [scan?] at h
  split at h
  · cases h
  · rename_i hsome
    simp only [Option.some.injEq, Prod.mk.injEq] at h
    obtain ⟨rfl, -⟩ := h
    refine ⟨isDigits_takeDigits _, isDigits_takeFraction _ _, isProper_takeExponent _, ?_⟩
    intro hw
    obtain ⟨ds, hds⟩ := Option.ne_none_iff_exists'.1 fun hf => hsome ⟨hw, hf⟩
    exact ⟨ds, hds, takeFraction_ne_nil hw hds⟩

theorem read?_eq_some_iff : read? cs = some n ↔ n.IsProper ∧ cs = n.text := by
  constructor
  · intro h
    unfold read? at h
    split at h
    · rename_i hs
      cases h
      have ht := scan?_text hs
      rw [List.append_nil] at ht
      exact ⟨isProper_of_scan? hs, ht.symm⟩
    · cases h
  · rintro ⟨hn, rfl⟩
    have hs : scan? (n.text ++ []) = some (n, []) := scan?_append hn (by simp)
    rw [List.append_nil] at hs
    rw [read?, hs]

end

/-! ## Integers -/

theorem isDigits_toDigits (n : Nat) : IsDigits (Nat.toDigits 10 n) :=
  fun _ hc => Nat.isDigit_of_mem_toDigits (by decide) (by decide) hc

theorem isProper_digits (sign : Option Sign) {ds : List Char} (hd : IsDigits ds) (hne : ds ≠ []) :
    IsProper ⟨sign, ds, none, none⟩ where
  whole := hd
  fraction := nofun
  exponent := nofun
  hasDigit h := absurd h hne

theorem isProper_ofInt (i : Int) : (ofInt i).IsProper :=
  isProper_digits _ (isDigits_toDigits i.natAbs) Nat.toDigits_ne_nil

theorem integer_ofInt (i : Int) : (ofInt i).integer = i := by
  have hv : digitsValue (ofInt i).whole = i.natAbs := Nat.ofDigitChars_ten_toDigits
  rw [integer, hv]
  by_cases hi : i < 0
  · rw [if_pos (by simp [isNegative, ofInt, hi])]
    omega
  · rw [if_neg (by simp [isNegative, ofInt, hi])]
    omega

theorem readInt64?_ofInt (n : Int64) : readInt64? (ofInt n.toInt).text = some n := by
  rw [readInt64?, read?_eq_some_iff.2 ⟨isProper_ofInt n.toInt, rfl⟩, Option.bind_some, integer_ofInt,
    if_pos ⟨rfl, n.minValue_le_toInt, n.toInt_le⟩, Int64.ofInt_toInt]

theorem mem_text_ofInt {i : Int} {c : Char} (h : c ∈ (ofInt i).text) : c = '-' ∨ c.isDigit = true := by
  simp only [text, ofInt, fractionText, exponentText, List.append_nil, List.mem_append] at h
  rcases h with h | h
  · by_cases hi : i < 0
    · exact Or.inl (by simpa [signText, Sign.char, hi] using h)
    · simp [signText, hi] at h
  · exact Or.inr (isDigits_toDigits i.natAbs c h)

theorem text_ofInt_ne_nil (i : Int) : (ofInt i).text ≠ [] := by
  intro h
  have hw : Nat.toDigits 10 i.natAbs ≠ [] := Nat.toDigits_ne_nil
  simp only [text, ofInt, fractionText, exponentText, List.append_nil, List.append_eq_nil_iff] at h
  exact hw h.2

def IsInteger (cs : List Char) (i : Int) : Prop :=
  ∃ sign digits, cs = signText sign ++ digits ∧ digits ≠ [] ∧ IsDigits digits ∧
    i = if sign = some .minus then -(digitsValue digits : Int) else digitsValue digits

/-- Reading digits behind an optional sign fails for no other reason than the range. -/
theorem readInt64?_of_isInteger {cs : List Char} {i : Int} (h : IsInteger cs i) :
    readInt64? cs = if Int64.minValue.toInt ≤ i ∧ i ≤ Int64.maxValue.toInt then some (.ofInt i) else none := by
  obtain ⟨sign, digits, rfl, hne, hd, hi⟩ := h
  have hr : read? (signText sign ++ digits) = some ⟨sign, digits, none, none⟩ :=
    read?_eq_some_iff.2 ⟨isProper_digits sign hd hne, by simp [text, fractionText, exponentText]⟩
  have hv : (⟨sign, digits, none, none⟩ : Numeral).integer = i := by
    rw [hi]
    simp [integer, isNegative]
  have hinteger : (⟨sign, digits, none, none⟩ : Numeral).isInteger = true := rfl
  rw [readInt64?, hr, Option.bind_some, hv]
  simp only [hinteger, true_and]

theorem IsProper.isInteger_text {n : Numeral} (hp : n.IsProper) (h : n.isInteger = true) :
    IsInteger n.text n.integer := by
  obtain ⟨sign, whole, fraction, exponent⟩ := n
  simp only [isInteger, Bool.and_eq_true, Option.isNone_iff_eq_none] at h
  obtain ⟨rfl, rfl⟩ := h
  refine ⟨sign, whole, by simp [text, fractionText, exponentText], ?_, hp.whole, by simp [integer, isNegative]⟩
  intro hw
  obtain ⟨ds, hds, -⟩ := hp.hasDigit hw
  cases hds

theorem readInt64?_eq_some_iff (cs : List Char) (n : Int64) : readInt64? cs = some n ↔ IsInteger cs n.toInt := by
  constructor
  · intro h
    obtain ⟨m, hm, hn⟩ := Option.bind_eq_some_iff.1 h
    obtain ⟨hp, rfl⟩ := read?_eq_some_iff.1 hm
    split at hn
    · rename_i hi
      obtain ⟨hint, hmin, hmax⟩ := hi
      cases hn
      rw [Int64.toInt_ofInt_of_le hmin (Int.lt_of_le_of_lt hmax (by decide))]
      exact hp.isInteger_text hint
    · cases hn
  · intro h
    rw [readInt64?_of_isInteger h, if_pos ⟨n.minValue_le_toInt, n.toInt_le⟩, Int64.ofInt_toInt]

end Numeral

end SearchFilter
