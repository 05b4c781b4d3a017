import SearchFilter.Proofs.Number.Numeral

/-!
# The longest numeral

What scanning finds is the longest numeral that a text begins with, and it finds one wherever the
text begins with any: in front of a numeral's own text each part takes at least what it wrote, so no
more remains than what stands behind it.
-/

namespace SearchFilter.Numeral

structure IsLongest (n : Numeral) (cs : List Char) : Prop where
  proper : n.IsProper
  begins : n.text <+: cs
  longest : ∀ m : Numeral, m.IsProper → m.text <+: cs → m.text.length ≤ n.text.length

/-! ## What remains -/

theorem takeDigits_length_le (cs : List Char) : (takeDigits cs).2.length ≤ cs.length :=
  List.IsSuffix.length_le ⟨_, takeDigits_text cs⟩

theorem takeFraction_length_le (whole cs : List Char) : (takeFraction whole cs).2.length ≤ cs.length :=
  List.IsSuffix.length_le ⟨_, takeFraction_text whole cs⟩

theorem takeExponent_length_le (cs : List Char) : (takeExponent cs).2.length ≤ cs.length :=
  List.IsSuffix.length_le ⟨_, takeExponent_text cs⟩

theorem takeExponent_reaches {exponent : Option Exponent} (he : ∀ e, exponent = some e → e.IsProper)
    (rest : List Char) : (takeExponent (exponentText exponent ++ rest)).2.length ≤ rest.length := by
  cases exponent with
  | none => exact takeExponent_length_le rest
  | some e =>
    rw [takeExponent_append_digits (he e rfl)]
    exact takeDigits_length_le rest

theorem takeFraction_reaches {whole : List Char} {fraction : Option (List Char)}
    (hd : ∀ ds, fraction = some ds → IsDigits ds) (hw : whole = [] → fraction ≠ some []) (rest : List Char) :
    (takeFraction whole (fractionText fraction ++ rest)).2.length ≤ rest.length := by
  cases fraction with
  | none => exact takeFraction_length_le whole rest
  | some ds =>
    rw [takeFraction_append_digits (hd ds rfl) fun h hds => hw h (congrArg some hds)]
    exact takeDigits_length_le rest

section
variable {n m : Numeral} {cs rest : List Char}

/-- Behind the whole digits no more remains than behind the numeral. -/
theorem behindWhole_reaches (hm : m.IsProper) {whole : List Char} (hw : whole = [] → m.fraction ≠ some [])
    (rest : List Char) :
    (takeExponent (takeFraction whole (fractionText m.fraction ++ (exponentText m.exponent ++ rest))).2).2.length ≤
      rest.length := by
  cases he : m.exponent with
  | none => exact Nat.le_trans (takeExponent_length_le _) (takeFraction_reaches hm.fraction hw rest)
  | some e =>
    have hends : ∀ c ∈ (exponentText m.exponent ++ rest).head?, c.isDigit = false ∧ c ≠ '.' :=
      head?_exponentText hm fun hnone => absurd (hnone.symm.trans he) (Option.some_ne_none e).symm
    rw [he] at hends
    rw [takeFraction_append hm.fraction hw hends]
    exact takeExponent_reaches (fun e' h => hm.exponent e' (he.trans h)) rest

theorem exists_scan?_eq {sign : Option Sign} {whole behindSign behindWhole : List Char}
    (hs : takeSign cs = (sign, behindSign)) (hw : takeDigits behindSign = (whole, behindWhole))
    (hne : whole = [] → (takeFraction whole behindWhole).1 ≠ none) :
    ∃ n, scan? cs = some (n, (takeExponent (takeFraction whole behindWhole).2).2) := by
  simp only [scan?, hs, hw]
  exact ⟨_, if_neg fun h => hne h.1 h.2⟩

/-- In front of a numeral's own text scanning finds a numeral that is at least as long. -/
theorem scan?_reaches (hm : m.IsProper) (rest : List Char) :
    ∃ n rest', scan? (m.text ++ rest) = some (n, rest') ∧ rest'.length ≤ rest.length := by
  have htext : m.text ++ rest = signText m.sign ++
      (m.whole ++ (fractionText m.fraction ++ (exponentText m.exponent ++ rest))) := by
    simp only [text, List.append_assoc]
  have hs := takeSign_append m.sign (head?_behindSign hm (exponentText m.exponent ++ rest))
  rw [htext]
  by_cases h : m.fraction = none ∧ m.exponent = none
  · -- the digits may go on in the text behind them
    obtain ⟨hf, he⟩ := h
    have hwhole : m.whole ++ (takeDigits rest).1 ≠ [] := by
      intro hnil
      obtain ⟨ds, hds, -⟩ := hm.hasDigit (List.append_eq_nil_iff.1 hnil).1
      cases hf.symm.trans hds
    have hw := takeDigits_append_digits hm.whole rest
    rw [hf, he] at hs ⊢
    obtain ⟨n, hn⟩ := exists_scan?_eq hs hw fun hnil => absurd hnil hwhole
    have hle : (takeFraction (m.whole ++ (takeDigits rest).1) (takeDigits rest).2).2.length ≤ rest.length :=
      Nat.le_trans (takeFraction_length_le _ _) (takeDigits_length_le rest)
    exact ⟨n, _, hn, Nat.le_trans (takeExponent_length_le _) hle⟩
  · -- what is behind the digits ends them
    have hends : ∀ c ∈ (fractionText m.fraction ++ (exponentText m.exponent ++ rest)).head?, c.isDigit = false :=
      head?_fractionText m.fraction fun hf c hc => (head?_exponentText hm (fun he => absurd ⟨hf, he⟩ h) c hc).1
    have hw := takeDigits_append hm.whole hends
    have htaken : m.whole = [] →
        (takeFraction m.whole (fractionText m.fraction ++ (exponentText m.exponent ++ rest))).1 ≠ none := by
      intro hnil
      obtain ⟨ds, hds, hne⟩ := hm.hasDigit hnil
      rw [hds, takeFraction_append_digits (hm.fraction ds hds) fun _ => hne]
      exact Option.some_ne_none _
    obtain ⟨n, hn⟩ := exists_scan?_eq hs hw htaken
    exact ⟨n, _, hn, behindWhole_reaches hm hm.fraction_ne rest⟩

/-! ## The longest numeral -/

theorem text_inj (hn : n.IsProper) (hm : m.IsProper) (h : n.text = m.text) : n = m := by
  have hread : read? n.text = some n := read?_eq_some_iff.2 ⟨hn, rfl⟩
  have hread' : read? n.text = some m := read?_eq_some_iff.2 ⟨hm, h⟩
  exact Option.some.inj (hread.symm.trans hread')

theorem IsLongest.unique (hn : n.IsLongest cs) (hm : m.IsLongest cs) : n = m := by
  have hlength : n.text.length = m.text.length :=
    Nat.le_antisymm (hm.longest n hn.proper hn.begins) (hn.longest m hm.proper hm.begins)
  have htext := (List.prefix_of_prefix_length_le hn.begins hm.begins (Nat.le_of_eq hlength)).eq_of_length hlength
  exact text_inj hn.proper hm.proper htext

theorem isLongest_of_scan? (h : scan? cs = some (n, rest)) : n.IsLongest cs where
  proper := isProper_of_scan? h
  begins := ⟨rest, scan?_text h⟩
  longest m hm hbegins := by
    obtain ⟨behind, rfl⟩ := hbegins
    obtain ⟨k, rest', hk, hle⟩ := scan?_reaches hm behind
    obtain ⟨rfl, rfl⟩ := Prod.mk.inj (Option.some.inj (h.symm.trans hk))
    have hlength := congrArg List.length (scan?_text h)
    rw [List.length_append, List.length_append] at hlength
    omega

theorem IsLongest.scan? (hn : n.IsLongest cs) : ∃ rest, Numeral.scan? cs = some (n, rest) := by
  obtain ⟨behind, rfl⟩ := hn.begins
  obtain ⟨k, rest, hk, -⟩ := scan?_reaches hn.proper behind
  obtain rfl := hn.unique (isLongest_of_scan? hk)
  exact ⟨rest, hk⟩

theorem scan?_eq_none_iff : scan? cs = none ↔ ∀ m : Numeral, m.IsProper → ¬ m.text <+: cs := by
  constructor
  · rintro h m hm ⟨behind, rfl⟩
    obtain ⟨n, rest, hn, -⟩ := scan?_reaches hm behind
    cases h.symm.trans hn
  · intro h
    cases hs : scan? cs with
    | none => rfl
    | some found => exact absurd (isLongest_of_scan? hs).begins (h found.1 (isLongest_of_scan? hs).proper)

end

end SearchFilter.Numeral
