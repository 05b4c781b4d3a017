import SearchFilter.Number.Layout

/-!
# The characters of numbers

A number is written with digits, a point and a sign, or as one of three words.
-/

namespace SearchFilter

/-! ## Decimals -/

namespace Decimal

theorem isDigit_digits (d : Decimal) : ∀ c ∈ d.digits, c.isDigit = true := by
  intro c hc
  rw [digits, List.mem_reverse] at hc
  have hm := (List.dropWhile_sublist _).subset hc
  exact Nat.isDigit_of_mem_toDigits (by decide) (by decide) (List.mem_reverse.1 hm)

theorem isDigit_replicate_zero (n : Nat) : ∀ c ∈ List.replicate n '0', c.isDigit = true := by
  intro c hc
  rw [List.eq_of_mem_replicate hc]
  decide

theorem isDigit_append {ds es : List Char} (hd : ∀ c ∈ ds, c.isDigit = true) (he : ∀ c ∈ es, c.isDigit = true) :
    ∀ c ∈ ds ++ es, c.isDigit = true := by
  intro c hc
  rcases List.mem_append.1 hc with hc | hc
  · exact hd c hc
  · exact he c hc

theorem isDigit_parts (d : Decimal) : (∀ c ∈ d.parts.1, c.isDigit = true) ∧ ∀ c ∈ d.parts.2, c.isDigit = true := by
  have hd := d.isDigit_digits
  unfold parts
  split
  · exact ⟨isDigit_replicate_zero 1, isDigit_append (isDigit_replicate_zero _) hd⟩
  · refine ⟨isDigit_append (fun c hc => hd c (List.mem_of_mem_take hc)) (isDigit_replicate_zero _), ?_⟩
    exact fun c hc => hd c (List.mem_of_mem_drop hc)

theorem whole_ne_nil (d : Decimal) : d.parts.1 ≠ [] := by
  unfold parts
  split
  · simp
  · intro h
    have hl := congrArg List.length h
    simp only [List.length_append, List.length_take, List.length_replicate, List.length_nil] at hl
    omega

variable (sign : Option Sign) (d : Decimal)

theorem text_plain_ne_nil : (d.plain sign).text ≠ [] := by
  simp [plain, Numeral.text, whole_ne_nil]

theorem mem_text_plain {c : Char} (h : c ∈ (d.plain sign).text) :
    c ∈ Numeral.signText sign ∨ c.isDigit = true ∨ c = '.' := by
  obtain ⟨hw, hf⟩ := d.isDigit_parts
  simp only [plain, Numeral.text, Numeral.exponentText, List.append_nil, List.mem_append] at h
  rcases h with (h | h) | h
  · exact Or.inl h
  · exact Or.inr (Or.inl (hw c h))
  · split at h
    · cases h
    · rcases List.mem_cons.1 h with h | h
      · exact Or.inr (Or.inr h)
      · exact Or.inr (Or.inl (hf c h))

end Decimal

/-! ## Floating point numbers -/

namespace Binary64
variable (x : Binary64)

theorem mem_signText_sign {c : Char} (h : c ∈ Numeral.signText x.sign) : c = '-' := by
  unfold sign at h
  split at h
  · simpa [Numeral.signText, Sign.char] using h
  · simp [Numeral.signText] at h

theorem text_ne_nil : x.text ≠ [] := by
  unfold text
  split
  · decide
  · split
    · exact Decimal.text_plain_ne_nil _ _
    · simp

theorem mem_text {c : Char} (h : c ∈ x.text) : c.isAlphanum = true ∨ c = '-' ∨ c = '.' := by
  have hword : ∀ w : String, w.toList.all Char.isAlphanum = true → c ∈ w.toList → c.isAlphanum = true :=
    fun w hw hc => List.all_eq_true.1 hw c hc
  unfold text at h
  split at h
  · exact Or.inl (hword "NaN" (by decide) h)
  · split at h
    · rcases Decimal.mem_text_plain _ _ h with h | h | h
      · exact Or.inr (Or.inl (x.mem_signText_sign h))
      · exact Or.inl (by simp [Char.isAlphanum, h])
      · exact Or.inr (Or.inr h)
    · rcases List.mem_append.1 h with h | h
      · exact Or.inr (Or.inl (x.mem_signText_sign h))
      · exact Or.inl (hword "inf" (by decide) h)

end Binary64

end SearchFilter
