import SearchFilter.Proofs.Query.Scan

/-!
# What is open at a place in a condition

A text is followed one character at a time. A doubled delimiter closes and opens again, so what
is open at the end says whether the last literal or quoted name was closed. The modes of a text
that ends outside and the tokens of such texts compose (`after_append`, `tokens_append`).
-/

namespace SearchFilter.Query
open SearchFilter.Text

/-- What encloses the next character. -/
inductive Mode
  | outside
  | inLiteral (delimiter : Char)
  | escaped (delimiter : Char)
  | inName
  deriving DecidableEq, Repr

namespace Mode

/-- `escapes` says whether a backslash takes the next character of a literal with it. -/
def step (escapes : Bool) (quote : Char) : Mode → Char → Mode
  | outside, c => if opensLiteral quote c then inLiteral c else if c = quote then inName else outside
  | inLiteral δ, c => if c = δ then outside else if escapes && c = '\\' then escaped δ else inLiteral δ
  | escaped δ, _ => inLiteral δ
  | inName, c => if c = quote then outside else inName

def after (escapes : Bool) (quote : Char) (m : Mode) (cs : List Char) : Mode :=
  cs.foldl (step escapes quote) m

variable (escapes : Bool) (quote : Char) (m : Mode)

@[simp] theorem after_nil : after escapes quote m [] = m := rfl

@[simp] theorem after_cons (c : Char) (cs : List Char) :
    after escapes quote m (c :: cs) = after escapes quote (step escapes quote m c) cs := rfl

theorem after_append (cs ds : List Char) :
    after escapes quote m (cs ++ ds) = after escapes quote (after escapes quote m cs) ds :=
  List.foldl_append

def Proper (quote : Char) : Mode → Prop
  | inLiteral δ => opensLiteral quote δ = true
  | escaped δ => opensLiteral quote δ = true
  | _ => True

theorem Proper.step {m : Mode} (h : Proper quote m) (c : Char) : Proper quote (step escapes quote m c) := by
  cases m with
  | outside =>
    rw [Mode.step]
    split
    · assumption
    · split <;> trivial
  | inLiteral δ =>
    rw [Mode.step]
    split
    · trivial
    · split <;> exact h
  | escaped δ => exact h
  | inName =>
    rw [Mode.step]
    split <;> trivial

theorem proper_after (cs : List Char) : Proper quote (after escapes quote .outside cs) := by
  suffices ∀ m, Proper quote m → Proper quote (after escapes quote m cs) from this _ trivial
  induction cs with
  | nil => exact fun m h => h
  | cons c cs ih => exact fun m h => ih _ (h.step escapes quote c)

/-- A space closes nothing. -/
theorem eq_outside_of_space (d : Dialect) {m : Mode} (hm : Proper d.quote m)
    (h : step escapes d.quote m ' ' = .outside) : m = .outside := by
  cases m with
  | outside => rfl
  | inLiteral δ =>
    have hd : ' ' ≠ δ := by
      rintro rfl
      have ho : opensLiteral d.quote ' ' = true := hm
      cases d <;> exact absurd ho (by decide)
    simp [step, hd] at h
  | escaped δ => cases h
  | inName =>
    have hd : ' ' ≠ d.quote := by cases d <;> decide
    simp [step, hd] at h

end Mode

/-! ## The mode behind a token -/

section
variable {quote δ : Char}

theorem after_literal_of_closed (hd : opensLiteral quote δ = true) {cs : List Char}
    (h : (literalBody δ cs).closed = true) :
    Mode.after true quote (.inLiteral δ) cs = Mode.after true quote .outside (literalBody δ cs).rest := by
  have hb := ne_backslash_of_opensLiteral hd
  induction cs using literal_induction δ with
  | nil => cases h
  | backslash => cases h
  | escape c cs ih =>
    rw [literalBody_escape] at h ⊢
    rw [Enclosed.prepend_rest, ← ih h]
    simp [Mode.step, Ne.symm hb]
  | doubled cs ih =>
    rw [literalBody_doubled hb] at h ⊢
    rw [Enclosed.prepend_rest, ← ih h]
    simp [Mode.step, hd]
  | closing cs hc =>
    rw [literalBody_closing hb hc]
    simp [Mode.step]
  | plain c cs h₁ h₂ ih =>
    rw [literalBody_plain cs h₁ h₂] at h ⊢
    rw [Enclosed.prepend_rest, ← ih h]
    simp [Mode.step, h₁, h₂]

theorem after_literal_of_open (hd : opensLiteral quote δ = true) {cs : List Char}
    (h : (literalBody δ cs).closed = false) :
    Mode.after true quote (.inLiteral δ) cs = .inLiteral δ ∨ Mode.after true quote (.inLiteral δ) cs = .escaped δ := by
  have hb := ne_backslash_of_opensLiteral hd
  induction cs using literal_induction δ with
  | nil => exact Or.inl rfl
  | backslash => exact Or.inr (by simp [Mode.step, Ne.symm hb])
  | escape c cs ih =>
    rw [literalBody_escape] at h
    simpa [Mode.step, Ne.symm hb] using ih h
  | doubled cs ih =>
    rw [literalBody_doubled hb] at h
    simpa [Mode.step, hd] using ih h
  | closing cs hc => rw [literalBody_closing hb hc] at h; cases h
  | plain c cs h₁ h₂ ih =>
    rw [literalBody_plain cs h₁ h₂] at h
    simpa [Mode.step, h₁, h₂] using ih h

theorem after_name_of_closed (hq : opensLiteral quote quote = false) {cs : List Char}
    (h : (unquote quote cs).closed = true) :
    Mode.after true quote .inName cs = Mode.after true quote .outside (unquote quote cs).rest := by
  fun_induction unquote quote cs with
  | case1 => cases h
  | case2 => simp [Mode.step]
  | case3 ds ih =>
    rw [Enclosed.prepend_rest, ← ih h]
    simp [Mode.step, hq]
  | case4 d ds hd => simp [Mode.step]
  | case5 c cs hc ih =>
    rw [Enclosed.prepend_rest, ← ih h]
    simp [Mode.step, hc]

theorem after_name_of_open (hq : opensLiteral quote quote = false) {cs : List Char}
    (h : (unquote quote cs).closed = false) : Mode.after true quote .inName cs = .inName := by
  fun_induction unquote quote cs with
  | case1 => rfl
  | case2 => cases h
  | case3 ds ih => simpa [Mode.step, hq] using ih h
  | case4 => cases h
  | case5 c cs hc ih => simpa [Mode.step, hc] using ih h

end

theorem step_outside_of_plain {quote c : Char} (h : isPlain quote c = true) :
    Mode.step true quote .outside c = .outside := by
  obtain ⟨-, hl, hq⟩ := (isPlain_iff quote c).1 h
  simp [Mode.step, hl, hq]

theorem after_word (d : Dialect) (cs : List Char) :
    Mode.after true d.quote .outside cs = Mode.after true d.quote .outside (cs.dropWhile isWordChar) := by
  induction cs with
  | nil => rfl
  | cons c cs ih =>
    by_cases hw : isWordChar c = true
    · rw [List.dropWhile_cons_of_pos hw, ← ih]
      simp [Mode.step, opensLiteral_of_isWordChar hw, ne_quote_of_isWordChar d hw]
    · rw [List.dropWhile_cons_of_neg hw]

section
variable (d : Dialect) {c : Char} {cs : List Char}

theorem after_of_closed (h : (Token.next d.quote c cs).1.isOpen = false) :
    Mode.after true d.quote .outside (c :: cs) = Mode.after true d.quote .outside (Token.next d.quote c cs).2 := by
  rcases char_kind d.quote c with hl | rfl | hw | hp
  · rw [next_literal hl] at h ⊢
    rw [← after_literal_of_closed hl (by simpa [Token.isOpen] using h)]
    simp [Mode.step, hl]
  · rw [next_name] at h ⊢
    rw [← after_name_of_closed (opensLiteral_quote d) (by simpa [Token.isOpen] using h)]
    simp [Mode.step, opensLiteral_quote]
  · rw [next_word d hw, after_word d (c :: cs), List.dropWhile_cons_of_pos hw]
  · rw [next_symbol hp, Mode.after_cons, step_outside_of_plain hp]

/-- A token that is cut off decides the mode at the end of the text. -/
theorem after_of_open (h : (Token.next d.quote c cs).1.isOpen = true) :
    match (Token.next d.quote c cs).1 with
    | .name _ _ => Mode.after true d.quote .outside (c :: cs) = .inName
    | _ => Mode.after true d.quote .outside (c :: cs) = .inLiteral c ∨
        Mode.after true d.quote .outside (c :: cs) = .escaped c := by
  rcases char_kind d.quote c with hl | rfl | hw | hp
  · rw [next_literal hl] at h ⊢
    have := after_literal_of_open hl (by simpa [Token.isOpen] using h)
    simpa [Mode.step, hl] using this
  · rw [next_name] at h ⊢
    have := after_name_of_open (opensLiteral_quote d) (by simpa [Token.isOpen] using h)
    simpa [Mode.step, opensLiteral_quote] using this
  · rw [next_word d hw] at h; cases h
  · rw [next_symbol hp] at h; cases h

theorem after_ne_outside_of_open (h : (Token.next d.quote c cs).1.isOpen = true) :
    Mode.after true d.quote .outside (c :: cs) ≠ .outside := by
  have := after_of_open d h
  split at this
  · rw [this]; simp
  · rcases this with h | h <;> rw [h] <;> simp

end

/-- Outside of everything, the tokens of a text do not depend on what comes behind it. -/
theorem tokens_append (d : Dialect) {ps qs : List Char} (hp : Mode.after true d.quote .outside ps = .outside)
    (hq : Breaks d.quote qs) : tokens d.quote (ps ++ qs) = tokens d.quote ps ++ tokens d.quote qs := by
  fun_induction tokens d.quote ps with
  | case1 => rfl
  | case2 c cs ih =>
    have ho : (Token.next d.quote c cs).1.isOpen = false :=
      Bool.eq_false_iff.2 fun h => after_ne_outside_of_open d h hp
    rw [after_of_closed d ho] at hp
    rw [List.cons_append, tokens, next_append d ho hq, ih hp, List.cons_append]

end SearchFilter.Query
