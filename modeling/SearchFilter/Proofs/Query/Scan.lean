import SearchFilter.Dialect
import SearchFilter.Query.Token

/-!
# The scanners, case by case

What the readers of literals, quoted names and tokens do with each kind of first character, and
what they do with text behind the place where they stop.
-/

namespace SearchFilter.Query
open SearchFilter.Text

/-! ## Kinds of characters -/

theorem opensLiteral_iff (quote c : Char) : opensLiteral quote c = true ↔ c = '\'' ∨ (c = '"' ∧ quote ≠ '"') := by
  simp [opensLiteral]

theorem ne_backslash_of_opensLiteral {quote c : Char} (h : opensLiteral quote c = true) : c ≠ '\\' := by
  rw [opensLiteral_iff] at h
  rintro rfl
  rcases h with h | ⟨h, -⟩ <;> exact absurd h (by decide)

theorem opensLiteral_quote (d : Dialect) : opensLiteral d.quote d.quote = false := by
  cases d <;> decide

theorem isWordChar_quote (d : Dialect) : isWordChar d.quote = false := by
  cases d <;> decide

theorem dot_ne_quote (d : Dialect) : '.' ≠ d.quote := by
  cases d <;> decide

theorem opensLiteral_of_isWordChar {quote c : Char} (h : isWordChar c = true) : opensLiteral quote c = false := by
  refine Bool.eq_false_iff.2 fun hl => ?_
  rcases (opensLiteral_iff quote c).1 hl with rfl | ⟨rfl, -⟩ <;> exact absurd h (by decide)

theorem ne_quote_of_isWordChar {c : Char} (d : Dialect) (h : isWordChar c = true) : c ≠ d.quote := by
  rintro rfl
  rw [isWordChar_quote] at h
  cases h

def isPlain (quote c : Char) : Bool :=
  !isWordChar c && !opensLiteral quote c && c ≠ quote

theorem isPlain_iff (quote c : Char) :
    isPlain quote c = true ↔ isWordChar c = false ∧ opensLiteral quote c = false ∧ c ≠ quote := by
  simp [isPlain, and_assoc]

theorem isPlain_space (d : Dialect) : isPlain d.quote ' ' = true := by
  cases d <;> decide

theorem char_kind (quote c : Char) :
    opensLiteral quote c = true ∨ c = quote ∨ isWordChar c = true ∨ isPlain quote c = true := by
  by_cases hl : opensLiteral quote c = true
  · exact Or.inl hl
  · by_cases hq : c = quote
    · exact Or.inr (Or.inl hq)
    · by_cases hw : isWordChar c = true
      · exact Or.inr (Or.inr (Or.inl hw))
      · exact Or.inr (Or.inr (Or.inr (by simp [isPlain, hl, hq, hw])))

/-! ## Inside a literal -/

section
variable {delimiter : Char}

theorem literalBody_escape (c : Char) (cs : List Char) :
    literalBody delimiter ('\\' :: c :: cs) = (literalBody delimiter cs).prepend ['\\', c] := by
  rw [literalBody]

theorem literalBody_plain {c : Char} (cs : List Char) (hb : c ≠ '\\') (hd : c ≠ delimiter) :
    literalBody delimiter (c :: cs) = (literalBody delimiter cs).prepend [c] := by
  cases cs <;> simp [literalBody, hb, hd]

/-- Induction along a literal: the end of the text, a last backslash, a backslash and what it
takes with it, a doubled delimiter, the delimiter that closes, any other character. -/
theorem literal_induction (delimiter : Char) {motive : List Char → Prop} (nil : motive []) (backslash : motive ['\\'])
    (escape : ∀ c cs, motive cs → motive ('\\' :: c :: cs))
    (doubled : ∀ cs, motive cs → motive (delimiter :: delimiter :: cs))
    (closing : ∀ cs, cs.head? ≠ some delimiter → motive (delimiter :: cs))
    (plain : ∀ c cs, c ≠ '\\' → c ≠ delimiter → motive cs → motive (c :: cs)) (cs : List Char) : motive cs := by
  fun_induction literalBody delimiter cs with
  | case1 => exact nil
  | case2 => exact backslash
  | case3 c cs ih => exact escape c cs ih
  | case4 => exact closing [] (by simp)
  | case5 ds _ _ ih => exact doubled ds ih
  | case6 d ds hd => exact closing (d :: ds) (by simpa using hd)
  | case7 c cs h₁ h₂ hc ih =>
    refine plain c cs ?_ hc ih
    intro h
    cases cs with
    | nil => exact h₁ h rfl
    | cons d ds => exact h₂ d ds h rfl

variable (hb : delimiter ≠ '\\')
include hb

theorem literalBody_doubled (cs : List Char) :
    literalBody delimiter (delimiter :: delimiter :: cs) =
      (literalBody delimiter cs).prepend [delimiter, delimiter] := by
  simp [literalBody, hb]

theorem literalBody_closing {cs : List Char} (h : cs.head? ≠ some delimiter) :
    literalBody delimiter (delimiter :: cs) = ⟨[], true, cs⟩ := by
  cases cs with
  | nil => simp [literalBody, hb]
  | cons d ds =>
    have hd : d ≠ delimiter := by simpa using h
    simp [literalBody, hb, hd]

theorem literalBody_rest_of_open {cs : List Char} (h : (literalBody delimiter cs).closed = false) :
    (literalBody delimiter cs).rest = [] := by
  induction cs using literal_induction delimiter with
  | nil => rfl
  | backslash => rfl
  | escape c cs ih => rw [literalBody_escape] at h ⊢; exact ih h
  | doubled cs ih => rw [literalBody_doubled hb] at h ⊢; exact ih h
  | closing cs hc => rw [literalBody_closing hb hc] at h; cases h
  | plain c cs h₁ h₂ ih => rw [literalBody_plain cs h₁ h₂] at h ⊢; exact ih h

/-- A closed literal ends where it does, whatever comes behind it but another delimiter. -/
theorem literalBody_append {cs qs : List Char} (h : (literalBody delimiter cs).closed = true)
    (hq : qs.head? ≠ some delimiter) :
    literalBody delimiter (cs ++ qs) =
      { literalBody delimiter cs with rest := (literalBody delimiter cs).rest ++ qs } := by
  induction cs using literal_induction delimiter with
  | nil => cases h
  | backslash => cases h
  | escape c cs ih =>
    rw [literalBody_escape] at h ⊢
    rw [List.cons_append, List.cons_append, literalBody_escape, ih h]
    rfl
  | doubled cs ih =>
    rw [literalBody_doubled hb] at h ⊢
    rw [List.cons_append, List.cons_append, literalBody_doubled hb, ih h]
    rfl
  | closing cs hc =>
    have hcq : (cs ++ qs).head? ≠ some delimiter := by
      cases cs with
      | nil => exact hq
      | cons d ds => exact hc
    rw [List.cons_append, literalBody_closing hb hc, literalBody_closing hb hcq]
  | plain c cs h₁ h₂ ih =>
    rw [literalBody_plain cs h₁ h₂] at h ⊢
    rw [List.cons_append, literalBody_plain _ h₁ h₂, ih h]
    rfl

end

/-! ## Inside a quoted name -/

theorem unquote_doubled (quote : Char) (cs : List Char) :
    unquote quote (quote :: quote :: cs) = (unquote quote cs).prepend [quote] := by
  simp [unquote]

theorem unquote_closing {quote : Char} {cs : List Char} (h : cs.head? ≠ some quote) :
    unquote quote (quote :: cs) = ⟨[], true, cs⟩ :=
  unquote_double quote [] cs h

theorem unquote_rest_of_open {quote : Char} {cs : List Char} (h : (unquote quote cs).closed = false) :
    (unquote quote cs).rest = [] := by
  fun_induction unquote quote cs with
  | case1 => rfl
  | case2 => cases h
  | case3 ds ih => exact ih h
  | case4 => cases h
  | case5 c cs _ ih => exact ih h

theorem unquote_append {quote : Char} {cs qs : List Char} (h : (unquote quote cs).closed = true)
    (hq : qs.head? ≠ some quote) :
    unquote quote (cs ++ qs) = { unquote quote cs with rest := (unquote quote cs).rest ++ qs } := by
  fun_induction unquote quote cs with
  | case1 => cases h
  | case2 => exact unquote_closing hq
  | case3 ds ih =>
    rw [List.cons_append, List.cons_append, unquote_doubled, ih h]
    rfl
  | case4 d ds hd =>
    rw [List.cons_append, unquote_closing (by simpa using hd)]
  | case5 c cs hc ih =>
    rw [List.cons_append, unquote_cons_of_ne _ hc, ih h]
    rfl

/-! ## Words -/

theorem word_append {p : Char → Bool} (cs : List Char) {qs : List Char} (hq : ∀ c ∈ qs.head?, p c = false) :
    (cs ++ qs).takeWhile p = cs.takeWhile p ∧ (cs ++ qs).dropWhile p = cs.dropWhile p ++ qs := by
  induction cs with
  | nil =>
    cases qs with
    | nil => exact ⟨rfl, rfl⟩
    | cons d ds => simp [hq d rfl]
  | cons c cs ih =>
    by_cases h : p c = true
    · simp [h, ih]
    · simp [h]

/-- A run of characters is read as a whole before one that does not belong to it. -/
theorem run_append {p : Char → Bool} {run rest : List Char} (hw : ∀ c ∈ run, p c = true)
    (hr : ∀ c ∈ rest.head?, p c = false) : run = (run ++ rest).takeWhile p ∧ rest = (run ++ rest).dropWhile p := by
  obtain ⟨ht, hd⟩ := word_append [] hr
  rw [List.takeWhile_append_of_pos hw, List.dropWhile_append_of_pos hw]
  exact ⟨by simpa using ht.symm, hd.symm⟩

/-! ## The next token, by its first character -/

def Token.isOpen : Token → Bool
  | .literal _ _ closed => !closed
  | .name _ closed => !closed
  | _ => false

theorem next_literal {quote c : Char} (h : opensLiteral quote c = true) (cs : List Char) :
    Token.next quote c cs =
      (.literal c (literalBody c cs).body (literalBody c cs).closed, (literalBody c cs).rest) := by
  unfold Token.next; rw [if_pos h]

theorem next_name (d : Dialect) (cs : List Char) :
    Token.next d.quote d.quote cs =
      (.name (unquote d.quote cs).body (unquote d.quote cs).closed, (unquote d.quote cs).rest) := by
  unfold Token.next; rw [opensLiteral_quote, if_neg Bool.false_ne_true, if_pos rfl]

theorem next_word (d : Dialect) {c : Char} (h : isWordChar c = true) (cs : List Char) :
    Token.next d.quote c cs = (.word (c :: cs.takeWhile isWordChar), cs.dropWhile isWordChar) := by
  unfold Token.next
  rw [opensLiteral_of_isWordChar h, if_neg Bool.false_ne_true, if_neg (ne_quote_of_isWordChar d h), if_pos h]

theorem next_symbol {quote c : Char} (h : isPlain quote c = true) (cs : List Char) :
    Token.next quote c cs = (.symbol c, cs) := by
  obtain ⟨hw, hl, hq⟩ := (isPlain_iff quote c).1 h
  unfold Token.next
  rw [hl, hw, if_neg Bool.false_ne_true, if_neg hq, if_neg Bool.false_ne_true]

theorem next_rest_of_open (d : Dialect) {c : Char} {cs : List Char}
    (h : (Token.next d.quote c cs).1.isOpen = true) : (Token.next d.quote c cs).2 = [] := by
  rcases char_kind d.quote c with hl | rfl | hw | hp
  · rw [next_literal hl] at h ⊢
    exact literalBody_rest_of_open (ne_backslash_of_opensLiteral hl) (by simpa [Token.isOpen] using h)
  · rw [next_name] at h ⊢
    exact unquote_rest_of_open (by simpa [Token.isOpen] using h)
  · rw [next_word d hw] at h; cases h
  · rw [next_symbol hp] at h; cases h

/-- The text goes on with a character that no token before it takes in, or not at all. -/
def Breaks (quote : Char) (qs : List Char) : Prop :=
  ∀ c ∈ qs.head?, isPlain quote c = true

theorem Breaks.nil (quote : Char) : Breaks quote [] := by
  intro c hc; cases hc

theorem Breaks.space (d : Dialect) (qs : List Char) : Breaks d.quote (' ' :: qs) := by
  intro c hc
  cases hc
  exact isPlain_space d

theorem Breaks.head?_ne {quote c : Char} {qs : List Char} (h : Breaks quote qs) (hc : isPlain quote c = false) :
    qs.head? ≠ some c := by
  intro hq
  have := h c hq
  rw [hc] at this
  cases this

theorem next_append (d : Dialect) {c : Char} {cs qs : List Char}
    (h : (Token.next d.quote c cs).1.isOpen = false) (hq : Breaks d.quote qs) :
    Token.next d.quote c (cs ++ qs) = ((Token.next d.quote c cs).1, (Token.next d.quote c cs).2 ++ qs) := by
  rcases char_kind d.quote c with hl | rfl | hw | hp
  · rw [next_literal hl] at h
    have hc : (literalBody c cs).closed = true := by simpa [Token.isOpen] using h
    have hn : qs.head? ≠ some c := hq.head?_ne (by simp [isPlain, hl])
    rw [next_literal hl, next_literal hl, literalBody_append (ne_backslash_of_opensLiteral hl) hc hn]
  · rw [next_name] at h
    have hc : (unquote d.quote cs).closed = true := by simpa [Token.isOpen] using h
    have hn : qs.head? ≠ some d.quote := hq.head?_ne (by simp [isPlain])
    rw [next_name, next_name, unquote_append hc hn]
  · rw [next_word d hw, next_word d hw]
    have hn : ∀ x ∈ qs.head?, isWordChar x = false := fun x hx => ((isPlain_iff _ _).1 (hq x hx)).1
    rw [(word_append cs hn).1, (word_append cs hn).2]
  · rw [next_symbol hp, next_symbol hp]

end SearchFilter.Query
