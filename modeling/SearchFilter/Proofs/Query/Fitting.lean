import SearchFilter.Proofs.Query.Compose
import SearchFilter.Proofs.Query.Cut

/-!
# Tokens read back

Tokens of which each ends where the next one begins are read back from their text
(`tokens_textOf`), and what is read from a text is of this kind (`fitting_tokens`). So a list of
tokens may be taken apart or put together, and is still what its text is cut into.
-/

namespace SearchFilter.Query
open SearchFilter.Text

/-! ## Where a token ends -/

inductive Readable (d : Dialect) : Token → Prop
  | lexeme {t : Token} : Lexeme d t → Readable d t
  | cutName (body : List Char) : Readable d (.name body false)

def Token.EndsBefore (quote : Char) : Token → Option Char → Prop
  | .literal δ _ true, next? => next? ≠ some δ
  | .name _ true, next? => next? ≠ some quote
  | .word _, next? => ∀ c ∈ next?, isWordChar c = false
  | .symbol _, _ => True
  | .literal _ _ false, next? => next? = none
  | .name _ false, next? => next? = none

/-- Each token ends where the next one begins. -/
def Fitting (d : Dialect) : List Token → Prop
  | [] => True
  | t :: ts => Readable d t ∧ t.EndsBefore d.quote (textOf d.quote ts).head? ∧ Fitting d ts

section
variable {d : Dialect} {t : Token} {rest : List Char}

/-- A lexeme is read as itself in front of every text before which it ends. -/
theorem Lexeme.next_text_append (h : Lexeme d t) (he : t.EndsBefore d.quote rest.head?) :
    ∃ c cs, t.text d.quote = c :: cs ∧ Token.next d.quote c (cs ++ rest) = (t, rest) := by
  cases t with
  | literal q body closed =>
    obtain ⟨hq, hb⟩ := h.literal_inside
    refine ⟨q, body ++ closing q closed, rfl, ?_⟩
    rw [next_literal ((opensLiteral_iff_mem d q).2 hq)]
    cases closed with
    | true =>
      cases h with
      | literal _ _ hi =>
        have hn := ne_backslash_of_mem hq
        have hclose : literalBody q (q :: rest) = ⟨[], true, rest⟩ := literalBody_closing hn he
        rw [List.append_assoc, hi.literalBody_append hn]
        show (Token.literal q ((literalBody q (q :: rest)).prepend body).body _, _) = _
        rw [Enclosed.prepend_body, Enclosed.prepend_closed]
        simp [closing, hclose]
    | false =>
      obtain rfl : rest = [] := List.head?_eq_none_iff.1 he
      rw [List.append_nil, hb]
  | name body closed =>
    cases h
    refine ⟨d.quote, double d.quote body ++ closing d.quote true, rfl, ?_⟩
    rw [next_name, List.append_assoc]
    show (Token.name (unquote d.quote (double d.quote body ++ d.quote :: rest)).body _, _) = _
    simp [closing, unquote_double d.quote body rest he]
  | word cs =>
    cases h with
    | word hn hw =>
      obtain ⟨c, cs, rfl⟩ := List.exists_cons_of_ne_nil hn
      have hcs : ∀ x ∈ cs, isWordChar x = true := fun x hx => hw x (List.mem_cons_of_mem c hx)
      obtain ⟨htake, hdrop⟩ := run_append hcs he
      refine ⟨c, cs, rfl, ?_⟩
      rw [next_word d (hw c List.mem_cons_self), ← htake, ← hdrop]
  | symbol c =>
    cases h with
    | symbol hl hq hw =>
      have hlit : opensLiteral d.quote c = false :=
        Bool.eq_false_iff.2 fun h => hl ((opensLiteral_iff_mem d c).1 h)
      exact ⟨c, [], rfl, next_symbol ((isPlain_iff _ _).2 ⟨hw, hlit, hq⟩) rest⟩

theorem Readable.next_text_append (h : Readable d t) (he : t.EndsBefore d.quote rest.head?) :
    ∃ c cs, t.text d.quote = c :: cs ∧ Token.next d.quote c (cs ++ rest) = (t, rest) := by
  cases h with
  | lexeme h => exact h.next_text_append he
  | cutName body =>
    obtain rfl : rest = [] := List.head?_eq_none_iff.1 he
    refine ⟨d.quote, double d.quote body, by simp [Token.text, closing], ?_⟩
    rw [next_name, unquote_double_append]
    simp [unquote, Enclosed.prepend]

end

theorem tokens_textOf {d : Dialect} {ts : List Token} (h : Fitting d ts) : tokens d.quote (textOf d.quote ts) = ts := by
  induction ts with
  | nil => rw [textOf, List.flatMap_nil, tokens]
  | cons t ts ih =>
    obtain ⟨ht, he, hts⟩ := h
    obtain ⟨c, cs, htext, hnext⟩ := ht.next_text_append he
    rw [textOf_cons, htext, List.cons_append, tokens, hnext, ih hts]

/-! ## What is read fits together -/

theorem head?_literalBody_rest {q : Char} (hq : q ≠ '\\') {cs : List Char} (h : (literalBody q cs).closed = true) :
    (literalBody q cs).rest.head? ≠ some q := by
  induction cs using literal_induction q with
  | nil => cases h
  | backslash => cases h
  | escape c cs ih => rw [literalBody_escape] at h ⊢; exact ih h
  | doubled cs ih => rw [literalBody_doubled hq] at h ⊢; exact ih h
  | closing cs hc => rw [literalBody_closing hq hc]; exact hc
  | plain c cs h₁ h₂ ih => rw [literalBody_plain cs h₁ h₂] at h ⊢; exact ih h

theorem head?_unquote_rest {quote : Char} {cs : List Char} (h : (unquote quote cs).closed = true) :
    (unquote quote cs).rest.head? ≠ some quote := by
  fun_induction unquote quote cs with
  | case1 => cases h
  | case2 => simp
  | case3 ds ih => exact ih h
  | case4 d ds hd => simpa using hd
  | case5 c cs _ ih => exact ih h

section
variable (d : Dialect) (c : Char) (cs : List Char)

theorem readable_next : Readable d (Token.next d.quote c cs).1 := by
  by_cases h : ∃ body, (Token.next d.quote c cs).1 = .name body false
  · obtain ⟨body, hb⟩ := h
    rw [hb]
    exact .cutName body
  · exact .lexeme (lexeme_next d c cs fun body hb => h ⟨body, hb⟩)

theorem endsBefore_next : (Token.next d.quote c cs).1.EndsBefore d.quote (Token.next d.quote c cs).2.head? := by
  rcases char_kind d.quote c with hl | rfl | hw | hp
  · rw [next_literal hl]
    have hn := ne_backslash_of_opensLiteral hl
    cases hc : (literalBody c cs).closed with
    | true => exact head?_literalBody_rest hn hc
    | false => exact List.head?_eq_none_iff.2 (literalBody_rest_of_open hn hc)
  · rw [next_name]
    cases hc : (unquote d.quote cs).closed with
    | true => exact head?_unquote_rest hc
    | false => exact List.head?_eq_none_iff.2 (unquote_rest_of_open hc)
  · rw [next_word d hw]
    intro x hx
    have hn := List.head?_dropWhile_not isWordChar cs
    rw [hx] at hn
    exact hn
  · rw [next_symbol hp]
    trivial

end

theorem fitting_tokens (d : Dialect) (cs : List Char) : Fitting d (tokens d.quote cs) := by
  fun_induction tokens d.quote cs with
  | case1 => trivial
  | case2 c cs ih =>
    refine ⟨readable_next d c cs, ?_, ih⟩
    rw [textOf_tokens]
    exact endsBefore_next d c cs

/-! ## Taken apart -/

theorem Readable.exists_text_eq_cons {d : Dialect} {t : Token} (h : Readable d t) :
    ∃ c cs, t.text d.quote = c :: cs := by
  cases h with
  | lexeme h =>
    obtain ⟨c, cs, ht, -⟩ := h.next_text
    exact ⟨c, cs, ht⟩
  | cutName body => exact ⟨d.quote, double d.quote body ++ [], rfl⟩

section
variable {d : Dialect} {us vs : List Token} {t : Token}

theorem Fitting.readable {ts : List Token} (h : Fitting d ts) : ∀ u ∈ ts, Readable d u := by
  induction ts with
  | nil => intro u hu; cases hu
  | cons t ts ih =>
    intro u hu
    rcases List.mem_cons.1 hu with rfl | hu
    · exact h.1
    · exact ih h.2.2 u hu

theorem Fitting.of_append (h : Fitting d (us ++ vs)) : Fitting d vs := by
  induction us with
  | nil => exact h
  | cons u us ih => exact ih h.2.2

/-- A token with something behind it is closed, and would also end at the end of the text. -/
theorem Token.EndsBefore.closed {quote c : Char} (h : t.EndsBefore quote (some c)) :
    t.isOpen = false ∧ t.EndsBefore quote none := by
  cases t with
  | literal q body closed =>
    cases closed with
    | true => simp [Token.isOpen, EndsBefore]
    | false => cases h
  | name body closed =>
    cases closed with
    | true => simp [Token.isOpen, EndsBefore]
    | false => cases h
  | word cs => simp [Token.isOpen, EndsBefore]
  | symbol c => simp [Token.isOpen, EndsBefore]

theorem Fitting.before (h : Fitting d (us ++ t :: vs)) : Fitting d us ∧ ∀ u ∈ us, u.isOpen = false := by
  induction us with
  | nil => simp [Fitting]
  | cons u us ih =>
    obtain ⟨hus, hclosed⟩ := ih h.2.2
    have he : u.EndsBefore d.quote (textOf d.quote (us ++ t :: vs)).head? := h.2.1
    have hends : u.isOpen = false ∧ u.EndsBefore d.quote (textOf d.quote us).head? := by
      cases us with
      | nil =>
        have ht : Readable d t := h.2.2.1
        obtain ⟨c, cs, hc⟩ := ht.exists_text_eq_cons
        rw [List.nil_append, textOf_cons, hc] at he
        exact he.closed
      | cons v us =>
        have hv : Readable d v := h.2.2.1
        obtain ⟨c, cs, hc⟩ := hv.exists_text_eq_cons
        rw [List.cons_append, textOf_cons, hc] at he
        rw [textOf_cons, hc]
        exact ⟨he.closed.1, he⟩
    refine ⟨⟨h.1, hends.2, hus⟩, ?_⟩
    intro v hv
    rcases List.mem_cons.1 hv with rfl | hv
    · exact hends.1
    · exact hclosed v hv

/-- What stands before a token and what stands behind it is cut as if it stood alone. -/
theorem tokens_around {cs : List Char} (h : tokens d.quote cs = us ++ t :: vs) :
    tokens d.quote (textOf d.quote us) = us ∧ tokens d.quote (textOf d.quote vs) = vs := by
  have hfit := fitting_tokens d cs
  rw [h] at hfit
  exact ⟨tokens_textOf hfit.before.1, tokens_textOf (Fitting.of_append hfit).2.2⟩

end

/-! ## Dots at the ends -/

section
variable {d : Dialect} {t : Token} {ts : List Token}

theorem Readable.isDot_iff_head (h : Readable d t) (cs : List Char) :
    t.isDot = true ↔ (t.text d.quote ++ cs).head? = some '.' := by
  cases h with
  | lexeme h => exact h.isDot_iff_head cs
  | cutName body => simp [Token.isDot, Token.text, (dot_ne_quote d).symm]

theorem Readable.lexeme_of_closed (h : Readable d t) (ho : t.isOpen = false) : Lexeme d t := by
  cases h with
  | lexeme h => exact h
  | cutName body => cases ho

theorem head?_isDot_iff (h : Fitting d ts) :
    ts.head?.any Token.isDot = true ↔ (textOf d.quote ts).head? = some '.' := by
  cases ts with
  | nil => simp [textOf]
  | cons t ts => rw [List.head?_cons, Option.any_some, textOf_cons, h.1.isDot_iff_head]

theorem getLast?_isDot_iff (h : Fitting d ts) (hc : ∀ t ∈ ts, t.isOpen = false) :
    ts.getLast?.elim false Token.isDot = true ↔ (textOf d.quote ts).getLast? = some '.' := by
  rcases List.eq_nil_or_concat ts with rfl | ⟨us, t, rfl⟩
  · simp [textOf]
  · have ht : t ∈ us.concat t := by simp
    rw [List.concat_eq_append] at *
    rw [List.getLast?_concat, Option.elim_some, textOf_append, textOf_cons]
    have := ((h.readable t ht).lexeme_of_closed (hc t ht)).isDot_iff_getLast (hc t ht) (textOf d.quote us)
    simpa [textOf] using this

end

end SearchFilter.Query
