import SearchFilter.Proofs.Query.Mode
import SearchFilter.Query.Anchor

/-!
# The cut of a condition

A cut takes from left to right the longest token that fits, where literals may run to the end of
the text and quoted names may not. A condition whose quoted names are all closed has exactly one
cut, and anchoring a column replaces tokens of that cut.
-/

namespace SearchFilter.Query
open SearchFilter.Text

def literalQuotes : Dialect → List Char
  | .mysql => ['\'', '"']
  | .postgres => ['\'']

/-- Pairs of a backslash and any character, doubled delimiters, and other characters. -/
inductive Inside (delimiter : Char) : List Char → Prop
  | nil : Inside delimiter []
  | escape (c : Char) {cs : List Char} : Inside delimiter cs → Inside delimiter ('\\' :: c :: cs)
  | doubled {cs : List Char} : Inside delimiter cs → Inside delimiter (delimiter :: delimiter :: cs)
  | plain {c : Char} {cs : List Char} :
      c ≠ '\\' → c ≠ delimiter → Inside delimiter cs → Inside delimiter (c :: cs)

/-- The tokens of a dialect. Only a literal may lack its end, and then a single backslash may be
the last character. -/
inductive Lexeme (d : Dialect) : Token → Prop
  | literal {q : Char} {body : List Char} (closed : Bool) :
      q ∈ literalQuotes d → Inside q body → Lexeme d (.literal q body closed)
  | cutEscape {q : Char} {body : List Char} :
      q ∈ literalQuotes d → Inside q body → Lexeme d (.literal q (body ++ ['\\']) false)
  | name (body : List Char) : Lexeme d (.name body true)
  | word {cs : List Char} : cs ≠ [] → (∀ c ∈ cs, isWordChar c = true) → Lexeme d (.word cs)
  | symbol {c : Char} : c ∉ literalQuotes d → c ≠ d.quote → isWordChar c = false → Lexeme d (.symbol c)

def Fits (d : Dialect) (t : Token) (cs rest : List Char) : Prop :=
  Lexeme d t ∧ cs = t.text d.quote ++ rest ∧ (t.isOpen = true → rest = [])

/-- The longest token that fits, and then a cut of the rest. -/
inductive Cut (d : Dialect) : List Char → List Token → Prop
  | nil : Cut d [] []
  | cons {t : Token} {cs rest : List Char} {ts : List Token} : Fits d t cs rest →
      (∀ u after, Fits d u cs after → rest.length ≤ after.length) → Cut d rest ts → Cut d cs (t :: ts)

/-- What stands for a token between these two texts. -/
def Token.rewritten (d : Dialect) (column replacement : String) (before behind : List Char) (t : Token) : List Char :=
  if before.getLast? = some '.' ∨ behind.head? = some '.' then t.text d.quote
  else
    match t with
    | .word cs => if cs = column.toList then replacement.toList else cs
    | .name body closed =>
      if body = column.toList then (d.quotePath replacement).toList else Token.text d.quote (.name body closed)
    | t => t.text d.quote

def rewritten (d : Dialect) (column replacement : String) (before : List Char) : List Token → List Char
  | [] => []
  | t :: ts =>
    t.rewritten d column replacement before (textOf d.quote ts) ++
      rewritten d column replacement (before ++ t.text d.quote) ts

theorem opensLiteral_iff_mem (d : Dialect) (c : Char) : opensLiteral d.quote c = true ↔ c ∈ literalQuotes d := by
  rw [opensLiteral_iff]
  cases d with
  | mysql => simp [literalQuotes, Dialect.quote]
  | postgres => simp [literalQuotes, Dialect.quote]

theorem ne_backslash_of_mem {d : Dialect} {q : Char} (h : q ∈ literalQuotes d) : q ≠ '\\' :=
  ne_backslash_of_opensLiteral ((opensLiteral_iff_mem d q).2 h)

/-! ## Lexemes are what the scanner reads -/

theorem prepend_prepend (as bs : List Char) (e : Enclosed) : (e.prepend bs).prepend as = e.prepend (as ++ bs) := by
  simp [Enclosed.prepend]

theorem Inside.literalBody_append {q : Char} (hq : q ≠ '\\') {body : List Char} (h : Inside q body)
    (cs : List Char) : literalBody q (body ++ cs) = (literalBody q cs).prepend body := by
  induction h with
  | nil => rfl
  | escape c _ ih => rw [List.cons_append, List.cons_append, literalBody_escape, ih, prepend_prepend]; rfl
  | doubled _ ih => rw [List.cons_append, List.cons_append, literalBody_doubled hq, ih, prepend_prepend]; rfl
  | plain hb hd _ ih => rw [List.cons_append, literalBody_plain _ hb hd, ih, prepend_prepend]; rfl

theorem unquote_double_append (quote : Char) (body cs : List Char) :
    unquote quote (double quote body ++ cs) = (unquote quote cs).prepend body := by
  induction body with
  | nil => rfl
  | cons c body ih =>
    by_cases hc : c = quote
    · subst hc
      simp only [double, if_true, List.cons_append]
      rw [unquote_doubled, ih, prepend_prepend]
      rfl
    · simp only [double, if_neg hc, List.cons_append]
      rw [unquote_cons_of_ne _ hc, ih, prepend_prepend]
      rfl

theorem literalBody_delimiter_length_le {q : Char} (hq : q ≠ '\\') (cs : List Char) :
    (literalBody q (q :: cs)).rest.length ≤ cs.length := by
  by_cases h : cs.head? = some q
  · obtain ⟨ds, rfl⟩ := List.head?_eq_some_iff.1 h
    rw [literalBody_doubled hq]
    exact Nat.le_succ_of_le (literalBody_rest_length_le q ds)
  · simp only [literalBody_closing hq h, Nat.le_refl]

theorem unquote_quote_length_le (quote : Char) (cs : List Char) :
    (unquote quote (quote :: cs)).rest.length ≤ cs.length := by
  by_cases h : cs.head? = some quote
  · obtain ⟨ds, rfl⟩ := List.head?_eq_some_iff.1 h
    rw [unquote_doubled]
    exact Nat.le_succ_of_le (unquote_rest_length_le quote ds)
  · simp only [unquote_closing h, Nat.le_refl]

section
variable {d : Dialect} {t : Token} {rest : List Char}

theorem Lexeme.literal_inside {q : Char} {body : List Char} {closed : Bool}
    (h : Lexeme d (.literal q body closed)) :
    q ∈ literalQuotes d ∧ literalBody q (body ++ closing q closed) = ⟨body, closed, []⟩ := by
  cases h with
  | literal _ hq hb =>
    refine ⟨hq, ?_⟩
    have hn := ne_backslash_of_mem hq
    cases closed with
    | true =>
      rw [hb.literalBody_append hn]
      show (literalBody q [q]).prepend body = _
      rw [literalBody_closing hn (by simp)]
      simp [Enclosed.prepend]
    | false =>
      rw [hb.literalBody_append hn]
      simp [closing, literalBody, Enclosed.prepend]
  | cutEscape hq hb =>
    refine ⟨hq, ?_⟩
    simp only [closing, Bool.false_eq_true, if_false, List.append_nil]
    rw [hb.literalBody_append (ne_backslash_of_mem hq)]
    rfl

/-- A lexeme alone is read as itself. -/
theorem Lexeme.next_text (h : Lexeme d t) :
    ∃ c cs, t.text d.quote = c :: cs ∧ Token.next d.quote c cs = (t, []) := by
  cases t with
  | literal q body closed =>
    obtain ⟨hq, hb⟩ := h.literal_inside
    refine ⟨q, body ++ closing q closed, rfl, ?_⟩
    rw [next_literal ((opensLiteral_iff_mem d q).2 hq), hb]
  | name body closed =>
    cases h
    refine ⟨d.quote, double d.quote body ++ closing d.quote true, rfl, ?_⟩
    have hu : unquote d.quote (closing d.quote true) = ⟨[], true, []⟩ := unquote_closing (by simp)
    rw [next_name, unquote_double_append, hu]
    simp [Enclosed.prepend]
  | word cs =>
    cases h with
    | word hn hw =>
      cases cs with
      | nil => exact absurd rfl hn
      | cons c cs =>
        refine ⟨c, cs, rfl, ?_⟩
        have hcs : ∀ x ∈ cs, isWordChar x = true := fun x hx => hw x (List.mem_cons_of_mem c hx)
        rw [next_word d (hw c List.mem_cons_self), ← List.append_nil cs, List.takeWhile_append_of_pos hcs,
          List.dropWhile_append_of_pos hcs]
        rfl
  | symbol c =>
    cases h with
    | symbol hl hq hw =>
      refine ⟨c, [], rfl, next_symbol ?_ []⟩
      exact (isPlain_iff _ _).2 ⟨hw, Bool.eq_false_iff.2 fun h => hl ((opensLiteral_iff_mem d c).1 h), hq⟩

/-- What is read goes at least as far as any lexeme that fits. -/
theorem Lexeme.rest_length_le (h : Lexeme d t) (ho : t.isOpen = true → rest = []) {c : Char} {cs : List Char}
    (htext : c :: cs = t.text d.quote ++ rest) : (Token.next d.quote c cs).2.length ≤ rest.length := by
  cases t with
  | literal q body closed =>
    obtain ⟨rfl, rfl⟩ : c = q ∧ cs = body ++ (closing q closed ++ rest) := by simpa [Token.text] using htext
    obtain ⟨hq, hb⟩ := h.literal_inside
    rw [next_literal ((opensLiteral_iff_mem d c).2 hq)]
    cases closed with
    | true =>
      cases h with
      | literal _ _ hi =>
        rw [hi.literalBody_append (ne_backslash_of_mem hq)]
        exact literalBody_delimiter_length_le (ne_backslash_of_mem hq) rest
    | false =>
      obtain rfl := ho rfl
      simp only [List.append_nil, hb, Nat.le_refl]
  | name body closed =>
    cases h
    obtain ⟨rfl, rfl⟩ : c = d.quote ∧ cs = double d.quote body ++ (closing d.quote true ++ rest) := by
      simpa [Token.text] using htext
    rw [next_name, unquote_double_append]
    exact unquote_quote_length_le d.quote rest
  | word ws =>
    cases h with
    | word hn hw =>
      obtain ⟨w, ws, rfl⟩ := List.exists_cons_of_ne_nil hn
      obtain ⟨rfl, rfl⟩ : c = w ∧ cs = ws ++ rest := by simpa [Token.text] using htext
      rw [next_word d (hw c List.mem_cons_self),
        List.dropWhile_append_of_pos fun x hx => hw x (List.mem_cons_of_mem c hx)]
      exact (List.dropWhile_suffix isWordChar).length_le
  | symbol s =>
    obtain ⟨rfl, rfl⟩ : c = s ∧ cs = rest := by simpa [Token.text] using htext
    exact Token.next_rest_length_le d.quote c cs

theorem Lexeme.eq_of_text {u : Token} (ht : Lexeme d t) (hu : Lexeme d u) (h : t.text d.quote = u.text d.quote) :
    t = u := by
  obtain ⟨c, cs, htc, htn⟩ := ht.next_text
  obtain ⟨c', cs', huc, hun⟩ := hu.next_text
  rw [htc, huc] at h
  obtain ⟨rfl, rfl⟩ := List.cons.inj h
  rw [hun] at htn
  exact (Prod.mk.inj htn).1.symm

end

/-! ## The scanner reads lexemes -/

theorem inside_of_literalBody {q : Char} (hq : q ≠ '\\') (cs : List Char) :
    Inside q (literalBody q cs).body ∨
      (literalBody q cs).closed = false ∧ ∃ body, (literalBody q cs).body = body ++ ['\\'] ∧ Inside q body := by
  induction cs using literal_induction q with
  | nil => exact Or.inl .nil
  | backslash => exact Or.inr ⟨rfl, [], rfl, .nil⟩
  | escape c cs ih =>
    rw [literalBody_escape]
    rcases ih with h | ⟨ho, body, hb, h⟩
    · exact Or.inl (.escape c h)
    · exact Or.inr ⟨ho, '\\' :: c :: body, by rw [Enclosed.prepend_body, hb]; rfl, .escape c h⟩
  | doubled cs ih =>
    rw [literalBody_doubled hq]
    rcases ih with h | ⟨ho, body, hb, h⟩
    · exact Or.inl (.doubled h)
    · exact Or.inr ⟨ho, q :: q :: body, by rw [Enclosed.prepend_body, hb]; rfl, .doubled h⟩
  | closing cs hc =>
    rw [literalBody_closing hq hc]
    exact Or.inl .nil
  | plain c cs h₁ h₂ ih =>
    rw [literalBody_plain cs h₁ h₂]
    rcases ih with h | ⟨ho, body, hb, h⟩
    · exact Or.inl (.plain h₁ h₂ h)
    · exact Or.inr ⟨ho, c :: body, by rw [Enclosed.prepend_body, hb]; rfl, .plain h₁ h₂ h⟩

section
variable (d : Dialect) (c : Char) (cs : List Char)

theorem lexeme_next (h : ∀ body, (Token.next d.quote c cs).1 ≠ .name body false) :
    Lexeme d (Token.next d.quote c cs).1 := by
  rcases char_kind d.quote c with hl | rfl | hw | hp
  · rw [next_literal hl]
    have hq := (opensLiteral_iff_mem d c).1 hl
    rcases inside_of_literalBody (ne_backslash_of_mem hq) cs with hi | ⟨ho, body, hb, hi⟩
    · exact .literal _ hq hi
    · rw [ho, hb]
      exact .cutEscape hq hi
  · rw [next_name] at h ⊢
    cases hc : (unquote d.quote cs).closed with
    | true => exact .name _
    | false => exact absurd (by rw [hc]) (h _)
  · rw [next_word d hw]
    refine .word (by simp) fun x hx => ?_
    rcases List.mem_cons.1 hx with rfl | hx
    · exact hw
    · exact List.all_eq_true.1 List.all_takeWhile x hx
  · rw [next_symbol hp]
    obtain ⟨hw, hl, hq⟩ := (isPlain_iff _ _).1 hp
    exact .symbol (fun h => by rw [(opensLiteral_iff_mem d c).2 h] at hl; cases hl) hq hw

theorem fits_next (h : ∀ body, (Token.next d.quote c cs).1 ≠ .name body false) :
    Fits d (Token.next d.quote c cs).1 (c :: cs) (Token.next d.quote c cs).2 :=
  ⟨lexeme_next d c cs h, (Token.next_text d.quote c cs).symm, next_rest_of_open d⟩

end

theorem Fits.length_lt {d : Dialect} {t : Token} {cs rest : List Char} (h : Fits d t cs rest) :
    rest.length < cs.length := by
  obtain ⟨hl, rfl, -⟩ := h
  obtain ⟨c, ds, ht, -⟩ := hl.next_text
  rw [ht, List.length_append, List.length_cons]
  omega

theorem Fits.longest {d : Dialect} {u : Token} {c : Char} {cs after : List Char} (h : Fits d u (c :: cs) after) :
    (Token.next d.quote c cs).2.length ≤ after.length :=
  h.1.rest_length_le h.2.2 h.2.1

/-! ## One cut -/

theorem cut_tokens (d : Dialect) {cs : List Char} (h : Mode.after true d.quote .outside cs ≠ .inName) :
    Cut d cs (tokens d.quote cs) := by
  fun_induction tokens d.quote cs with
  | case1 => exact .nil
  | case2 c cs ih =>
    have hn : ∀ body, (Token.next d.quote c cs).1 ≠ .name body false := by
      intro body hb
      have ho := @after_of_open d c cs (by rw [hb]; rfl)
      rw [hb] at ho
      exact h ho
    refine .cons (fits_next d c cs hn) (fun u after hu => hu.longest) (ih ?_)
    cases ho : (Token.next d.quote c cs).1.isOpen with
    | true =>
      rw [next_rest_of_open d ho]
      simp
    | false => rwa [← after_of_closed d ho]

theorem Cut.unique {d : Dialect} {cs : List Char} {ts us : List Token} (ht : Cut d cs ts) (hu : Cut d cs us) :
    ts = us := by
  induction ht generalizing us with
  | nil =>
    cases hu with
    | nil => rfl
    | cons hf _ _ => exact absurd hf.length_lt (by simp)
  | @cons t cs rest ts hf hl hc ih =>
    cases hu with
    | nil => exact absurd hf.length_lt (by simp)
    | @cons u _ rest' us hf' hl' hc' =>
      have hlen : rest.length = rest'.length := Nat.le_antisymm (hl _ _ hf') (hl' _ _ hf)
      obtain ⟨htext, rfl⟩ := List.append_inj' (hf.2.1.symm.trans hf'.2.1) hlen
      rw [hf.1.eq_of_text hf'.1 htext, ih hc']

theorem Cut.textOf_eq {d : Dialect} {cs : List Char} {ts : List Token} (h : Cut d cs ts) : textOf d.quote ts = cs := by
  induction h with
  | nil => rfl
  | cons hf _ _ ih =>
    rw [textOf, List.flatMap_cons, ← textOf, ih]
    exact hf.2.1.symm

/-! ## Anchoring on the cut -/

theorem Lexeme.isDot_iff_head {d : Dialect} {t : Token} (h : Lexeme d t) (cs : List Char) :
    t.isDot = true ↔ (t.text d.quote ++ cs).head? = some '.' := by
  obtain ⟨c, ds, ht, hn⟩ := h.next_text
  rw [ht, List.cons_append, List.head?_cons, Option.some.injEq]
  constructor
  · intro hd
    obtain rfl : t = .symbol '.' := by simpa [Token.isDot] using hd
    exact (List.cons.inj ht).1.symm
  · rintro rfl
    rw [next_symbol (by cases d <;> decide)] at hn
    rw [← (Prod.mk.inj hn).1]
    rfl

theorem Lexeme.isDot_iff_getLast {d : Dialect} {t : Token} (h : Lexeme d t) (ho : t.isOpen = false) (cs : List Char) :
    t.isDot = true ↔ (cs ++ t.text d.quote).getLast? = some '.' := by
  cases h with
  | @literal q body closed hq hb =>
    obtain rfl : closed = true := by simpa [Token.isOpen] using ho
    have hne : q ≠ '.' := by
      rintro rfl
      cases d <;> simp [literalQuotes] at hq
    have ht : cs ++ Token.text d.quote (.literal q body true) = (cs ++ q :: body) ++ [q] := by
      simp [Token.text, closing]
    rw [ht, List.getLast?_concat]
    simp [Token.isDot, hne]
  | cutEscape => cases ho
  | name body =>
    have hne : d.quote ≠ '.' := (dot_ne_quote d).symm
    have ht : cs ++ Token.text d.quote (.name body true) = (cs ++ d.quote :: double d.quote body) ++ [d.quote] := by
      simp [Token.text, closing]
    rw [ht, List.getLast?_concat]
    simp [Token.isDot, hne]
  | @word ws hn hw =>
    have hne : ws.getLast hn ≠ '.' := by
      intro he
      have := hw _ (List.getLast_mem hn)
      rw [he] at this
      exact absurd this (by decide)
    rw [Token.text, List.getLast?_append, List.getLast?_eq_some_getLast hn]
    simp [Token.isDot, hne]
  | symbol =>
    rw [Token.text, List.getLast?_concat]
    simp [Token.isDot]

theorem Cut.head?_isDot {d : Dialect} {cs : List Char} {ts : List Token} (h : Cut d cs ts) :
    ts.head?.any Token.isDot = true ↔ cs.head? = some '.' := by
  cases h with
  | nil => simp
  | cons hf _ _ =>
    rw [List.head?_cons, Option.any_some, hf.1.isDot_iff_head, ← hf.2.1]

/-- Anchoring asks for a dot beside the token, which is the last character before it or the first one behind. -/
theorem piece_eq_rewritten {d : Dialect} (column replacement : String) {before behind : List Char} {besideDot : Bool}
    (h : besideDot = true ↔ before.getLast? = some '.' ∨ behind.head? = some '.') (t : Token) :
    (if besideDot = true then t.text d.quote
      else Anchor.replace ⟨column.toList, replacement.toList, (d.quotePath replacement).toList⟩ d.quote t) =
      t.rewritten d column replacement before behind := by
  unfold Token.rewritten
  by_cases hb : before.getLast? = some '.' ∨ behind.head? = some '.'
  · rw [if_pos (h.2 hb), if_pos hb]
  · rw [if_neg (fun hd => hb (h.1 hd)), if_neg hb]
    cases t <;> rfl

theorem Cut.apply_eq_rewritten {d : Dialect} (column replacement : String) {cs : List Char} {ts : List Token}
    (h : Cut d cs ts) {before : List Char} {afterDot : Bool} (hd : afterDot = true ↔ before.getLast? = some '.') :
    Anchor.apply ⟨column.toList, replacement.toList, (d.quotePath replacement).toList⟩ d.quote afterDot ts =
      rewritten d column replacement before ts := by
  induction h generalizing before afterDot with
  | nil => rfl
  | @cons t cs rest ts hf hl hc ih =>
    rw [Anchor.apply, SearchFilter.Query.rewritten, hc.textOf_eq]
    have hdots : (afterDot || ts.head?.any Token.isDot) = true ↔ before.getLast? = some '.' ∨ rest.head? = some '.' := by
      rw [Bool.or_eq_true, hd, hc.head?_isDot]
    rw [piece_eq_rewritten column replacement hdots]
    congr 1
    -- what follows an open token is empty, so its last character does not matter
    cases ho : t.isOpen with
    | true =>
      obtain rfl := hf.2.2 ho
      cases hc with
      | nil => rfl
      | cons hf' _ _ => exact absurd hf'.length_lt (by simp)
    | false => exact ih (hf.1.isDot_iff_getLast ho before)

/-- A condition whose quoted names are all closed has exactly one cut, and anchoring rewrites its
words and quoted names that are the column and have no dot beside them. -/
theorem anchor_eq_rewritten (d : Dialect) (column replacement query : String)
    (h : Mode.after true d.quote .outside query.toList ≠ .inName) :
    ∃ ts, Cut d query.toList ts ∧ (∀ us, Cut d query.toList us → us = ts) ∧
      (anchor d column replacement query).toList = rewritten d column replacement [] ts := by
  have hc := cut_tokens d h
  refine ⟨tokens d.quote query.toList, hc, fun us hu => hu.unique hc, ?_⟩
  rw [anchor, String.toList_ofList]
  exact hc.apply_eq_rewritten column replacement (by simp)

/-- A doubled quote in a name, an escaped delimiter, a dot before a name, a literal without end. -/
theorem anchor_eq_rewritten_mysql :
    Mode.after true Dialect.mysql.quote .outside "`a``b`='\\'`' AND t.`a``b`<\"x".toList ≠ .inName ∧
      ∃ ts, Cut .mysql "`a``b`='\\'`' AND t.`a``b`<\"x".toList ts ∧
        (∀ us, Cut .mysql "`a``b`='\\'`' AND t.`a``b`<\"x".toList us → us = ts) ∧
        (anchor .mysql "a`b" "t.c" "`a``b`='\\'`' AND t.`a``b`<\"x").toList = rewritten .mysql "a`b" "t.c" [] ts :=
  have h : Mode.after true Dialect.mysql.quote .outside "`a``b`='\\'`' AND t.`a``b`<\"x".toList ≠ .inName := by
    decide
  ⟨h, anchor_eq_rewritten .mysql "a`b" "t.c" _ h⟩

example : anchor .mysql "a`b" "t.c" "`a``b`='\\'`' AND t.`a``b`<\"x" = "`t`.`c`='\\'`' AND t.`a``b`<\"x" := by
  decide +kernel

end SearchFilter.Query
