import SearchFilter.Proofs.Query.Mode
import SearchFilter.Query.Anchor

/-!
# Conditions put together

A space behind a text that ends outside of everything separates it from the text that follows,
for the tokens and for anchoring (`anchorChars_space`). Behind a text that ends inside, all that
follows belongs to its last token (`tokens_of_open`).
-/

namespace SearchFilter.Query
open SearchFilter.Text

def anchorChars (d : Dialect) (column replacement : String) (cs : List Char) : List Char :=
  (anchorOf d column replacement).apply d.quote false (tokens d.quote cs)

theorem toList_anchor (d : Dialect) (column replacement query : String) :
    (anchor d column replacement query).toList = anchorChars d column replacement query.toList := by
  rw [anchor, String.toList_ofList]; rfl

theorem anchorChars_nil (d : Dialect) (column replacement : String) : anchorChars d column replacement [] = [] := by
  rw [anchorChars, tokens]; rfl

/-! ## A space between two texts -/

theorem tokens_space (d : Dialect) {ps : List Char} (qs : List Char)
    (h : Mode.after true d.quote .outside ps = .outside) :
    tokens d.quote (ps ++ ' ' :: qs) = tokens d.quote ps ++ .symbol ' ' :: tokens d.quote qs := by
  rw [tokens_append d h (Breaks.space d qs)]
  congr 1
  rw [tokens, next_symbol (isPlain_space d)]

theorem apply_cons (a : Anchor) (quote : Char) (afterDot : Bool) (t : Token) (ts : List Token) :
    a.apply quote afterDot (t :: ts) =
      (if (afterDot || ts.head?.any Token.isDot) = true then t.text quote else a.replace quote t) ++
        a.apply quote t.isDot ts := rfl

theorem apply_space (a : Anchor) (quote : Char) (us vs : List Token) (afterDot : Bool) :
    a.apply quote afterDot (us ++ .symbol ' ' :: vs) = a.apply quote afterDot us ++ ' ' :: a.apply quote false vs := by
  induction us generalizing afterDot with
  | nil =>
    rw [List.nil_append, apply_cons]
    have hs : (if (afterDot || vs.head?.any Token.isDot) = true then Token.text quote (.symbol ' ')
        else a.replace quote (.symbol ' ')) = [' '] := by
      split <;> rfl
    rw [hs]
    rfl
  | cons u us ih =>
    rw [List.cons_append, apply_cons, apply_cons, ih, List.append_assoc]
    cases us with
    | nil => rfl
    | cons v us => rfl

theorem anchorChars_space (d : Dialect) (column replacement : String) {ps : List Char} (qs : List Char)
    (h : Mode.after true d.quote .outside ps = .outside) :
    anchorChars d column replacement (ps ++ ' ' :: qs) =
      anchorChars d column replacement ps ++ ' ' :: anchorChars d column replacement qs := by
  rw [anchorChars, tokens_space d qs h, apply_space]
  rfl

theorem anchorChars_space_cons (d : Dialect) (column replacement : String) (qs : List Char) :
    anchorChars d column replacement (' ' :: qs) = ' ' :: anchorChars d column replacement qs := by
  have hnil : Mode.after true d.quote .outside [] = .outside := rfl
  have h := anchorChars_space d column replacement qs hnil
  rwa [anchorChars_nil, List.nil_append, List.nil_append] at h

/-- A literal at the start of a text is kept. -/
theorem anchorChars_literal (d : Dialect) (column replacement : String) {q : Char} {body cs : List Char}
    (hq : opensLiteral d.quote q = true) (hb : literalBody q (body ++ q :: cs) = ⟨body, true, cs⟩) :
    anchorChars d column replacement (q :: (body ++ q :: cs)) =
      q :: (body ++ q :: anchorChars d column replacement cs) := by
  rw [anchorChars, tokens, next_literal hq, hb, apply_cons]
  have hs : (if (false || (tokens d.quote cs).head?.any Token.isDot) = true then
      Token.text d.quote (.literal q body true)
      else (anchorOf d column replacement).replace d.quote (.literal q body true)) = q :: (body ++ [q]) := by
    split <;> rfl
  rw [hs, List.cons_append, List.append_assoc]
  rfl

/-! ## Nothing to anchor -/

theorem textOf_cons (quote : Char) (t : Token) (ts : List Token) :
    textOf quote (t :: ts) = t.text quote ++ textOf quote ts := List.flatMap_cons

theorem textOf_append (quote : Char) (us ts : List Token) :
    textOf quote (us ++ ts) = textOf quote us ++ textOf quote ts := List.flatMap_append

def Token.names (column : List Char) : Token → Bool
  | .word cs => cs = column
  | .name body _ => body = column
  | _ => false

theorem eq_of_names {column : List Char} {t : Token} (h : t.names column = true) :
    t = .word column ∨ ∃ closed, t = .name column closed := by
  cases t with
  | word cs => exact Or.inl (congrArg Token.word (by simpa [Token.names] using h))
  | name body closed => exact Or.inr ⟨closed, congrArg (Token.name · closed) (by simpa [Token.names] using h)⟩
  | literal => cases h
  | symbol => cases h

/-- Each token that is the column has a dot beside it. -/
def Settled (column : List Char) : Bool → List Token → Prop
  | _, [] => True
  | afterDot, t :: ts =>
    (t.names column = true → (afterDot || ts.head?.any Token.isDot) = true) ∧ Settled column t.isDot ts

theorem replace_of_not_names {a : Anchor} (quote : Char) {t : Token} (h : t.names a.column = false) :
    a.replace quote t = t.text quote := by
  cases t with
  | word cs => exact if_neg fun hc => by simp [Token.names, hc] at h
  | name body closed => exact if_neg fun hc => by simp [Token.names, hc] at h
  | literal => rfl
  | symbol => rfl

theorem apply_of_settled (a : Anchor) (quote : Char) {ts : List Token} {afterDot : Bool}
    (h : Settled a.column afterDot ts) : a.apply quote afterDot ts = textOf quote ts := by
  induction ts generalizing afterDot with
  | nil => rfl
  | cons t ts ih =>
    rw [apply_cons, ih h.2, textOf_cons]
    congr 1
    cases hn : t.names a.column with
    | true => exact if_pos (h.1 hn)
    | false => rw [replace_of_not_names quote hn, ite_self]

theorem settled_of_not_mem {column : List Char} {ts : List Token} (hw : .word column ∉ ts)
    (hn : ∀ closed, .name column closed ∉ ts) (afterDot : Bool) : Settled column afterDot ts := by
  induction ts generalizing afterDot with
  | nil => trivial
  | cons t ts ih =>
    refine ⟨fun ht => ?_, ih (fun h => hw (List.mem_cons_of_mem t h)) (fun b h => hn b (List.mem_cons_of_mem t h)) _⟩
    rcases eq_of_names ht with rfl | ⟨closed, rfl⟩
    · exact absurd List.mem_cons_self hw
    · exact absurd List.mem_cons_self (hn closed)

theorem apply_eq_textOf (a : Anchor) (quote : Char) {ts : List Token} (hw : .word a.column ∉ ts)
    (hn : ∀ closed, .name a.column closed ∉ ts) (afterDot : Bool) : a.apply quote afterDot ts = textOf quote ts :=
  apply_of_settled a quote (settled_of_not_mem hw hn afterDot)

/-! ## Behind what is never closed -/

def Token.extend (cs : List Char) : Token → Token
  | .literal q body closed => .literal q (body ++ cs) closed
  | .name body closed => .name (body ++ cs) closed
  | t => t

theorem literalBody_open_append {q : Char} (hq : q ≠ '\\') {cs rs : List Char}
    (h : (literalBody q cs).closed = false) (hr : ∀ c ∈ rs, c ≠ '\\' ∧ c ≠ q) :
    literalBody q (cs ++ rs) = ⟨(literalBody q cs).body ++ rs, false, []⟩ := by
  have plain : ∀ rs : List Char, (∀ c ∈ rs, c ≠ '\\' ∧ c ≠ q) → literalBody q rs = ⟨rs, false, []⟩ := by
    intro rs hr
    induction rs with
    | nil => rfl
    | cons c rs ih =>
      obtain ⟨h₁, h₂⟩ := hr c List.mem_cons_self
      rw [literalBody_plain rs h₁ h₂, ih fun x hx => hr x (List.mem_cons_of_mem c hx)]
      rfl
  induction cs using literal_induction q with
  | nil => exact plain rs hr
  | backslash =>
    cases rs with
    | nil => rfl
    | cons c rs =>
      show literalBody q ('\\' :: c :: rs) = _
      rw [literalBody_escape, plain rs fun x hx => hr x (List.mem_cons_of_mem c hx)]
      rfl
  | escape c cs ih =>
    rw [literalBody_escape] at h ⊢
    rw [List.cons_append, List.cons_append, literalBody_escape, ih h]
    rfl
  | doubled cs ih =>
    rw [literalBody_doubled hq] at h ⊢
    rw [List.cons_append, List.cons_append, literalBody_doubled hq, ih h]
    rfl
  | closing cs hc => rw [literalBody_closing hq hc] at h; cases h
  | plain c cs h₁ h₂ ih =>
    rw [literalBody_plain cs h₁ h₂] at h ⊢
    rw [List.cons_append, literalBody_plain _ h₁ h₂, ih h]
    rfl

theorem unquote_open_append {quote : Char} {cs rs : List Char} (h : (unquote quote cs).closed = false)
    (hr : quote ∉ rs) : unquote quote (cs ++ rs) = ⟨(unquote quote cs).body ++ rs, false, []⟩ := by
  fun_induction unquote quote cs with
  | case1 =>
    show unquote quote rs = ⟨rs, false, []⟩
    induction rs with
    | nil => rfl
    | cons c rs ih =>
      rw [List.mem_cons, not_or] at hr
      rw [unquote_cons_of_ne _ (Ne.symm hr.1), ih hr.2]
      rfl
  | case2 => cases h
  | case3 ds ih =>
    rw [List.cons_append, List.cons_append, unquote_doubled, ih h]
    rfl
  | case4 => cases h
  | case5 c cs hc ih =>
    rw [List.cons_append, unquote_cons_of_ne _ hc, ih h]
    rfl

theorem next_open_append (d : Dialect) {c : Char} {cs rs : List Char}
    (h : (Token.next d.quote c cs).1.isOpen = true)
    (hr : ∀ x ∈ rs, x ≠ '\\' ∧ opensLiteral d.quote x = false ∧ x ≠ d.quote) :
    Token.next d.quote c (cs ++ rs) = ((Token.next d.quote c cs).1.extend rs, []) := by
  rcases char_kind d.quote c with hl | rfl | hw | hp
  · rw [next_literal hl] at h ⊢
    have hrs : ∀ x ∈ rs, x ≠ '\\' ∧ x ≠ c := by
      intro x hx
      refine ⟨(hr x hx).1, ?_⟩
      rintro rfl
      have := (hr x hx).2.1
      rw [hl] at this
      cases this
    have hc : (literalBody c cs).closed = false := by simpa [Token.isOpen] using h
    rw [next_literal hl, literalBody_open_append (ne_backslash_of_opensLiteral hl) hc hrs, hc]
    rfl
  · rw [next_name] at h ⊢
    have hc : (unquote d.quote cs).closed = false := by simpa [Token.isOpen] using h
    rw [next_name, unquote_open_append hc fun hx => (hr _ hx).2.2 rfl, hc]
    rfl
  · rw [next_word d hw] at h; cases h
  · rw [next_symbol hp] at h; cases h

/-- The last token of a text that ends inside takes all that follows, as long as that has nothing
which could close it. -/
theorem tokens_of_open (d : Dialect) {cs rs : List Char} (h : Mode.after true d.quote .outside cs ≠ .outside)
    (hb : Breaks d.quote rs) (hr : ∀ x ∈ rs, x ≠ '\\' ∧ opensLiteral d.quote x = false ∧ x ≠ d.quote) :
    ∃ us t, tokens d.quote cs = us ++ [t] ∧ t.isOpen = true ∧ tokens d.quote (cs ++ rs) = us ++ [t.extend rs] := by
  fun_induction tokens d.quote cs with
  | case1 => exact absurd rfl h
  | case2 c cs ih =>
    rw [List.cons_append, tokens]
    cases ho : (Token.next d.quote c cs).1.isOpen with
    | true =>
      refine ⟨[], (Token.next d.quote c cs).1, ?_, ho, ?_⟩
      · rw [next_rest_of_open d ho, tokens]; rfl
      · rw [next_open_append d ho hr, tokens]; rfl
    | false =>
      rw [after_of_closed d ho] at h
      obtain ⟨us, t, hu, hto, hur⟩ := ih h
      rw [next_append d ho hb, hu, hur]
      exact ⟨(Token.next d.quote c cs).1 :: us, t, rfl, hto, rfl⟩

end SearchFilter.Query
