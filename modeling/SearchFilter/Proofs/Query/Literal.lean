import SearchFilter.Proofs.Query.Compose
import SearchFilter.Proofs.Query.Cut

/-!
# Literals that a dialect writes

Anchoring passes over a literal written by the same dialect, provided that its reader of literals
stops where the literal ends. In MySQL it always does. The literals of PostgreSQL have no escapes,
but the reader has them, so there it depends on the backslashes of the text and of what stands
before it.
-/

namespace SearchFilter.Query
open SearchFilter.Text

def escapes : Dialect → Bool
  | .mysql => true
  | .postgres => false

/-- From left to right, no backslash takes an apostrophe or the end of the text with it. -/
def backslashesHarmless : List Char → Bool
  | [] => true
  | c :: cs =>
    if c = '\\' then
      match cs with
      | [] => false
      | d :: ds => d ≠ '\'' && backslashesHarmless ds
    else backslashesHarmless cs

def written : Dialect → List Char → List Char
  | .mysql => List.flatMap Dialect.escape
  | .postgres => double '\''

theorem toList_quoteValue (d : Dialect) (s : String) :
    (d.quoteValue (.text s)).toList = '\'' :: (written d s.toList ++ ['\'']) := by
  cases d with
  | mysql => simp [Dialect.quoteValue, Dialect.quoteText, written]
  | postgres => simp [Dialect.quoteValue, Dialect.quoteText, written, enclose]

/-! ## The reader stops where the literal ends -/

theorem Inside.append {q : Char} {as bs : List Char} (ha : Inside q as) (hb : Inside q bs) : Inside q (as ++ bs) := by
  induction ha with
  | nil => exact hb
  | escape c _ ih => exact .escape c ih
  | doubled _ ih => exact .doubled ih
  | plain h₁ h₂ _ ih => exact .plain h₁ h₂ ih

theorem inside_escape (c : Char) : Inside '\'' (Dialect.escape c) := by
  unfold Dialect.escape
  split
  case h_8 _ _ _ _ hb hq _ => exact .plain hb hq .nil
  all_goals exact .escape _ .nil

theorem inside_flatMap_escape (cs : List Char) : Inside '\'' (cs.flatMap Dialect.escape) := by
  induction cs with
  | nil => exact .nil
  | cons c cs ih =>
    rw [List.flatMap_cons]
    exact (inside_escape c).append ih

theorem inside_double {cs : List Char} (h : backslashesHarmless cs = true) : Inside '\'' (double '\'' cs) := by
  fun_induction backslashesHarmless cs with
  | case1 => exact .nil
  | case2 => cases h
  | case3 d ds ih =>
    simp only [Bool.and_eq_true, decide_eq_true_eq] at h
    obtain ⟨hd, hs⟩ := h
    simp only [double, hd, if_false]
    exact .escape d (ih hs)
  | case4 c cs hc ih =>
    by_cases hq : c = '\''
    · subst hq
      simp only [double, if_true]
      exact .doubled (ih h)
    · simp only [double, if_neg hq]
      exact .plain hc hq (ih h)

theorem inside_written {d : Dialect} {cs : List Char} (h : d = .mysql ∨ backslashesHarmless cs = true) :
    Inside '\'' (written d cs) := by
  cases d with
  | mysql => exact inside_flatMap_escape cs
  | postgres => exact inside_double (h.resolve_left Dialect.noConfusion)

theorem opensLiteral_apostrophe (quote : Char) : opensLiteral quote '\'' = true :=
  (opensLiteral_iff quote '\'').2 (Or.inl rfl)

section
variable (d : Dialect) (column replacement : String)

theorem anchorChars_written {cs ts : List Char} (h : d = .mysql ∨ backslashesHarmless cs = true)
    (ht : ts.head? ≠ some '\'') :
    anchorChars d column replacement ('\'' :: (written d cs ++ '\'' :: ts)) =
      '\'' :: (written d cs ++ '\'' :: anchorChars d column replacement ts) := by
  refine anchorChars_literal d column replacement (opensLiteral_apostrophe d.quote) ?_
  rw [(inside_written h).literalBody_append (by decide), literalBody_closing (by decide) ht]
  simp [Enclosed.prepend]

/-- A text that is empty or ends in a space, and leaves nothing open. -/
theorem anchorChars_written_between {ps cs ts : List Char} (h : d = .mysql ∨ backslashesHarmless cs = true)
    (hp : ps = [] ∨ ps.getLast? = some ' ') (hm : Mode.after true d.quote .outside ps = .outside)
    (ht : ts.head? ≠ some '\'') :
    anchorChars d column replacement (ps ++ '\'' :: (written d cs ++ '\'' :: ts)) =
      anchorChars d column replacement ps ++ '\'' :: (written d cs ++ '\'' :: anchorChars d column replacement ts) := by
  rcases hp with rfl | hp
  · rw [anchorChars_nil, List.nil_append, List.nil_append, anchorChars_written d column replacement h ht]
  · obtain ⟨qs, rfl⟩ := List.getLast?_eq_some_iff.1 hp
    rw [Mode.after_append] at hm
    have hq := Mode.eq_outside_of_space true d (Mode.proper_after true d.quote qs) hm
    rw [anchorChars_space d column replacement [] hq, List.append_assoc, List.singleton_append,
      anchorChars_space d column replacement _ hq, anchorChars_written d column replacement h ht, anchorChars_nil,
      List.append_assoc]
    rfl

end

/-! ## Where the reader misses the end -/

/-- In PostgreSQL, being outside or in a name where the literal goes on. -/
def Shifted (m : Mode) : Prop :=
  m = .outside ∨ m = .inName

section
variable {m : Mode}

theorem Shifted.step_of_ne (h : Shifted m) {c : Char} (hc : c ≠ '\'') :
    Shifted (m.step true Dialect.postgres.quote c) := by
  have ho : opensLiteral Dialect.postgres.quote c = false := by simp [opensLiteral, Dialect.quote, hc]
  rcases h with rfl | rfl
  · rw [Mode.step, ho, if_neg Bool.false_ne_true]
    split
    · exact Or.inr rfl
    · exact Or.inl rfl
  · rw [Mode.step]
    split
    · exact Or.inl rfl
    · exact Or.inr rfl

theorem Shifted.after_double (h : Shifted m) (cs : List Char) :
    Shifted (m.after true Dialect.postgres.quote (double '\'' cs)) := by
  induction cs generalizing m with
  | nil => exact h
  | cons c cs ih =>
    by_cases hc : c = '\''
    · subst hc
      simp only [double, if_true, Mode.after_cons]
      rcases h with rfl | rfl
      · exact ih (Or.inl rfl)
      · exact ih (Or.inr rfl)
    · simp only [double, if_neg hc, Mode.after_cons]
      exact ih (h.step_of_ne hc)

theorem Shifted.step_apostrophe (h : Shifted m) : m.step true Dialect.postgres.quote '\'' ≠ .outside := by
  rcases h with rfl | rfl <;> decide

theorem Shifted.after_written (h : Shifted m) (cs : List Char) :
    m.after true Dialect.postgres.quote (double '\'' cs ++ ['\'']) ≠ .outside := by
  rw [Mode.after_append]
  exact (h.after_double cs).step_apostrophe

end

theorem after_written_of_harmful {cs : List Char} (h : backslashesHarmless cs = false) :
    Mode.after true Dialect.postgres.quote (.inLiteral '\'') (double '\'' cs ++ ['\'']) ≠ .outside := by
  fun_induction backslashesHarmless cs with
  | case1 => cases h
  | case2 => decide
  | case3 d ds ih =>
    by_cases hd : d = '\''
    · subst hd
      -- the escape takes one apostrophe of the pair, and the other one closes
      exact Shifted.after_written (m := .outside) (Or.inl rfl) ds
    · have hs : backslashesHarmless ds = false := by simpa [hd] using h
      have hb : '\\' ≠ '\'' := by decide
      simp only [double, hd, hb, if_false, List.cons_append, Mode.after_cons]
      exact ih hs
  | case4 c cs hc ih =>
    by_cases hq : c = '\''
    · subst hq
      simp only [double, if_true, List.cons_append, Mode.after_cons]
      exact ih h
    · simp only [double, if_neg hq, List.cons_append, Mode.after_cons]
      have hs : Mode.step true Dialect.postgres.quote (.inLiteral '\'') c = .inLiteral '\'' := by
        simp [Mode.step, hc, hq]
      rw [hs]
      exact ih h

theorem eq_apostrophe_of_opensLiteral {c : Char} (h : opensLiteral Dialect.postgres.quote c = true) : c = '\'' :=
  ((opensLiteral_iff _ c).1 h).resolve_right fun ⟨_, h⟩ => h rfl

theorem after_literal_ne_outside {ps cs : List Char} (hp : ps = [] ∨ ps.getLast? = some ' ')
    (h : ¬ (Mode.after true Dialect.postgres.quote .outside ps = .outside ∧ backslashesHarmless cs = true)) :
    Mode.after true Dialect.postgres.quote .outside (ps ++ '\'' :: (double '\'' cs ++ ['\''])) ≠ .outside := by
  rw [Mode.after_append, Mode.after_cons]
  by_cases hm : Mode.after true Dialect.postgres.quote .outside ps = .outside
  · rw [hm]
    exact after_written_of_harmful (Bool.eq_false_iff.2 fun hs => h ⟨hm, hs⟩)
  · rcases hp with rfl | hp
    · exact absurd rfl hm
    · obtain ⟨qs, rfl⟩ := List.getLast?_eq_some_iff.1 hp
      have hproper := Mode.proper_after true Dialect.postgres.quote qs
      refine Shifted.after_written ?_ cs
      rw [Mode.after_append] at hm ⊢
      -- the apostrophe that opens the literal closes the one left open, or stands in a name
      cases hq : Mode.after true Dialect.postgres.quote .outside qs with
      | outside => rw [hq] at hm; exact absurd rfl hm
      | inLiteral δ =>
        rw [hq] at hproper
        rw [eq_apostrophe_of_opensLiteral hproper]
        exact Or.inl rfl
      | escaped δ =>
        rw [hq] at hproper
        rw [eq_apostrophe_of_opensLiteral hproper]
        exact Or.inl rfl
      | inName => exact Or.inr rfl

/-! ## What an open text takes with it -/

theorem length_le_length_double (q : Char) (cs : List Char) : cs.length ≤ (double q cs).length := by
  induction cs with
  | nil => exact Nat.le_refl _
  | cons c cs ih =>
    rw [double]
    split <;> simp only [List.length_cons] <;> omega

theorem length_text_le_of_mem {quote : Char} {t : Token} {ts : List Token} (h : t ∈ ts) :
    (t.text quote).length ≤ (textOf quote ts).length := by
  obtain ⟨us, vs, rfl⟩ := List.append_of_mem h
  simp only [textOf, List.flatMap_append, List.flatMap_cons, List.length_append]
  omega

/-- A column longer than the text is none of its tokens. -/
theorem not_mem_tokens {quote : Char} {w cs : List Char} (h : cs.length < w.length) :
    .word w ∉ tokens quote cs ∧ ∀ closed, .name w closed ∉ tokens quote cs := by
  have bound : ∀ t ∈ tokens quote cs, (t.text quote).length ≤ cs.length := by
    intro t ht
    rw [← textOf_tokens quote cs]
    exact length_text_le_of_mem ht
  constructor
  · intro ht
    exact absurd (bound _ ht) (Nat.not_le.2 h)
  · intro closed ht
    have hb := bound _ ht
    have hd := length_le_length_double quote w
    simp only [Token.text, List.length_cons, List.length_append] at hb
    omega

theorem anchorChars_of_long {d : Dialect} {w cs : List Char} (replacement : String) (h : cs.length < w.length) :
    anchorChars d (String.ofList w) replacement cs = cs := by
  have hw : (anchorOf d (String.ofList w) replacement).column = w := String.toList_ofList
  have hm := @not_mem_tokens d.quote w cs h
  rw [anchorChars, apply_eq_textOf, textOf_tokens]
  · rw [hw]; exact hm.1
  · rw [hw]; exact hm.2

theorem tokens_word (d : Dialect) {w : List Char} (hn : w ≠ []) (hw : ∀ c ∈ w, isWordChar c = true) :
    tokens d.quote w = [.word w] := by
  obtain ⟨c, cs, rfl⟩ := List.exists_cons_of_ne_nil hn
  have hcs : ∀ x ∈ cs, isWordChar x = true := fun x hx => hw x (List.mem_cons_of_mem c hx)
  rw [tokens, next_word d (hw c List.mem_cons_self), ← List.append_nil cs, List.takeWhile_append_of_pos hcs,
    List.dropWhile_append_of_pos hcs, List.dropWhile_nil, tokens]
  rfl

theorem anchorChars_word (d : Dialect) (column replacement : String) {w : List Char} (hn : w ≠ [])
    (hw : ∀ c ∈ w, isWordChar c = true) :
    anchorChars d column replacement w = if w = column.toList then replacement.toList else w := by
  rw [anchorChars, tokens_word d hn hw, apply_cons, Anchor.apply, List.append_nil]
  rfl

/-- What stands behind an open text is not anchored with the rest of it. -/
theorem exists_anchorChars_ne (d : Dialect) {ps ls : List Char}
    (h : Mode.after true d.quote .outside (ps ++ ls) ≠ .outside) :
    ∃ column replacement : String, ∃ ts : List Char, ts.head? = some ' ' ∧
      anchorChars d column replacement (ps ++ ls ++ ts) ≠
        anchorChars d column replacement ps ++ ls ++ anchorChars d column replacement ts := by
  let w := List.replicate ((ps ++ ls).length + 1) 'a'
  have hlen : w.length = (ps ++ ls).length + 1 := List.length_replicate
  have ha : ∀ c ∈ w, c = 'a' := fun c hc => List.eq_of_mem_replicate hc
  have hword : ∀ c ∈ w, isWordChar c = true := by
    intro c hc
    rw [ha c hc]
    decide
  have hne : w ≠ [] := by
    intro he
    rw [he] at hlen
    cases hlen
  have hsafe : ∀ c ∈ ' ' :: w, c ≠ '\\' ∧ opensLiteral d.quote c = false ∧ c ≠ d.quote := by
    intro c hc
    rcases List.mem_cons.1 hc with rfl | hc
    · obtain ⟨-, hl, hq⟩ := (isPlain_iff _ _).1 (isPlain_space d)
      exact ⟨by decide, hl, hq⟩
    · refine ⟨?_, opensLiteral_of_isWordChar (hword c hc), ne_quote_of_isWordChar d (hword c hc)⟩
      rw [ha c hc]
      decide
  refine ⟨String.ofList w, "", ' ' :: w, rfl, ?_⟩
  have hps : anchorChars d (String.ofList w) "" ps = ps := by
    refine anchorChars_of_long "" ?_
    rw [hlen, List.length_append]
    omega
  have hts : anchorChars d (String.ofList w) "" (' ' :: w) = [' '] := by
    rw [anchorChars_space_cons, anchorChars_word d _ "" hne hword, String.toList_ofList, if_pos rfl]
    rfl
  have hall : anchorChars d (String.ofList w) "" (ps ++ ls ++ ' ' :: w) = ps ++ ls ++ ' ' :: w := by
    obtain ⟨us, t, ht, ho, htw⟩ := tokens_of_open d h (Breaks.space d w) hsafe
    have hcolumn : (anchorOf d (String.ofList w) "").column = w := String.toList_ofList
    obtain ⟨hword, hname⟩ := @not_mem_tokens d.quote w (ps ++ ls) (by omega)
    rw [ht] at hword hname
    -- the tokens before the last one are too short, and the last one is a literal or too long
    have hlong : ∀ bs : List Char, bs ++ ' ' :: w ≠ w := by
      intro bs he
      have := congrArg List.length he
      simp only [List.length_append, List.length_cons] at this
      omega
    rw [anchorChars, apply_eq_textOf, textOf_tokens]
    · rw [hcolumn, htw]
      intro hm
      rcases List.mem_append.1 hm with hm | hm
      · exact hword (List.mem_append_left _ hm)
      · rw [List.mem_singleton] at hm
        cases t <;> simp [Token.extend, Token.isOpen] at hm ho
    · rw [hcolumn, htw]
      intro closed hm
      rcases List.mem_append.1 hm with hm | hm
      · exact hname closed (List.mem_append_left _ hm)
      · rw [List.mem_singleton] at hm
        cases t with
        | name body b =>
          simp only [Token.extend, Token.name.injEq] at hm
          exact hlong body hm.1.symm
        | literal => simp [Token.extend] at hm
        | word => cases ho
        | symbol => cases ho
  rw [hps, hts, hall]
  intro he
  have := congrArg List.length he
  simp only [List.length_append, List.length_cons, List.length_nil] at this hlen
  omega

/-! ## When a literal is passed over -/

theorem anchor_parts_iff (d : Dialect) (column replacement p l t : String) :
    anchor d column replacement (p ++ l ++ t) = anchor d column replacement p ++ l ++ anchor d column replacement t ↔
      anchorChars d column replacement (p.toList ++ l.toList ++ t.toList) =
        anchorChars d column replacement p.toList ++ l.toList ++ anchorChars d column replacement t.toList := by
  rw [← String.toList_inj, toList_anchor]
  simp only [String.toList_append, toList_anchor]

/-- What stands before a literal and behind it is anchored as if it stood alone, for every column
and every text behind, exactly if the dialect is MySQL or the reader of literals finds itself
outside of everything before the literal and no backslash in it does harm. -/
theorem anchor_quoteValue_iff (d : Dialect) (s p : String) (hp : p = "" ∨ p.toList.getLast? = some ' ')
    (hm : Mode.after (escapes d) d.quote .outside p.toList = .outside) :
    (∀ column replacement t : String, t = "" ∨ t.toList.head? = some ' ' →
      anchor d column replacement (p ++ d.quoteValue (.text s) ++ t) =
        anchor d column replacement p ++ d.quoteValue (.text s) ++ anchor d column replacement t) ↔
      d = .mysql ∨ (Mode.after true d.quote .outside p.toList = .outside ∧ backslashesHarmless s.toList = true) := by
  have hps : p.toList = [] ∨ p.toList.getLast? = some ' ' := by
    rcases hp with rfl | hp
    · exact Or.inl rfl
    · exact Or.inr hp
  constructor
  · intro h
    cases d with
    | mysql => exact Or.inl rfl
    | postgres =>
      refine Or.inr (Classical.byContradiction fun hc => ?_)
      have ho := after_literal_ne_outside hps hc
      obtain ⟨column, replacement, ts, ht, hne⟩ := exists_anchorChars_ne .postgres ho
      have := (anchor_parts_iff .postgres column replacement p _ (String.ofList ts)).1
        (h column replacement (String.ofList ts) (Or.inr (by rwa [String.toList_ofList])))
      rw [toList_quoteValue, String.toList_ofList] at this
      exact hne this
  · intro h column replacement t ht
    have hs : d = .mysql ∨ backslashesHarmless s.toList = true := h.imp_right And.right
    have hpm : Mode.after true d.quote .outside p.toList = .outside := by
      rcases h with rfl | h
      · exact hm
      · exact h.1
    have htt : t.toList.head? ≠ some '\'' := by
      rcases ht with rfl | ht
      · simp
      · rw [ht]
        decide
    rw [anchor_parts_iff, toList_quoteValue]
    simpa using anchorChars_written_between d column replacement hs hps hpm htt

/-- A text of apostrophes and backslashes behind a name and a comparison in PostgreSQL. -/
theorem anchor_quoteValue_iff_postgres :
    ("\"a\" = " = "" ∨ "\"a\" = ".toList.getLast? = some ' ') ∧
      Mode.after (escapes .postgres) Dialect.postgres.quote .outside "\"a\" = ".toList = .outside ∧
      ((∀ column replacement t : String, t = "" ∨ t.toList.head? = some ' ' →
        anchor .postgres column replacement ("\"a\" = " ++ Dialect.postgres.quoteValue (.text "'\\n''") ++ t) =
          anchor .postgres column replacement "\"a\" = " ++ Dialect.postgres.quoteValue (.text "'\\n''") ++
            anchor .postgres column replacement t) ↔
        Dialect.postgres = .mysql ∨ (Mode.after true Dialect.postgres.quote .outside "\"a\" = ".toList = .outside ∧
          backslashesHarmless "'\\n''".toList = true)) :=
  ⟨by decide, by decide, anchor_quoteValue_iff .postgres "'\\n''" "\"a\" = " (by decide) (by decide)⟩

/-- Behind a text that ends in a backslash, PostgreSQL has a column anchored inside a literal. -/
theorem anchor_postgres_backslash_ne :
    anchor .postgres "color" "a.color" ("" ++ Dialect.postgres.quoteValue (.text "\\") ++ " = 'color'") ≠
      anchor .postgres "color" "a.color" "" ++ Dialect.postgres.quoteValue (.text "\\") ++
        anchor .postgres "color" "a.color" " = 'color'" := by
  have hleft : anchor .postgres "color" "a.color" ("" ++ Dialect.postgres.quoteValue (.text "\\") ++ " = 'color'") =
      "'\\' = 'a.color'" := by decide +kernel
  have hright : anchor .postgres "color" "a.color" "" ++ Dialect.postgres.quoteValue (.text "\\") ++
      anchor .postgres "color" "a.color" " = 'color'" = "'\\' = 'color'" := by decide +kernel
  rw [hleft, hright]
  decide

end SearchFilter.Query
