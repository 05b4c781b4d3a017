import SearchFilter.Proofs.Query.Parts
import SearchFilter.Proofs.Query.Path

/-!
# Conditions that break off

A condition that leaves something open ends in a literal or a quoted name that is never closed.
Anchoring keeps such a tail as it is, but for one: the quoted name of the column without its last
quote is taken for a reference, and the quoted path stands in its place (`anchor_tail`).
-/

namespace SearchFilter.Query
open SearchFilter.Text

/-- What the condition has behind `before` is one literal or quoted name that is never closed. -/
def BreaksOff (d : Dialect) (before tail query : String) : Prop :=
  ∃ t : Token, t.isOpen = true ∧ t.text d.quote = tail.toList ∧ ReadsBetween d t before "" query

/-- The tail spells the column between quotes, but for the last one, and no dot stands before it. -/
def IsCutColumn (d : Dialect) (column before tail : String) : Prop :=
  tail.toList = d.quote :: double d.quote column.toList ∧ before.toList.getLast? ≠ some '.'

instance (d : Dialect) (column before tail : String) : Decidable (IsCutColumn d column before tail) :=
  inferInstanceAs (Decidable (_ ∧ _))

theorem double_inj {quote : Char} {as bs : List Char} (h : double quote as = double quote bs) : as = bs := by
  have hread : ∀ cs, (unquote quote (double quote cs)).body = cs := by
    intro cs
    have := unquote_double_append quote cs []
    rw [List.append_nil] at this
    simp [this, unquote]
  rw [← hread as, h, hread bs]

/-! ## Where a condition breaks off -/

section
variable {d : Dialect} {before tail query : String}

theorem BreaksOff.eq_append (h : BreaksOff d before tail query) : query = before ++ tail := by
  obtain ⟨t, -, ht, hread⟩ := h
  rw [← String.toList_inj, hread.toList_eq, ht]
  simp

/-- Every condition that leaves something open breaks off somewhere, and no other one does. -/
theorem exists_breaksOff_iff : (∃ before tail, BreaksOff d before tail query) ↔ ¬ IsWhole d query := by
  constructor
  · intro ⟨before, tail, t, ho, _, hread⟩ hw
    have hc := hw t (by rw [hread]; simp)
    rw [ho] at hc
    cases hc
  · intro hw
    rw [isWhole_iff] at hw
    obtain ⟨us, t, ht, ho, -⟩ := tokens_of_open d hw (Breaks.nil d.quote) (by simp)
    exact ⟨_, String.ofList (t.text d.quote), t, ho, by simp, readsBetween_of_tokens ht⟩

theorem isCutColumn_name (column before : String) {body : List Char}
    (ht : Token.text d.quote (.name body false) = tail.toList) :
    IsCutColumn d column before tail ↔ body = column.toList ∧ before.toList.getLast? ≠ some '.' := by
  have htext : tail.toList = d.quote :: double d.quote body := by
    rw [← ht]
    simp [Token.text, closing]
  rw [IsCutColumn, htext, List.cons_eq_cons, eq_self, true_and]
  exact and_congr_left' ⟨double_inj, congrArg (double d.quote)⟩

theorem not_isCutColumn_literal {column : String} {q : Char} {body : List Char} {closed : Bool}
    (hl : Readable d (.literal q body closed)) (ht : Token.text d.quote (.literal q body closed) = tail.toList) :
    ¬ IsCutColumn d column before tail := by
  intro ⟨htail, _⟩
  rw [← ht, Token.text, List.cons_eq_cons] at htail
  cases hl with
  | lexeme hl =>
    have hq := (opensLiteral_iff_mem d q).2 hl.literal_inside.1
    rw [htail.1, opensLiteral_quote] at hq
    cases hq

end

/-! ## What becomes of the tail -/

theorem Token.isDot_of_isOpen {t : Token} (h : t.isOpen = true) : t.isDot = false := by
  cases t with
  | literal q body closed => rfl
  | name body closed => rfl
  | word cs => rfl
  | symbol c => cases h

theorem rewritten_of_open {d : Dialect} {t : Token} {tail : String} (ho : t.isOpen = true) (hr : Readable d t)
    (ht : t.text d.quote = tail.toList) (column replacement before : String) :
    t.rewritten d column replacement before.toList [] =
      (if IsCutColumn d column before tail then d.quotePath replacement else tail).toList := by
  cases t with
  | literal q body closed =>
    rw [if_neg (not_isCutColumn_literal hr ht), ← ht]
    unfold Token.rewritten
    exact ite_self _
  | name body closed =>
    obtain rfl : closed = false := by simpa [Token.isOpen] using ho
    have hcut := isCutColumn_name column before ht
    unfold Token.rewritten
    by_cases hb : before.toList.getLast? = some '.'
    · have hdot : ¬ IsCutColumn d column before tail := fun hc => hc.2 hb
      rw [if_neg hdot, if_pos (Or.inl hb), ht]
    · have hbeside : ¬ (before.toList.getLast? = some '.' ∨ [].head? = some '.') := by simpa using hb
      rw [if_neg hbeside]
      by_cases hc : body = column.toList
      · rw [if_pos (hcut.2 ⟨hc, hb⟩)]
        exact if_pos hc
      · rw [if_neg fun h => hc (hcut.1 h).1, ← ht]
        exact if_neg hc
  | word cs => cases ho
  | symbol c => cases ho

theorem anchor_tail {d : Dialect} {before tail query : String} (h : BreaksOff d before tail query)
    (column replacement : String) :
    anchor d column replacement query = anchor d column replacement before ++
      if IsCutColumn d column before tail then d.quotePath replacement else tail := by
  obtain ⟨t, ho, ht, hread⟩ := h
  have hr : Readable d t := hread.fitting.readable t (by simp)
  have hend : anchor d column replacement "" = "" := by simp [anchor, tokens, Anchor.apply]
  rw [anchor_of_readsBetween hread (Token.isDot_of_isOpen ho), hend, String.append_empty, String.toList_empty,
    rewritten_of_open ho hr ht, String.ofList_toList]

/-- A long name between quotes does not end in this text. -/
theorem not_suffix_of_long {quote : Char} {cs xs : List Char} (hq : quote ≠ 'a') (hc : cs ≠ []) {n : Nat}
    (hn : cs.length ≤ n) : ¬ quote :: cs <:+ xs ++ quote :: (List.replicate n 'a' ++ [quote]) := by
  intro h
  have hshort : quote :: cs <:+ List.replicate n 'a' ++ [quote] := by
    apply List.suffix_of_suffix_length_le h
    · exact List.suffix_append_of_suffix (List.suffix_cons _ _)
    · simpa using hn
  rcases List.suffix_concat_iff.1 hshort with h | ⟨ts, hts, hsuffix⟩
  · cases h
  · cases ts with
    | nil =>
      simp only [List.nil_append, List.cons.injEq, true_and] at hts
      exact hc hts
    | cons t ts =>
      have hmem : t ∈ List.replicate n 'a' := hsuffix.subset List.mem_cons_self
      rw [List.cons_append, List.cons_eq_cons] at hts
      exact hq (hts.1.trans (List.eq_of_mem_replicate hmem))

theorem exists_not_suffix {d : Dialect} {column tail : String} (hc : column ≠ "")
    (ht : tail.toList = d.quote :: double d.quote column.toList) (out : String → String) :
    ∃ replacement, ¬ tail.toList <:+ (out replacement ++ d.quotePath replacement).toList := by
  refine ⟨String.ofList (List.replicate (double d.quote column.toList).length 'a'), ?_⟩
  have hq : d.quote ≠ 'a' := by
    cases d <;> decide
  have hne : double d.quote column.toList ≠ [] := by
    intro he
    have hcolumn : column.toList = [] := double_inj (he.trans (double.eq_1 d.quote).symm)
    exact hc (String.toList_eq_nil_iff.1 hcolumn)
  have hdot : '.' ∉ (String.ofList (List.replicate (double d.quote column.toList).length 'a')).toList := by
    rw [String.toList_ofList]
    exact fun hm => absurd (List.eq_of_mem_replicate hm) (by decide)
  have hname : ∀ n, double d.quote (List.replicate n 'a') = List.replicate n 'a' := by
    intro n
    induction n with
    | zero => rfl
    | succ n ih => simp [List.replicate_succ, double, hq.symm, ih]
  rw [quotePath_of_not_mem d hdot, String.toList_append, toList_quoteName, String.toList_ofList, ht, hname]
  exact not_suffix_of_long hq hne (Nat.le_refl _)

/-- Anchoring keeps a tail that is never closed whatever is put in the place of the column, unless the tail is
the column's name without its last quote. What is put in its place ends in a quote, so a tail of one quote is
found again where the column has no name at all. -/
theorem anchor_tail_iff {d : Dialect} {before tail query : String} (h : BreaksOff d before tail query)
    (column : String) :
    ((∀ replacement, tail.toList <:+ (anchor d column replacement query).toList) ↔
        column = "" ∨ ¬ IsCutColumn d column before tail) ∧
      ∀ replacement, anchor d column replacement query = anchor d column replacement before ++
        if IsCutColumn d column before tail then d.quotePath replacement else tail := by
  refine ⟨⟨fun hall => ?_, fun hcolumn replacement => ?_⟩, anchor_tail h column⟩
  · refine Classical.byContradiction fun hc => ?_
    rw [not_or, Classical.not_not] at hc
    obtain ⟨replacement, hne⟩ := exists_not_suffix hc.1 hc.2.1 (anchor d column · before)
    have hend := hall replacement
    rw [anchor_tail h column replacement, if_pos hc.2] at hend
    exact hne hend
  · rw [anchor_tail h column replacement, String.toList_append]
    by_cases hc : IsCutColumn d column before tail
    · obtain rfl : column = "" := hcolumn.resolve_right fun hn => hn hc
      obtain ⟨cs, hcs⟩ := List.getLast?_eq_some_iff.1 (getLast?_quotePath d replacement)
      rw [if_pos hc, hc.1, hcs, ← List.append_assoc]
      exact List.suffix_append _ _
    · rw [if_neg hc]
      exact List.suffix_append _ _

theorem breaksOff_color : BreaksOff .mysql "e.color = " "`color" "e.color = `color" :=
  ⟨.name "color".toList false, rfl, by decide, show tokens _ _ = _ by decide +kernel⟩

/-- The quoted name of the column, cut off behind a comparison. -/
theorem anchor_tail_iff_color :
    BreaksOff .mysql "e.color = " "`color" "e.color = `color" ∧
      ((∀ replacement, "`color".toList <:+ (anchor .mysql "color" replacement "e.color = `color").toList) ↔
          "color" = "" ∨ ¬ IsCutColumn .mysql "color" "e.color = " "`color") ∧
        ∀ replacement, anchor .mysql "color" replacement "e.color = `color" =
          anchor .mysql "color" replacement "e.color = " ++
            if IsCutColumn .mysql "color" "e.color = " "`color" then Dialect.mysql.quotePath replacement else "`color" :=
  ⟨breaksOff_color, anchor_tail_iff breaksOff_color "color"⟩

/-- The tail is replaced, and its quote closed. -/
theorem anchor_cut_column_ne :
    BreaksOff .mysql "" "`color" "`color" ∧ ¬ "`color".toList <:+ (anchor .mysql "color" "a.color" "`color").toList := by
  have hout : anchor .mysql "color" "a.color" "`color" = "`a`.`color`" := by decide +kernel
  refine ⟨⟨.name "color".toList false, rfl, by decide, show tokens _ _ = _ by decide +kernel⟩, ?_⟩
  rw [hout]
  decide

end SearchFilter.Query
