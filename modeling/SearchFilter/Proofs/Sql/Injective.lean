import SearchFilter.Proofs.Sql.RoundTrip

/-!
# One query for each text

Two queries made of names, values, equalities and calls have the same text only if they are the
same query. No name and no text in one of them can be taken for a part of the query around it.
-/

namespace SearchFilter.Sql

inductive ReadsSelect (d : Dialect) : Select → List Char → Prop
  | mk {s : Select} {having : Option Expr} {cs mid : List Char} :
      ReadsHead d s cs mid → Optional (Behind " HAVING " (ReadsCondition d)) having mid [] →
      ReadsSelect d { s with having } cs

theorem ReadsSelect.unique {d : Dialect} {s t : Select} {cs : List Char} (h : ReadsSelect d s cs)
    (k : ReadsSelect d t cs) : s = t := by
  cases h with
  | mk hh hc =>
    cases k with
    | mk kh kc =>
      obtain ⟨rfl, rfl⟩ := ReadsHead.unique hh kh
      obtain ⟨rfl, -⟩ := Optional.unique (Behind.unique ReadsCondition.unique) hc kc
      rfl

def Select.isReadable (s : Select) : Bool :=
  s.isPlain && s.having.all Expr.isCondition

theorem toList_text_having (d : Dialect) (s : Select) :
    (s.text d).toList =
      ({ s with having := none }.text d).toList ++ (clause " HAVING " (s.having.map (Expr.text d))).toList := by
  simp [Select.text, clause]

theorem readsSelect_text (d : Dialect) {s : Select} (hs : s.isReadable = true) : ReadsSelect d s (s.text d).toList := by
  obtain ⟨hp, hh⟩ := Bool.and_eq_true_iff.1 hs
  -- what stands behind the head is a condition or nothing, and with it the text ends
  have hr : Continues headEnd ((clause " HAVING " (s.having.map (Expr.text d))).toList ++ []) :=
    (continues_clause " HAVING " _ (Or.inl rfl : Continues [")"] [])).mono (by decide)
  have hhead : ReadsHead d { s with having := none } _ _ := readsHead_text d hp rfl hr
  have hhaving : Optional (Behind " HAVING " (ReadsCondition d)) s.having _ [] :=
    Optional.of_clause (by simp) fun e he => readsCondition_text d ((Option.all_eq_true _ _).1 hh e he) (Or.inl rfl)
  have h := ReadsSelect.mk hhead hhaving
  rwa [List.append_nil, ← toList_text_having] at h

theorem text_eq_text_iff {d : Dialect} {s t : Select} (hs : s.isReadable = true) (ht : t.isReadable = true) :
    s.text d = t.text d ↔ s = t := by
  constructor
  · intro h
    have hr := readsSelect_text d ht
    rw [← h] at hr
    exact (readsSelect_text d hs).unique hr
  · rintro rfl
    rfl

def oneName : Select where
  columns := [.named (.column none "a`.`b") "x` AS `y", .call "NULL" []]
  source := none
  joins := []
  condition := some (.equal (.value (.text "1') AND ('1' = '1")) (.value .null))
  having := some (.equal (.column none ") HAVING (") (.value (.int (-1))))

def twoNames : Select :=
  { oneName with columns := [.named (.column (some "a") "b") "x` AS `y", .call "NULL" []] }

theorem text_eq_text_iff_names :
    oneName.isReadable = true ∧ twoNames.isReadable = true ∧ oneName.text .mysql ≠ twoNames.text .mysql := by
  have h₁ : oneName.isReadable = true := by decide
  have h₂ : twoNames.isReadable = true := by decide
  refine ⟨h₁, h₂, fun h => ?_⟩
  cases (text_eq_text_iff h₁ h₂).1 h

end SearchFilter.Sql
