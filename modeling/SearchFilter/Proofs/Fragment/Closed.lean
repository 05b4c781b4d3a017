import SearchFilter.Proofs.Fragment.Failure
import SearchFilter.Proofs.Fragment.Membership
import SearchFilter.Proofs.Sql.Closed

/-!
# Closed fragments

A fragment is put between other conditions of the search query, so nothing may be open at its end.
Names and values are quoted or escaped, and the condition that comes from the caller is anchored,
prefixed or put in brackets, none of which opens or closes anything.
-/

namespace SearchFilter
open Query Sql Dialect

/-- Anchoring reads literals with escapes, which is the rule of the dialect or makes no difference. -/
theorem Dialect.IsClosed.anchor {d : Dialect} {query : String} (h : d.IsClosed query)
    (hb : d = .postgres → '\\' ∉ query.toList) (column : String) {replacement : String}
    (hr : d.IsClosed replacement) : d.IsClosed (Query.anchor d column replacement query) := by
  refine Closed.anchor h ?_ column hr
  cases d with
  | mysql => exact Or.inl rfl
  | postgres => exact Or.inr (hb rfl)

namespace Fragment

/-! ## Sub-selects -/

theorem mem_verbatim_setHaving {s : Select} {e : Expr} {t : String} (h : t ∈ (s.setHaving e).verbatim) :
    t ∈ s.verbatim ∨ t ∈ e.verbatim := by
  simp only [Select.verbatim, Select.setHaving, Option.toList_some, List.flatMap_singleton, List.mem_append] at h ⊢
  rcases h with h | h
  · exact Or.inl (Or.inl h)
  · exact Or.inr h

theorem Membership.text_eq_brackets (d : Dialect) (m : Membership) :
    m.text d = "search_index.entity_id IN " ++
      ("(" ++ ("SELECT entity_id FROM " ++ ("(" ++ m.select.text d ++ ")") ++ " AS filter" ++
        clause " WHERE " m.around) ++ ")") := by
  unfold Membership.text
  generalize m.select.text d = select
  generalize clause " WHERE " m.around = condition
  rw [← String.toList_inj]
  simp

section
variable {d : Dialect}

theorem Membership.isClosed_text {m : Membership} (hs : ∀ t ∈ m.select.verbatim, d.IsClosed t)
    (ha : ∀ t ∈ m.around, d.IsClosed t) : d.IsClosed (m.text d) := by
  have hopening : d.IsClosed ("SELECT entity_id FROM " ++ ("(" ++ m.select.text d ++ ")")) :=
    .append (.of_isPlainText (by decide)) (isClosed_text_select hs).brackets
  rw [m.text_eq_brackets]
  refine .append (.of_isPlainText (by decide)) (IsClosed.brackets ?_)
  exact (hopening.append (.of_isPlainText (by decide))).append (isClosed_clause (by decide) ha)

theorem isClosed_amongEntities {query : String} (hq : d.IsClosed query) {s : Select}
    (hs : ∀ t ∈ s.verbatim, d.IsClosed t) : d.IsClosed (amongEntities d s query) := by
  rw [amongEntities_eq]
  cases d with
  | mysql =>
    refine Membership.isClosed_text (fun t ht => ?_) nofun
    rcases mem_verbatim_setHaving ht with ht | ht
    · exact hs t ht
    · rw [List.mem_singleton.1 ht]
      exact hq.brackets
  | postgres =>
    refine Membership.isClosed_text hs fun t ht => ?_
    cases ht
    exact hq.brackets

end

theorem verbatim_indexedValues (c : Catalog) (field identifier : String) (a : Attribute) :
    (indexedValues c field identifier a).verbatim = [] := rfl

theorem verbatim_storedValues (c : Catalog) (d : Dialect) (field link : String) (a : Attribute) :
    (storedValues c d field link a).verbatim = [d.ifNull] := rfl

/-! ## Comparisons -/

section
variable (d : Dialect) {tableAlias : String} (ha : d.IsClosed tableAlias)

theorem isClosed_comparison (negated : Bool) (operand : Operand) : d.IsClosed (comparison d negated operand) := by
  cases operand with
  | one v =>
    have hsign : d.IsClosed (if negated then "!= " else "= ") := .of_isPlainText (by cases negated <;> decide)
    exact hsign.append (.quoteValue d v)
  | set vs =>
    have hword : d.IsClosed (if negated then "NOT IN " else "IN ") := .of_isPlainText (by cases negated <;> decide)
    have hvalues : d.IsClosed (",".intercalate (vs.map d.quoteValue)) := by
      refine .intercalate (.of_isPlainText (by decide)) fun t ht => ?_
      obtain ⟨v, -, rfl⟩ := List.mem_map.1 ht
      exact .quoteValue d v
    have htext : comparison d negated (.set vs) =
        (if negated then "NOT IN " else "IN ") ++ ("(" ++ ",".intercalate (vs.map d.quoteValue) ++ ")") := by
      rw [← String.toList_inj]
      cases negated <;> simp [comparison]
    rw [htext]
    exact hword.append hvalues.brackets

include ha

theorem isClosed_terms (operand : Operand) (negated : Bool) : d.IsClosed (terms d tableAlias operand negated) :=
  (ha.append (.of_isPlainText (by decide))).append (isClosed_comparison d negated operand)

theorem isClosed_andInStock {fragment : String} (hf : d.IsClosed fragment) :
    d.IsClosed (andInStock fragment tableAlias) := by
  have hstock : d.IsClosed (stockAlias tableAlias) := ha.append (.of_isPlainText (by decide))
  exact (((hf.append (.of_isPlainText (by decide))).append hstock).append (.of_isPlainText (by decide))).append
    (.quoteValue d (.int inStock))

end

end Fragment

/-! ## Fragments of all plans -/

section
variable {c : Catalog} {d : Dialect} {f : Filter} {query : String} (hq : d.IsClosed query)
  (hb : d = .postgres → '\\' ∉ query.toList)
include hq hb

theorem Fragment.isClosed_ofPlan {tableAlias : String} (ha : d.IsClosed tableAlias) {p : Plan}
    (hp : ∀ a, p = .entityColumn a → d.IsClosed a.code) {negated : Bool} {text : String}
    (h : ofPlan c d tableAlias f negated query p = .ok text) : d.IsClosed text := by
  have hdot : d.IsClosed (tableAlias ++ ".") := ha.append (.of_isPlainText (by decide))
  cases p with
  | price =>
    cases h
    exact hq.anchor hb priceField (.of_isPlainText (by decide))
  | category =>
    cases h
    exact (ha.append (.of_isPlainText (by decide))).append (.quoteValue d (.int f.operand.integer))
  | visibility =>
    cases h
    exact hdot.append hq
  | entityColumn a =>
    cases h
    exact hq.anchor hb a.code (hdot.append (hp a rfl))
  | chosenOption a =>
    cases h
    have hterms := isClosed_terms d ha f.operand negated
    split
    · exact isClosed_andInStock d ha hterms
    · exact hterms
  | indexedRange a =>
    rw [ofPlan_indexedRange] at h
    obtain ⟨identifier, -, rfl⟩ := (linked_eq_ok_iff _ _ _).1 h
    refine isClosed_amongEntities hq ?_
    simp [verbatim_indexedValues]
  | storedValue a =>
    rw [ofPlan_storedValue] at h
    obtain ⟨link, -, rfl⟩ := (linked_eq_ok_iff _ _ _).1 h
    refine isClosed_amongEntities hq fun t ht => ?_
    rw [verbatim_storedValues, List.mem_singleton] at ht
    rw [ht]
    exact .of_isPlainText (by cases d <;> decide)

/-- A closed condition has a closed fragment, if the alias and the code of the attribute are
words. In PostgreSQL the condition must also be without backslashes, which its own literals do not
read as escapes. -/
theorem Catalog.compile_isClosed {aliasOf : Filter → String} (ha : ∀ x ∈ (aliasOf f).toList, isWordChar x = true)
    (hc : ∀ a, c.plan f = .ok (.entityColumn a) → ∀ x ∈ a.code.toList, isWordChar x = true) {negated : Bool}
    {text : String} (h : c.compile d aliasOf f negated query = .ok text) : d.IsClosed text := by
  cases hp : c.plan f with
  | error e =>
    rw [compile_of_plan_error c d aliasOf f negated query hp] at h
    cases h
  | ok p =>
    rw [compile_of_plan c d aliasOf f negated query hp] at h
    refine Fragment.isClosed_ofPlan hq hb (.of_word ha) (fun a hpa => .of_word (hc a ?_)) h
    rw [hp, hpa]

end

/-- A column of the entity table among brackets and quotes that are part of texts and names. -/
theorem Catalog.compile_isClosed_sku :
    let sku : Attribute := ⟨"sku", 74, .static, .text, none⟩
    let c := Catalog.empty.putAttribute sku
    let f : Filter := ⟨"sku", .term, .one .null⟩
    let query := "(sku = 'a'')(' OR \"sku\" IN (')'))"
    Dialect.postgres.IsClosed query ∧ (Dialect.postgres = .postgres → '\\' ∉ query.toList) ∧
      (∀ x ∈ f.tableAlias.toList, isWordChar x = true) ∧
      (∀ a, c.plan f = .ok (.entityColumn a) → ∀ x ∈ a.code.toList, isWordChar x = true) ∧
      ∃ text, c.compile .postgres Filter.tableAlias f false query = .ok text ∧ Dialect.postgres.IsClosed text := by
  intro sku c f query
  have hq : Dialect.postgres.IsClosed query := by decide +kernel
  have hb : Dialect.postgres = .postgres → '\\' ∉ query.toList := by decide +kernel
  have ha : ∀ x ∈ f.tableAlias.toList, isWordChar x = true := List.all_eq_true.1 (by decide)
  have hp : c.plan f = .ok (.entityColumn sku) := by rfl
  have hc : ∀ a, c.plan f = .ok (.entityColumn a) → ∀ x ∈ a.code.toList, isWordChar x = true := by
    intro a h
    rw [hp] at h
    cases h
    exact List.all_eq_true.1 (by decide)
  have hok := compile_of_plan c .postgres Filter.tableAlias f false query hp
  exact ⟨hq, hb, ha, hc, _, hok, compile_isClosed hq hb ha hc hok⟩

end SearchFilter
