import SearchFilter.Proofs.Fragment.StoredValues
import SearchFilter.Proofs.Sql.Steps

/-!
# Sub-selects narrowed

A fragment puts the comparison of the caller on a query that was built in any way. Where it stands
around the query, the rows are those of the query that meet it. Where it stands in the query, it
takes the place of the condition on the columns selected, and the rows are those of the query
without that condition.
-/

namespace SearchFilter.Fragment
open Sql

/-! ## Conditions -/

def conditions (e? : Option Expr) : List Expr :=
  e?.toList.flatMap Expr.parts

section
variable (E : Engine) (T : Tables)

theorem isTrueIn_parts (scope : Scope) (e : Expr) :
    Expr.isTrueIn E scope e = e.parts.all (Expr.isTrueIn E scope) := by
  cases e with
  | all es => exact isTrueIn_all E scope es
  | _ => simp [Expr.parts]

theorem all_conditions (scope : Scope) (e? : Option Expr) :
    e?.all (Expr.isTrueIn E scope) = (conditions e?).all (Expr.isTrueIn E scope) := by
  cases e? with
  | none => rfl
  | some e => simpa [conditions] using isTrueIn_parts E scope e

theorem rows_eq_filter (s : Select) :
    s.rows E T = ({ s with having := none }.rows E T).filter fun row =>
      (conditions s.having).all (Expr.isTrueIn E [("", row)]) := by
  have hall : ∀ rows : List Row, rows.filter (fun _ => true) = rows := fun rows => List.filter_eq_self.2 fun _ _ => rfl
  simp only [← all_conditions]
  rw [Select.rows, Select.rows]
  exact congrArg _ (hall _).symm

end

/-! ## What is kept -/

/-- The second query is the first one with no condition left out. -/
structure Keeps (s t : Select) : Prop where
  columns : t.columns = s.columns
  source : t.source = s.source
  joins : t.joins = s.joins
  condition : t.condition = s.condition
  having : ∀ e ∈ conditions s.having, e ∈ conditions t.having

theorem keeps_select_iff (d : Dialect) (s : Select) (query : String) :
    Keeps s (Membership.select ⟨s, restriction d query⟩) ↔
      d = .postgres ∨ ∀ e ∈ conditions s.having, e = .raw (bracketed query) := by
  cases d with
  | mysql =>
    constructor
    · intro h
      right
      intro e he
      exact List.mem_singleton.1 (h.having e he)
    · intro h
      rcases h with h | h
      · cases h
      · exact ⟨rfl, rfl, rfl, rfl, fun e he => List.mem_singleton.2 (h e he)⟩
  | postgres => exact iff_of_true ⟨rfl, rfl, rfl, rfl, fun _ he => he⟩ (Or.inl rfl)

section
variable (E : Engine) (T : Tables) {s : Select} (query : String)

theorem rows_of_keeps {d : Dialect} (h : Keeps s (Membership.select ⟨s, restriction d query⟩)) :
    Membership.rows E T ⟨s, restriction d query⟩ = (s.rows E T).filter (E.holds (bracketed query)) := by
  rcases (keeps_select_iff d s query).1 h with rfl | hsame
  · rfl
  · cases d with
    | postgres => rfl
    | mysql =>
      rw [rows_restriction_mysql, rows_eq_filter E T s, List.filter_filter]
      apply List.filter_congr
      intro row _
      cases hholds : E.holds (bracketed query) row with
      | false => rfl
      | true =>
        have hall : (conditions s.having).all (Expr.isTrueIn E [("", row)]) = true := by
          rw [List.all_eq_true]
          intro e he
          rw [hsame e he, isTrueIn_raw, hholds]
        rw [hall]
        rfl

end

/-- The sub-select of a fragment has all of the query but its condition on the columns selected. It
has that too exactly if the comparison stands around it or there is no such condition beside the
comparison. If so, the entities are taken from the rows of the query that meet the comparison, in
both dialects alike; if not, from rows of the query without the condition. -/
theorem amongEntities_keeps_iff (d : Dialect) (columns : List Expr) (source : Table) (steps : List Step)
    (query : String) :
    let s := (Select.ofTable columns source).run steps
    let m : Membership := ⟨s, restriction d query⟩
    amongEntities d s query = m.text d ∧ Keeps { s with having := none } m.select ∧
      (Keeps s m.select ↔
        d = .postgres ∨
          ∀ e ∈ conditions (steps.filterMap Step.having?).getLast?, e = .raw (bracketed query)) ∧
      (Keeps s m.select → ∀ E T, m.rows E T = (s.rows E T).filter (E.holds (bracketed query))) ∧
      (¬ Keeps s m.select → ∀ E T,
        m.rows E T = ({ s with having := none }.rows E T).filter (E.holds (bracketed query))) := by
  intro s m
  have hhaving : s.having = (steps.filterMap Step.having?).getLast? :=
    congrArg Select.having (run_ofTable columns source steps)
  have hiff := keeps_select_iff d s query
  refine ⟨amongEntities_eq d s query, ?_, ?_, ?_, ?_⟩
  · cases d with
    | mysql => exact ⟨rfl, rfl, rfl, rfl, List.forall_mem_nil _⟩
    | postgres => exact ⟨rfl, rfl, rfl, rfl, List.forall_mem_nil _⟩
  · rw [hiff, hhaving]
  · intro h E T
    exact rows_of_keeps E T query h
  · intro h E T
    cases d with
    | mysql => exact rows_restriction_mysql E T s query
    | postgres => exact absurd (hiff.2 (Or.inl rfl)) h

def largeProducts : Select :=
  (Select.ofTable [column "e" "entity_id", column "e" "color", column "e" "size"] ⟨"products", some "e"⟩).run
    [.having (.raw "size > 1")]

def smallAndRed : Engine :=
  { askingForRed with holds := fun text _ => text = "(`color` = 5)" }

/-- The condition on the size is gone, and products are among the entities that do not meet it. -/
theorem not_keeps_largeProducts :
    amongEntities .mysql largeProducts "`color` = 5" =
        "search_index.entity_id IN (SELECT entity_id FROM (SELECT `e`.`entity_id`, `e`.`color`, `e`.`size` " ++
          "FROM `products` AS `e` HAVING (`color` = 5)) AS filter)" ∧
      ¬ Keeps largeProducts (Membership.select ⟨largeProducts, restriction .mysql "`color` = 5"⟩) ∧
      ∃ E T row, row ∈ Membership.rows E T ⟨largeProducts, restriction .mysql "`color` = 5"⟩ ∧
        row ∉ largeProducts.rows E T := by
  refine ⟨by decide +kernel, ?_, ?_⟩
  · intro h
    have hsize := List.mem_singleton.1 (h.having (.raw "size > 1") List.mem_cons_self)
    exact absurd (Expr.raw.inj hsize) (by decide)
  · refine ⟨smallAndRed, fun _ => [[("entity_id", .int 1)]],
      [("entity_id", .int 1), ("color", .null), ("size", .null)], ?_, ?_⟩
    · decide +kernel
    · decide +kernel

end SearchFilter.Fragment
