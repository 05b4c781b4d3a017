import SearchFilter.Filter.Alias
import SearchFilter.Fragment.Subselect

/-!
# Aliases apart

An alias is the field with an ending behind it, and the alias of the stock table has one more. No
ending is an ending of another, so an alias tells the field that it is for and which of the two
tables it names, and none is a name that the fragments bring with them.
-/

namespace SearchFilter
open Sql

/-! ## Endings -/

def joinEnding (field : String) : String :=
  if field = priceField ∨ field = categoryField then "_index" else filterSuffix

theorem joinAlias_eq (field : String) : joinAlias field = field ++ joinEnding field := by
  unfold joinAlias joinEnding
  by_cases hp : field = priceField
  · rw [if_pos hp, if_pos (Or.inl hp), hp]
    rfl
  · by_cases hc : field = categoryField
    · rw [if_neg hp, if_pos hc, if_pos (Or.inr hc), hc]
      rfl
    · rw [if_neg hp, if_neg hc, if_neg (not_or.2 ⟨hp, hc⟩)]

def endings : List String := [filterSuffix, "_index", stockSuffix]

theorem joinEnding_mem (field : String) : joinEnding field ∈ endings := by
  unfold joinEnding
  split <;> simp [endings]

theorem stockSuffix_mem : stockSuffix ∈ endings := by decide

theorem eq_of_suffix : ∀ a ∈ endings, ∀ b ∈ endings, a.toList <:+ b.toList → a = b := by
  decide

/-- A text that ends in one of the endings does so in one way. -/
theorem append_ending_inj {s t a b : String} (ha : a ∈ endings) (hb : b ∈ endings) (h : s ++ a = t ++ b) :
    s = t ∧ a = b := by
  have hlist : s.toList ++ a.toList = t.toList ++ b.toList := by
    rw [← String.toList_append, h, String.toList_append]
  have hab : a = b := by
    rcases List.suffix_or_suffix_of_suffix ⟨s.toList, hlist⟩ (List.suffix_append t.toList b.toList) with hs | hs
    · exact eq_of_suffix a ha b hb hs
    · exact (eq_of_suffix b hb a ha hs).symm
  subst hab
  exact ⟨String.toList_inj.1 (List.append_cancel_right hlist), rfl⟩

/-! ## Names of the fragments -/

/-- The products searched, the derived table and the tables in it. -/
def ownNames : List String := ["search_index", "filter", "e", "main_table", "current_store"]

def Sql.Select.labels (s : Select) : List String :=
  (s.source.toList ++ s.joins.map Join.table).filterMap Table.label

/-- Only one of the names has an ending of an alias, and the field before it has another. -/
theorem append_ending_not_mem {s a : String} (ha : a ∈ endings) (h : s = "search" → a ≠ "_index") :
    s ++ a ∉ ownNames := by
  intro hm
  have hsuffix : a.toList <:+ (s ++ a).toList := by
    rw [String.toList_append]
    exact List.suffix_append _ _
  have hone : ∀ name ∈ ownNames, ∀ b ∈ endings, b.toList <:+ name.toList → name = "search" ++ "_index" := by
    decide
  obtain ⟨hs, he⟩ := append_ending_inj ha (by decide) (hone _ hm a ha hsuffix)
  exact h hs he

section
variable (f g : String)

theorem joinAlias_inj : joinAlias f = joinAlias g ↔ f = g := by
  constructor
  · intro h
    rw [joinAlias_eq, joinAlias_eq] at h
    exact (append_ending_inj (joinEnding_mem f) (joinEnding_mem g) h).1
  · intro h
    rw [h]

theorem stockAlias_joinAlias_inj : stockAlias (joinAlias f) = stockAlias (joinAlias g) ↔ f = g := by
  rw [← joinAlias_inj f g]
  constructor
  · intro h
    exact (append_ending_inj stockSuffix_mem stockSuffix_mem h).1
  · intro h
    rw [h]

theorem joinAlias_ne_stockAlias (tableAlias : String) : joinAlias f ≠ stockAlias tableAlias := by
  intro h
  rw [joinAlias_eq] at h
  have hstock : joinEnding f = stockSuffix := (append_ending_inj (joinEnding_mem f) stockSuffix_mem h).2
  unfold joinEnding at hstock
  split at hstock
  · exact absurd hstock (by decide)
  · exact absurd hstock (by decide)

theorem joinAlias_not_mem : joinAlias f ∉ ownNames := by
  rw [joinAlias_eq]
  apply append_ending_not_mem (joinEnding_mem f)
  intro hs
  rw [hs]
  decide

theorem stockAlias_not_mem (tableAlias : String) : stockAlias tableAlias ∉ ownNames :=
  append_ending_not_mem stockSuffix_mem fun _ => by decide

end

/-- The aliases of two filters are the same exactly if their fields are, and so are those of their
stock tables. No alias is one of a stock table, and none of either kind is a name of the fragments,
among which are the labels of all tables in a sub-select. -/
theorem tableAlias_apart (f g : Filter) :
    (f.tableAlias = g.tableAlias ↔ f.field = g.field) ∧
      f.tableAlias ≠ stockAlias g.tableAlias ∧
      (stockAlias f.tableAlias = stockAlias g.tableAlias ↔ f.field = g.field) ∧
      f.tableAlias ∉ ownNames ∧ stockAlias f.tableAlias ∉ ownNames ∧
      (∀ c field identifier a, (Fragment.indexedValues c field identifier a).labels ⊆ ownNames) ∧
      ∀ c d field link a, (Fragment.storedValues c d field link a).labels ⊆ ownNames := by
  refine ⟨joinAlias_inj f.field g.field, joinAlias_ne_stockAlias f.field _,
    stockAlias_joinAlias_inj f.field g.field, joinAlias_not_mem f.field, stockAlias_not_mem _, ?_, ?_⟩
  · intro c field identifier a
    have hlabels : (Fragment.indexedValues c field identifier a).labels = ["e", "main_table"] := rfl
    rw [hlabels]
    decide
  · intro c d field link a
    have hlabels : (Fragment.storedValues c d field link a).labels = ["e", "main_table", "current_store"] := rfl
    rw [hlabels]
    decide

-- fields that are called like the aliases of others
example : (["price", "price_index", "price_index_stock", "filter"].map fun field => stockAlias (joinAlias field)) =
    ["price_index_stock", "price_index_filter_stock", "price_index_stock_filter_stock", "filter_filter_stock"] := by
  decide

end SearchFilter
