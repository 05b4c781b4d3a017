import Mathlib.Data.List.Basic
import SearchFilter.Proofs.Fragment.ValueRows

/-!
# Values prepared for ranges

The sub-select on prepared values has a row for each product that has a row in the index for the
attribute and the current store, and in it the value of that row. No value of another store stands
in where there is none, not even one of the default store.
-/

namespace SearchFilter.Fragment
open Sql

/-! ## The rows of the sub-select -/

def indexRows (c : Catalog) (T : Tables) (a : Attribute) : List Row :=
  T (c.tableName a.indexTable)

/-- The row selected for a product, if it has a value in the store of the catalog. -/
def indexed? (E : Engine) (c : Catalog) (T : Tables) (field identifier : String) (a : Attribute) (product : Row) :
    Option Row :=
  (valueRow? E identifier a c.store (indexRows c T a) product).map fun row =>
    [("entity_id", product.value "entity_id"), (field, row.value "value")]

section
variable (E : Engine) (T : Tables) (c : Catalog) (field identifier : String) (a : Attribute)

theorem scopes_indexedValues :
    (indexedValues c field identifier a).scopes E T =
      (productRows c T).flatMap fun product =>
        ((indexRows c T a).filter fun r => E.same (r.value identifier) (product.value identifier)).map fun row =>
          [("e", product), ("main_table", row)] := by
  show ((productRows c T).map fun product => [("e", product)]).flatMap
      ((defaultJoin (c.tableName a.indexTable) identifier).extend E T) = _
  rw [List.flatMap_map]
  congr 1
  funext product
  rw [Join.extend_inner E T rfl, matching_defaultJoin]
  rfl

theorem condition_indexedValues (product row : Row) :
    (indexedValues c field identifier a).condition.all (Expr.isTrueIn E [("e", product), ("main_table", row)]) =
      (E.same (row.value "attribute_id") (.int a.id) && E.same (row.value "store_id") (.int c.store)) := by
  simp [indexedValues, Select.ofTable, Select.join, Select.restrict, isTrueIn_all, isTrueIn_equal, column, integer,
    Expr.eval, Keyed.get?]

theorem output_indexedValues (product row : Row) :
    (indexedValues c field identifier a).output E [("e", product), ("main_table", row)] =
      [("entity_id", product.value "entity_id"), (field, row.value "value")] := by
  simp [Select.output, indexedValues, Select.ofTable, Select.join, Select.restrict, column, Expr.outputName, Expr.eval,
    Keyed.get?]

variable (hk : UniqueKeys E identifier (indexRows c T a))
include hk

theorem rows_indexedValues :
    (indexedValues c field identifier a).rows E T =
      (productRows c T).filterMap (indexed? E c T field identifier a) := by
  rw [Select.rows, scopes_indexedValues]
  refine (List.filter_eq_self.2 fun _ _ => rfl).trans ?_
  rw [List.filter_flatMap, List.map_flatMap, List.filterMap_eq_flatMap_toList]
  congr 1
  funext product
  have hf : ((indexRows c T a).filter fun r => E.same (r.value identifier) (product.value identifier)).filter
      (fun row => (indexedValues c field identifier a).condition.all
        (Expr.isTrueIn E [("e", product), ("main_table", row)])) =
      (valueRow? E identifier a c.store (indexRows c T a) product).toList := by
    simp only [condition_indexedValues, List.filter_filter, hk.filter_joined]
  rw [List.filter_map, List.map_map]
  refine (congrArg (List.map _) hf).trans ?_
  rw [indexed?, Option.toList_map]
  exact List.map_congr_left fun row _ => output_indexedValues E c field identifier a product row

end

/-! ## The products selected -/

def isIndexed (E : Engine) (c : Catalog) (T : Tables) (identifier : String) (a : Attribute) (P : Value → Bool)
    (product : Row) : Bool :=
  (indexRows c T a).any fun row => isValueOf E identifier a c.store product row && P (row.value "value")

theorem isIndexed_iff {E : Engine} {c : Catalog} {T : Tables} {identifier : String} {a : Attribute} {P : Value → Bool}
    {product : Row} : isIndexed E c T identifier a P product = true ↔
      ∃ row ∈ indexRows c T a, isValueOf E identifier a c.store product row = true ∧ P (row.value "value") = true := by
  simp [isIndexed]

section
variable {E : Engine} {T : Tables} {c : Catalog} {a : Attribute} {identifier : String}
  (hk : UniqueKeys E identifier (indexRows c T a)) (d : Dialect) {field : String}
include hk

theorem rows_indexedValues_eq {T' : Tables} (hk' : UniqueKeys E identifier (indexRows c T' a))
    (hproducts : productRows c T' = productRows c T)
    (hvalues : SameValues E a c.store (indexRows c T a) (indexRows c T' a)) :
    (indexedValues c field identifier a).rows E T' = (indexedValues c field identifier a).rows E T := by
  rw [rows_indexedValues E T c field identifier a hk, rows_indexedValues E T' c field identifier a hk', hproducts]
  congr 1
  funext product
  rw [indexed?, indexed?, hvalues.valueRow?_eq hk hk']

theorem isIndexed_eq (P : Value → Bool) (product : Row) :
    isIndexed E c T identifier a P product =
      (valueRow? E identifier a c.store (indexRows c T a) product).any fun row => P (row.value "value") := by
  rw [isIndexed, ← List.any_filter, hk.filter_isValueOf]
  cases valueRow? E identifier a c.store (indexRows c T a) product <;> simp

variable (hf : field ≠ "entity_id") {query : String} {P : Value → Bool}
  (hP : ∀ row, E.holds (bracketed query) row = P (row.value field))
include hf hP

/-- What the condition leaves of the row of one product. -/
theorem filter_indexed? (product : Row) :
    ((indexed? E c T field identifier a product).filter (E.holds (bracketed query))).map (·.value "entity_id") =
      if isIndexed E c T identifier a P product = true then some (product.value "entity_id") else none := by
  rw [isIndexed_eq hk, indexed?]
  cases valueRow? E identifier a c.store (indexRows c T a) product with
  | none => rfl
  | some row =>
    have hh : E.holds (bracketed query) [("entity_id", product.value "entity_id"), (field, row.value "value")] =
        P (row.value "value") := by
      rw [hP, value_field hf]
    by_cases h : P (row.value "value") = true
    · simp [Option.filter, hh, h, value_entity_id]
    · simp [Option.filter, hh, h]

theorem ids_indexedValues :
    Membership.ids E T ⟨indexedValues c field identifier a, restriction d query⟩ =
      ((productRows c T).filter (isIndexed E c T identifier a P)).map (·.value "entity_id") := by
  rw [ids_restriction E T rfl, rows_indexedValues E T c field identifier a hk, List.filter_filterMap,
    List.map_filterMap, List.filterMap_eq_flatMap_toList]
  refine flatMap_eq_map_filter (fun product => ?_) _
  rw [filter_indexed? hk hf hP]
  split <;> rfl

theorem holds_indexedValues (id : Value) :
    Membership.holds E T ⟨indexedValues c field identifier a, restriction d query⟩ id = true ↔
      ∃ product ∈ productRows c T, ∃ row ∈ indexRows c T a, isValueOf E identifier a c.store product row = true ∧
        P (row.value "value") = true ∧ E.same id (product.value "entity_id") = true := by
  rw [Membership.holds, ids_indexedValues hk d hf hP, List.any_map, List.any_filter, List.any_eq_true]
  constructor
  · rintro ⟨product, hm, h⟩
    obtain ⟨hi, hid⟩ := Bool.and_eq_true_iff.1 h
    obtain ⟨row, hr, hv, hp⟩ := isIndexed_iff.1 hi
    exact ⟨product, hm, row, hr, hv, hp, hid⟩
  · rintro ⟨product, hm, row, hr, hv, hp, hid⟩
    exact ⟨product, hm, Bool.and_eq_true_iff.2 ⟨isIndexed_iff.2 ⟨row, hr, hv, hp⟩, hid⟩⟩

end

/-- The fragment of a filter on prepared values, read back and evaluated. The first part is about
the query before the condition, the next two about the entities under it; the last say that
neither the dialect nor the values of other stores and attributes change anything. -/
theorem indexedRange_selects {c : Catalog} {f : Filter} {a : Attribute} {links : Links}
    (hp : c.plan f = .ok (.indexedRange a)) (hl : c.links? productEntity = some links) (hf : f.field ≠ "entity_id")
    (E : Engine) (T : Tables) (hk : UniqueKeys E links.identifierField (indexRows c T a)) (query : String)
    (P : Value → Bool) (hP : ∀ row, E.holds (bracketed query) row = P (row.value f.field)) (d : Dialect)
    (aliasOf : Filter → String) (negated : Bool) :
    ∃ text m, c.compile d aliasOf f negated query = .ok text ∧ (∀ n, ReadsMembership d n text.toList ↔ n = m) ∧
      m.among.rows E T = (productRows c T).filterMap (indexed? E c T f.field links.identifierField a) ∧
      m.ids E T =
        ((productRows c T).filter (isIndexed E c T links.identifierField a P)).map (·.value "entity_id") ∧
      (∀ id, m.holds E T id = true ↔
        ∃ product ∈ productRows c T, ∃ row ∈ indexRows c T a,
          isValueOf E links.identifierField a c.store product row = true ∧ P (row.value "value") = true ∧
            E.same id (product.value "entity_id") = true) ∧
      (∀ d' text' m', c.compile d' aliasOf f negated query = .ok text' → ReadsMembership d' m' text'.toList →
        m'.ids E T = m.ids E T) ∧
      ∀ T', productRows c T' = productRows c T → UniqueKeys E links.identifierField (indexRows c T' a) →
        SameValues E a c.store (indexRows c T a) (indexRows c T' a) →
          m.among.rows E T' = m.among.rows E T ∧ m.ids E T' = m.ids E T := by
  have hfragment : ∀ d', c.compile d' aliasOf f negated query =
      .ok (amongEntities d' (indexedValues c f.field links.identifierField a) query) :=
    fun d' => compile_of_subselect? hp hl d' rfl aliasOf negated query
  have hreads : ∀ d' m', ReadsMembership d' m'
      (amongEntities d' (indexedValues c f.field links.identifierField a) query).toList ↔
        m' = ⟨indexedValues c f.field links.identifierField a, restriction d' query⟩ :=
    fun d' m' => reads_amongEntities_iff d' rfl rfl query m'
  refine ⟨_, _, hfragment d, hreads d, rows_indexedValues E T c f.field links.identifierField a hk,
    ids_indexedValues hk d hf hP, holds_indexedValues hk d hf hP, ?_, ?_⟩
  · intro d' text' m' ht hm
    rw [hfragment d'] at ht
    cases ht
    rw [(hreads d' m').1 hm, ids_indexedValues hk d' hf hP, ids_indexedValues hk d hf hP]
  · intro T' hproducts hk' hvalues
    have h : (indexedValues c f.field links.identifierField a).rows E T' =
        (indexedValues c f.field links.identifierField a).rows E T :=
      rows_indexedValues_eq hk hk' hproducts hvalues
    refine ⟨h, ?_⟩
    rw [ids_restriction E T' rfl, ids_restriction E T rfl, h]

def indexedByEntity : Catalog where
  tablePrefix := "m_"
  store := 3
  entities := [(productEntity, ⟨"row_id", "entity_id"⟩)]
  attributes := [⟨"weight", 82, .decimal, .weight, none⟩]
  flags := []

def askingForHeavy : Engine where
  same v w := v ≠ .null && w ≠ .null && v.integer = w.integer
  same_null := by simp
  same_symm := by
    intro v w h
    simp only [Bool.and_eq_true, decide_eq_true_eq] at h ⊢
    exact ⟨⟨h.1.2, h.1.1⟩, h.2.symm⟩
  same_trans := by
    intro u v w h k
    simp only [Bool.and_eq_true, decide_eq_true_eq] at h k ⊢
    exact ⟨⟨h.1.1, k.1.2⟩, h.2.trans k.2⟩
  call _ _ := .null
  holds _ row := 10 < (row.value "weight").integer

def weightTables : Tables := fun name =>
  let weight (entity id store : Int64) (value : Value) : Row :=
    [("entity_id", .int entity), ("attribute_id", .int id), ("store_id", .int store), ("value", value)]
  if name = "m_catalog_product_entity" then
    [[("entity_id", .int 1), ("row_id", .int 11)], [("entity_id", .int 2), ("row_id", .int 1)],
      [("entity_id", .int 3), ("row_id", .int 13)], [("entity_id", .int 4), ("row_id", .int 14)]]
  else if name = "m_catalog_product_index_eav_decimal" then
    [weight 1 82 0 (.int 20), weight 1 82 3 (.int 5), weight 2 82 3 (.int 12), weight 2 81 3 (.int 1),
      weight 3 82 0 (.int 30), weight 4 81 3 (.int 40), weight 11 82 3 (.int 50)]
  else []

theorem indexedRange_selects_heavy :
    let f : Filter := ⟨"weight", .range, .one .null⟩
    let a : Attribute := ⟨"weight", 82, .decimal, .weight, none⟩
    indexedByEntity.plan f = .ok (.indexedRange a) ∧
      indexedByEntity.links? productEntity = some ⟨"row_id", "entity_id"⟩ ∧
      UniqueKeys askingForHeavy "entity_id" (indexRows indexedByEntity weightTables a) ∧
      ∃ text m, indexedByEntity.compile .postgres Filter.tableAlias f false "weight > 10" = .ok text ∧
        (∀ n, ReadsMembership .postgres n text.toList ↔ n = m) ∧
        m.ids askingForHeavy weightTables = [.int 2] := by
  intro f a
  have hp : indexedByEntity.plan f = .ok (.indexedRange a) := by rfl
  have hl : indexedByEntity.links? productEntity = some ⟨"row_id", "entity_id"⟩ := by rfl
  have hk : UniqueKeys askingForHeavy "entity_id" (indexRows indexedByEntity weightTables a) := by
    unfold UniqueKeys
    decide
  obtain ⟨text, m, ht, hm, -, hids, -⟩ := indexedRange_selects hp hl (by decide) askingForHeavy weightTables hk
    "weight > 10" (fun v => 10 < v.integer) (fun _ => rfl) .postgres Filter.tableAlias false
  refine ⟨hp, hl, hk, text, m, ht, hm, ?_⟩
  rw [hids]
  decide

end SearchFilter.Fragment
