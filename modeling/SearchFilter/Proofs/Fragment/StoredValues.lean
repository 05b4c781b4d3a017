import SearchFilter.Proofs.Fragment.ValueRows

/-!
# Values with a default

The sub-select on stored values has one row for each product with a value in the default store,
and in it the value of the current store if there is one. What is stored for the current store
decides only which value that is.
-/

namespace SearchFilter.Fragment
open Sql

/-! ## Defaults -/

def hasDefault (E : Engine) (link : String) (a : Attribute) (rows : List Row) (product : Row) : Bool :=
  rows.any (isValueOf E link a defaultStore product)

def defaultValue (E : Engine) (link : String) (a : Attribute) (rows : List Row) (product : Row) : Value :=
  ((valueRow? E link a defaultStore rows product).map (·.value "value")).getD .null

/-- The value in the store if there is one that is not null, otherwise the one in the default store. -/
def resolved (E : Engine) (link : String) (a : Attribute) (store : Int64) (rows : List Row) (product : Row) : Value :=
  match valueRow? E link a store rows product with
  | some row => if row.value "value" = .null then defaultValue E link a rows product else row.value "value"
  | none => defaultValue E link a rows product

section
variable {E : Engine} {link : String} {a : Attribute} {store : Int64} {rows : List Row}

theorem hasDefault_eq_isSome (product : Row) :
    hasDefault E link a rows product = (valueRow? E link a defaultStore rows product).isSome := by
  rw [Bool.eq_iff_iff, hasDefault, valueRow?, List.find?_isSome, List.any_eq_true]

theorem resolved_of_default {product row : Row} (h : valueRow? E link a defaultStore rows product = some row) :
    resolved E link a store rows product =
      if ((valueRow? E link a store rows product).getD []).value "value" = .null then row.value "value"
      else ((valueRow? E link a store rows product).getD []).value "value" := by
  have hd : defaultValue E link a rows product = row.value "value" := by rw [defaultValue, h]; rfl
  rw [resolved, hd]
  cases valueRow? E link a store rows product with
  | none => rfl
  | some r => rfl

end

/-! ## The joins of the sub-select -/

def storeJoin (table link : String) (store : Int64) : Join :=
  ⟨.left, ⟨table, some "current_store"⟩,
    .all [
      sameIn "current_store" "main_table" "attribute_id",
      .equal (column "current_store" "store_id") (integer store),
      sameIn "current_store" "main_table" link]⟩

section
variable (E : Engine) (T : Tables) {table link : String} {a : Attribute} {store : Int64} {product row : Row}

theorem on_storeJoin (r : Row) :
    (storeJoin table link store).on.isTrueIn E [("e", product), ("main_table", row), ("current_store", r)] =
      (E.same (r.value "attribute_id") (row.value "attribute_id") &&
        (E.same (r.value "store_id") (.int store) && E.same (r.value link) (row.value link))) := by
  simp [storeJoin, sameIn, isTrueIn_all, isTrueIn_equal, column, integer, Expr.eval, Keyed.get?]

theorem matching_storeJoin (hk : UniqueKeys E link (T table))
    (hr : isValueOf E link a defaultStore product row = true) :
    (storeJoin table link store).matching E T [("e", product), ("main_table", row)] =
      (valueRow? E link a store (T table) product).toList := by
  obtain ⟨h₁, -, h₂⟩ := (isValueOf_iff product row).1 hr
  rw [← hk.filter_isValueOf]
  refine List.filter_congr fun r _ => ?_
  show (storeJoin table link store).on.isTrueIn E [("e", product), ("main_table", row), ("current_store", r)] = _
  rw [on_storeJoin, isValueOf, ← E.same_congr h₁, ← E.same_congr h₂]

/-- The row of the default store and, if there is one, the row of the store. -/
theorem extend_storeJoin (hk : UniqueKeys E link (T table))
    (hr : isValueOf E link a defaultStore product row = true) :
    (storeJoin table link store).extend E T [("e", product), ("main_table", row)] =
      [[("e", product), ("main_table", row),
        ("current_store", (valueRow? E link a store (T table) product).getD [])]] :=
  Join.extend_left E T rfl (matching_storeJoin E T hk hr)

end

/-! ## The rows of the sub-select -/

def valueRows (c : Catalog) (T : Tables) (a : Attribute) : List Row :=
  T (c.tableName a.valueTable)

section
variable (E : Engine) (T : Tables) (c : Catalog) (d : Dialect) (field link : String) (a : Attribute)

theorem scopes_storedValues :
    (storedValues c d field link a).scopes E T =
      (productRows c T).flatMap fun product =>
        ((valueRows c T a).filter fun r => E.same (r.value link) (product.value link)).flatMap fun row =>
          (storeJoin (c.tableName a.valueTable) link c.store).extend E T [("e", product), ("main_table", row)] := by
  show (((productRows c T).map fun product => [("e", product)]).flatMap
      ((defaultJoin (c.tableName a.valueTable) link).extend E T)).flatMap
        ((storeJoin (c.tableName a.valueTable) link c.store).extend E T) = _
  rw [List.flatMap_map, List.flatMap_assoc]
  congr 1
  funext product
  rw [Join.extend_inner E T rfl, matching_defaultJoin, List.flatMap_map]
  rfl

/-- Whether a row is kept depends on the row of the default store alone. -/
theorem condition_storedValues {product row : Row} {scope : Scope}
    (h : scope ∈
      (storeJoin (c.tableName a.valueTable) link c.store).extend E T [("e", product), ("main_table", row)]) :
    (storedValues c d field link a).condition.all (Expr.isTrueIn E scope) =
      (E.same (row.value "attribute_id") (.int a.id) && E.same (row.value "store_id") (.int defaultStore)) := by
  obtain ⟨r, -, rfl⟩ := List.mem_map.1 h
  simp [storedValues, Select.ofTable, Select.join, Select.restrict, isTrueIn_all, isTrueIn_equal, column, integer,
    Expr.eval, Keyed.get?]

theorem output_storedValues (product row row' : Row) :
    (storedValues c d field link a).output E [("e", product), ("main_table", row), ("current_store", row')] =
      [("entity_id", product.value "entity_id"),
        (field, if row'.value "value" = .null then row.value "value" else row'.value "value")] := by
  rw [← firstNonNull_pair, ← apply_ifNull E d]
  simp [Select.output, storedValues, Select.ofTable, Select.join, Select.restrict, column, Expr.outputName, Expr.eval,
    evals, Keyed.get?]

variable (hk : UniqueKeys E link (valueRows c T a))
include hk

theorem rows_of_product (product : Row) :
    (((((valueRows c T a).filter fun r => E.same (r.value link) (product.value link)).flatMap fun row =>
        (storeJoin (c.tableName a.valueTable) link c.store).extend E T [("e", product), ("main_table", row)]).filter
          fun scope => (storedValues c d field link a).condition.all (Expr.isTrueIn E scope)).map
            ((storedValues c d field link a).output E)) =
      if hasDefault E link a (valueRows c T a) product = true then
        [[("entity_id", product.value "entity_id"),
          (field, resolved E link a c.store (valueRows c T a) product)]]
      else [] := by
  rw [filter_flatMap_of_const fun row scope h => condition_storedValues E T c d field link a h, List.filter_filter]
  rw [hk.filter_joined, hasDefault_eq_isSome]
  cases hr : valueRow? E link a defaultStore (valueRows c T a) product with
  | none => rfl
  | some row =>
    have hv : isValueOf E link a defaultStore product row = true := List.find?_some hr
    rw [Option.isSome_some, if_pos rfl, Option.toList_some, List.flatMap_singleton, extend_storeJoin E T hk hv,
      List.map_singleton, output_storedValues, resolved_of_default hr]
    rfl

theorem rows_storedValues :
    (storedValues c d field link a).rows E T =
      ((productRows c T).filter (hasDefault E link a (valueRows c T a))).map fun product =>
        [("entity_id", product.value "entity_id"),
          (field, resolved E link a c.store (valueRows c T a) product)] := by
  rw [Select.rows, scopes_storedValues]
  refine (List.filter_eq_self.2 fun _ _ => rfl).trans ?_
  rw [List.filter_flatMap, List.map_flatMap]
  exact flatMap_eq_map_filter (rows_of_product E T c d field link a hk) _

end

/-! ## The products selected -/

section
variable {E : Engine} {T : Tables} {c : Catalog} {a : Attribute} {link : String}
  (hk : UniqueKeys E link (valueRows c T a)) (d : Dialect) (field : String)
include hk

theorem entities_storedValues :
    ((storedValues c d field link a).rows E T).map (·.value "entity_id") =
      ((productRows c T).filter (hasDefault E link a (valueRows c T a))).map (·.value "entity_id") := by
  rw [rows_storedValues E T c d field link a hk, List.map_map]
  refine List.map_congr_left fun product _ => ?_
  exact value_entity_id field _ _

/-- Values of other stores come and go without adding or removing a row. -/
theorem entities_storedValues_eq {T' : Tables} (hk' : UniqueKeys E link (valueRows c T' a))
    (hproducts : productRows c T' = productRows c T)
    (hdefaults : SameValues E a defaultStore (valueRows c T a) (valueRows c T' a)) :
    ((storedValues c d field link a).rows E T').map (·.value "entity_id") =
      ((storedValues c d field link a).rows E T).map (·.value "entity_id") := by
  have hsame : hasDefault E link a (valueRows c T' a) = hasDefault E link a (valueRows c T a) := by
    funext product
    rw [hasDefault_eq_isSome, hasDefault_eq_isSome, hdefaults.valueRow?_eq hk hk']
  rw [entities_storedValues hk d field, entities_storedValues hk' d field, hproducts, hsame]

variable {field} (hf : field ≠ "entity_id") {query : String} {P : Value → Bool}
  (hP : ∀ row, E.holds (bracketed query) row = P (row.value field))
include hf hP

theorem ids_storedValues :
    Membership.ids E T ⟨storedValues c d field link a, restriction d query⟩ =
      ((productRows c T).filter fun product =>
        hasDefault E link a (valueRows c T a) product &&
          P (resolved E link a c.store (valueRows c T a) product)).map (·.value "entity_id") := by
  rw [ids_restriction E T rfl, rows_storedValues E T c d field link a hk, List.filter_map, List.map_map,
    List.filter_filter]
  have hfilter : ∀ product, (E.holds (bracketed query) [("entity_id", product.value "entity_id"),
      (field, resolved E link a c.store (valueRows c T a) product)] &&
        hasDefault E link a (valueRows c T a) product) =
      (hasDefault E link a (valueRows c T a) product &&
        P (resolved E link a c.store (valueRows c T a) product)) := by
    intro product
    rw [hP, value_field hf, Bool.and_comm]
  refine (congrArg (List.map _) (List.filter_congr fun product _ => hfilter product)).trans ?_
  refine List.map_congr_left fun product _ => ?_
  exact value_entity_id field _ _

theorem holds_storedValues (id : Value) :
    Membership.holds E T ⟨storedValues c d field link a, restriction d query⟩ id = true ↔
      ∃ product ∈ productRows c T, hasDefault E link a (valueRows c T a) product = true ∧
        P (resolved E link a c.store (valueRows c T a) product) = true ∧
          E.same id (product.value "entity_id") = true := by
  rw [Membership.holds, ids_storedValues hk d hf hP, List.any_map, List.any_filter, List.any_eq_true]
  simp [and_assoc]

end

/-- The fragment of a filter on stored values, read back and evaluated. The first two parts are
about the query before the condition, the next two about the entities under it; the last say that
neither the dialect nor the values of other stores change which rows there are. -/
theorem storedValue_selects {c : Catalog} {f : Filter} {a : Attribute} {links : Links}
    (hp : c.plan f = .ok (.storedValue a)) (hl : c.links? productEntity = some links) (hf : f.field ≠ "entity_id")
    (E : Engine) (T : Tables) (hk : UniqueKeys E links.linkField (valueRows c T a)) (query : String)
    (P : Value → Bool) (hP : ∀ row, E.holds (bracketed query) row = P (row.value f.field)) (d : Dialect)
    (aliasOf : Filter → String) (negated : Bool) :
    ∃ text m, c.compile d aliasOf f negated query = .ok text ∧ (∀ n, ReadsMembership d n text.toList ↔ n = m) ∧
      m.among.rows E T =
        ((productRows c T).filter (hasDefault E links.linkField a (valueRows c T a))).map (fun product =>
          [("entity_id", product.value "entity_id"),
            (f.field, resolved E links.linkField a c.store (valueRows c T a) product)]) ∧
      m.ids E T =
        ((productRows c T).filter fun product => hasDefault E links.linkField a (valueRows c T a) product &&
          P (resolved E links.linkField a c.store (valueRows c T a) product)).map (·.value "entity_id") ∧
      (∀ id, m.holds E T id = true ↔
        ∃ product ∈ productRows c T, hasDefault E links.linkField a (valueRows c T a) product = true ∧
          P (resolved E links.linkField a c.store (valueRows c T a) product) = true ∧
            E.same id (product.value "entity_id") = true) ∧
      (∀ d' text' m', c.compile d' aliasOf f negated query = .ok text' → ReadsMembership d' m' text'.toList →
        m'.ids E T = m.ids E T) ∧
      ∀ T', productRows c T' = productRows c T → UniqueKeys E links.linkField (valueRows c T' a) →
        SameValues E a defaultStore (valueRows c T a) (valueRows c T' a) →
          (m.among.rows E T').map (·.value "entity_id") = (m.among.rows E T).map (·.value "entity_id") ∧
            (m.among.rows E T').length = (m.among.rows E T).length := by
  have hfragment : ∀ d', c.compile d' aliasOf f negated query =
      .ok (amongEntities d' (storedValues c d' f.field links.linkField a) query) :=
    fun d' => compile_of_subselect? hp hl d' rfl aliasOf negated query
  have hreads : ∀ d' m', ReadsMembership d' m'
      (amongEntities d' (storedValues c d' f.field links.linkField a) query).toList ↔
        m' = ⟨storedValues c d' f.field links.linkField a, restriction d' query⟩ := by
    intro d' m'
    exact reads_amongEntities_iff d' (by cases d' <;> rfl) rfl query m'
  refine ⟨_, _, hfragment d, hreads d, rows_storedValues E T c d f.field links.linkField a hk,
    ids_storedValues hk d hf hP, holds_storedValues hk d hf hP, ?_, ?_⟩
  · intro d' text' m' ht hm
    rw [hfragment d'] at ht
    cases ht
    rw [(hreads d' m').1 hm, ids_storedValues hk d' hf hP, ids_storedValues hk d hf hP]
  · intro T' hproducts hk' hdefaults
    have h := entities_storedValues_eq hk d f.field hk' hproducts hdefaults
    refine ⟨h, ?_⟩
    simpa using congrArg List.length h

def linkedByRow : Catalog where
  tablePrefix := ""
  store := 3
  entities := [(productEntity, ⟨"row_id", "entity_id"⟩)]
  attributes := [⟨"tag", 77, .varchar, .text, none⟩]
  flags := []

def askingForRed : Engine where
  same v w := v ≠ .null && v = w
  same_null := by simp
  same_symm := by
    intro v w h
    simp only [Bool.and_eq_true, decide_eq_true_eq] at h ⊢
    obtain ⟨hv, rfl⟩ := h
    exact ⟨hv, rfl⟩
  same_trans := by
    intro u v w h k
    simp only [Bool.and_eq_true, decide_eq_true_eq] at h k ⊢
    exact ⟨h.1, h.2.trans k.2⟩
  call _ _ := .null
  holds _ row := row.value "tag" = .text "red"

def tagTables : Tables := fun name =>
  let tag (row store : Int64) (value : Value) : Row :=
    [("row_id", .int row), ("attribute_id", .int 77), ("store_id", .int store), ("value", value)]
  if name = "catalog_product_entity" then
    [[("entity_id", .int 1), ("row_id", .int 11)], [("entity_id", .int 2), ("row_id", .int 12)],
      [("entity_id", .int 3), ("row_id", .int 13)]]
  else if name = "catalog_product_entity_varchar" then
    [tag 11 0 (.text "red"), tag 11 3 (.text "blue"), tag 12 0 (.text "blue"), tag 12 3 (.text "red"),
      tag 12 4 (.text "green"), tag 13 3 (.text "red")]
  else []

theorem storedValue_selects_red :
    let f : Filter := ⟨"tag", .term, .one (.text "red")⟩
    let a : Attribute := ⟨"tag", 77, .varchar, .text, none⟩
    linkedByRow.plan f = .ok (.storedValue a) ∧ UniqueKeys askingForRed "row_id" (valueRows linkedByRow tagTables a) ∧
      ∃ text m, linkedByRow.compile .mysql Filter.tableAlias f false "tag = 'red'" = .ok text ∧
        (∀ n, ReadsMembership .mysql n text.toList ↔ n = m) ∧ m.ids askingForRed tagTables = [.int 2] := by
  intro f a
  have hp : linkedByRow.plan f = .ok (.storedValue a) := by rfl
  have hl : linkedByRow.links? productEntity = some ⟨"row_id", "entity_id"⟩ := by rfl
  have hk : UniqueKeys askingForRed "row_id" (valueRows linkedByRow tagTables a) := by
    unfold UniqueKeys
    decide
  obtain ⟨text, m, ht, hm, -, hids, -⟩ := storedValue_selects hp hl (by decide) askingForRed tagTables hk
    "tag = 'red'" (fun v => v = .text "red") (fun _ => rfl) .mysql Filter.tableAlias false
  refine ⟨hp, hk, text, m, ht, hm, ?_⟩
  rw [hids]
  decide

end SearchFilter.Fragment
