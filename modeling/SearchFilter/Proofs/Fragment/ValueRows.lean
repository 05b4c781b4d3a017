import SearchFilter.Proofs.Fragment.Membership
import SearchFilter.Proofs.Sql.Meaning

/-!
# Rows of values

A sub-select joins the products with a table that has their values, one row for each attribute and
store. Of the rows of a product at most one counts, the keys of the table being unique, and what
the sub-select means is told by these rows.
-/

namespace SearchFilter.Fragment
open Sql

/-! ## Values of a product -/

def isValueOf (E : Engine) (link : String) (a : Attribute) (store : Int64) (product row : Row) : Bool :=
  E.same (row.value "attribute_id") (.int a.id) &&
    (E.same (row.value "store_id") (.int store) && E.same (row.value link) (product.value link))

/-- No two rows have the same keys. Null is not the same as null. -/
def UniqueKeys (E : Engine) (link : String) (rows : List Row) : Prop :=
  rows.Pairwise fun r s =>
    ¬ (E.same (r.value "attribute_id") (s.value "attribute_id") = true ∧
      E.same (r.value "store_id") (s.value "store_id") = true ∧
      E.same (r.value link) (s.value link) = true)

def valueRow? (E : Engine) (link : String) (a : Attribute) (store : Int64) (rows : List Row) (product : Row) :
    Option Row :=
  rows.find? (isValueOf E link a store product)

def SameValues (E : Engine) (a : Attribute) (store : Int64) (rows rows' : List Row) : Prop :=
  ∀ row, E.same (row.value "attribute_id") (.int a.id) = true →
    E.same (row.value "store_id") (.int store) = true → (row ∈ rows ↔ row ∈ rows')

section
variable {E : Engine} {link : String} {a : Attribute} {store : Int64} {rows rows' : List Row}

theorem isValueOf_iff (product row : Row) : isValueOf E link a store product row = true ↔
    E.same (row.value "attribute_id") (.int a.id) = true ∧ E.same (row.value "store_id") (.int store) = true ∧
      E.same (row.value link) (product.value link) = true := by
  simp [isValueOf]

theorem UniqueKeys.filter_isValueOf (h : UniqueKeys E link rows) (product : Row) :
    rows.filter (isValueOf E link a store product) = (valueRow? E link a store rows product).toList := by
  refine filter_eq_toList_find? (List.Pairwise.imp ?_ h)
  rintro r s hn ⟨hr, hs⟩
  obtain ⟨hr₁, hr₂, hr₃⟩ := (isValueOf_iff product r).1 hr
  obtain ⟨hs₁, hs₂, hs₃⟩ := (isValueOf_iff product s).1 hs
  exact hn ⟨(E.same_congr hs₁ _).trans hr₁, (E.same_congr hs₂ _).trans hr₂, (E.same_congr hs₃ _).trans hr₃⟩

/-- The rows that a join on the link leaves, restricted to the attribute and the store. -/
theorem UniqueKeys.filter_joined (h : UniqueKeys E link rows) (product : Row) :
    rows.filter (fun row =>
      (E.same (row.value "attribute_id") (.int a.id) && E.same (row.value "store_id") (.int store)) &&
        E.same (row.value link) (product.value link)) = (valueRow? E link a store rows product).toList := by
  rw [← h.filter_isValueOf]
  refine List.filter_congr fun row _ => ?_
  rw [isValueOf, Bool.and_assoc]

theorem UniqueKeys.valueRow?_eq_some_iff (h : UniqueKeys E link rows) (product row : Row) :
    valueRow? E link a store rows product = some row ↔
      row ∈ rows ∧ isValueOf E link a store product row = true := by
  rw [← Option.mem_toList, ← h.filter_isValueOf, List.mem_filter]

theorem SameValues.valueRow?_eq (h : SameValues E a store rows rows') (hk : UniqueKeys E link rows)
    (hk' : UniqueKeys E link rows') (product : Row) :
    valueRow? E link a store rows' product = valueRow? E link a store rows product := by
  refine Option.ext fun row => ?_
  rw [hk.valueRow?_eq_some_iff, hk'.valueRow?_eq_some_iff]
  refine and_congr_left fun hv => ?_
  obtain ⟨h₁, h₂, -⟩ := (isValueOf_iff product row).1 hv
  exact (h row h₁ h₂).symm

end

/-! ## The join with the values -/

def productRows (c : Catalog) (T : Tables) : List Row :=
  T (c.tableName entityTable)

def defaultJoin (table link : String) : Join :=
  ⟨.inner, ⟨table, some "main_table"⟩, sameIn "main_table" "e" link⟩

theorem matching_defaultJoin (E : Engine) (T : Tables) {table link : String} {product : Row} :
    (defaultJoin table link).matching E T [("e", product)] =
      (T table).filter fun r => E.same (r.value link) (product.value link) := by
  rw [Join.matching]
  congr 1
  funext r
  simp [defaultJoin, sameIn, isTrueIn_equal, column, Expr.eval, Table.scopeName, Keyed.get?]

/-! ## The products selected -/

section
variable (E : Engine) (T : Tables)

def Membership.rows (m : Membership) : List Row :=
  (m.select.rows E T).filter fun row => m.around.all (E.holds · row)

def Membership.ids (m : Membership) : List Value :=
  (m.rows E T).map (·.value "entity_id")

def Membership.holds (m : Membership) (id : Value) : Bool :=
  (m.ids E T).any (E.same id)

/-- In the query the condition takes the place of any other on the columns selected. -/
theorem rows_restriction_mysql (s : Select) (query : String) :
    Membership.rows E T ⟨s, restriction .mysql query⟩ =
      ({ s with having := none }.rows E T).filter (E.holds (bracketed query)) := by
  have hnone : Membership.rows E T ⟨s, restriction .mysql query⟩ =
      (s.setHaving (.raw (bracketed query))).rows E T := List.filter_eq_self.2 fun _ _ => rfl
  refine hnone.trans ?_
  exact rows_setHaving E T (s := { s with having := none }) rfl (bracketed query)

theorem ids_restriction {s : Select} (h : s.having = none) (d : Dialect) (query : String) :
    Membership.ids E T ⟨s, restriction d query⟩ =
      ((s.rows E T).filter (E.holds (bracketed query))).map (·.value "entity_id") := by
  cases d with
  | mysql =>
    have hs : { s with having := none } = s := by rw [← h]
    rw [Membership.ids, rows_restriction_mysql, hs]
  | postgres => rfl

end

theorem value_entity_id (field : String) (v w : Value) :
    Row.value [("entity_id", v), (field, w)] "entity_id" = v := by
  simp [Row.value, Keyed.get?]

theorem value_field {field : String} (hf : field ≠ "entity_id") (v w : Value) :
    Row.value [("entity_id", v), (field, w)] field = w := by
  simp [Row.value, Keyed.get?, Ne.symm hf]

end SearchFilter.Fragment
