import SearchFilter.Proofs.Fragment.Failure

/-!
# What a fragment depends on

Each kind of plan looks at a part of what it is given. Two filters with plans of one kind that
agree on this part have the same fragment, or both have none for the same reason, however much
their catalogs differ elsewhere.
-/

namespace SearchFilter.Fragment

structure Inputs where
  catalog : Catalog
  aliasOf : Filter → String
  filter : Filter
  negated : Bool
  query : String

namespace Inputs

def plan (r : Inputs) : Except CompileError Plan :=
  r.catalog.plan r.filter

def tableAlias (r : Inputs) : String :=
  r.aliasOf r.filter

def fragment (r : Inputs) (d : Dialect) : Except CompileError String :=
  r.catalog.compile d r.aliasOf r.filter r.negated r.query

/-- Both plans are of one kind, and both inputs agree on what plans of this kind look at. -/
def Agree (r s : Inputs) : Plan → Plan → Prop
  | .price, .price => r.query = s.query
  | .category, .category => r.tableAlias = s.tableAlias ∧ r.filter.operand.integer = s.filter.operand.integer
  | .visibility, .visibility => r.tableAlias = s.tableAlias ∧ r.query = s.query
  | .entityColumn a, .entityColumn b => r.tableAlias = s.tableAlias ∧ a.code = b.code ∧ r.query = s.query
  | .chosenOption _, .chosenOption _ =>
    r.tableAlias = s.tableAlias ∧ r.filter.operand = s.filter.operand ∧ r.negated = s.negated ∧
      r.catalog.flag showOutOfStock .store = s.catalog.flag showOutOfStock .store
  | .indexedRange a, .indexedRange b =>
    r.filter.field = s.filter.field ∧ r.query = s.query ∧ a.id = b.id ∧
      (a.storage = .decimal ↔ b.storage = .decimal) ∧ r.catalog.tablePrefix = s.catalog.tablePrefix ∧
      (r.catalog.links? productEntity).map (·.identifierField) =
        (s.catalog.links? productEntity).map (·.identifierField) ∧
      r.catalog.store = s.catalog.store
  | .storedValue a, .storedValue b =>
    r.filter.field = s.filter.field ∧ r.query = s.query ∧ a.id = b.id ∧ a.valueTable = b.valueTable ∧
      r.catalog.tablePrefix = s.catalog.tablePrefix ∧
      (r.catalog.links? productEntity).map (·.linkField) = (s.catalog.links? productEntity).map (·.linkField) ∧
      r.catalog.store = s.catalog.store
  | _, _ => False

end Inputs

/-! ## Sub-selects -/

section
variable {c e : Catalog} {a b : Attribute} (hp : c.tablePrefix = e.tablePrefix) (hs : c.store = e.store)
  (hi : a.id = b.id)
include hp hs hi

theorem indexedValues_congr (hd : a.storage = .decimal ↔ b.storage = .decimal) (field identifier : String) :
    indexedValues c field identifier a = indexedValues e field identifier b := by
  have ht : a.indexTable = b.indexTable := by simp only [Attribute.indexTable, hd]
  simp only [indexedValues, Catalog.tableName, hp, hs, hi, ht]

theorem storedValues_congr (ht : a.valueTable = b.valueTable) (d : Dialect) (field link : String) :
    storedValues c d field link a = storedValues e d field link b := by
  simp only [storedValues, Catalog.tableName, hp, hs, hi, ht]

end

/-! ## One plan for two inputs -/

namespace Inputs

theorem fragment_of_plan (r : Inputs) (d : Dialect) {p : Plan} (h : r.plan = .ok p) :
    r.fragment d = ofPlan r.catalog d r.tableAlias r.filter r.negated r.query p :=
  Catalog.compile_of_plan r.catalog d r.aliasOf r.filter r.negated r.query h

theorem fragment_of_plan_error (r : Inputs) (d : Dialect) {e : CompileError} (h : r.plan = .error e) :
    r.fragment d = .error e :=
  Catalog.compile_of_plan_error r.catalog d r.aliasOf r.filter r.negated r.query h

theorem ofPlan_eq_of_agree (d : Dialect) {r s : Inputs} {p q : Plan} (h : r.Agree s p q) :
    ofPlan r.catalog d r.tableAlias r.filter r.negated r.query p =
      ofPlan s.catalog d s.tableAlias s.filter s.negated s.query q := by
  unfold Agree at h
  split at h
  case h_1 =>
    simp only [ofPlan, h]
  case h_2 =>
    obtain ⟨ha, ho⟩ := h
    simp only [ofPlan, ha, ho]
  case h_3 =>
    obtain ⟨ha, hq⟩ := h
    simp only [ofPlan, ha, hq]
  case h_4 =>
    obtain ⟨ha, hc, hq⟩ := h
    simp only [ofPlan, ha, hc, hq]
  case h_5 =>
    obtain ⟨ha, ho, hn, hf⟩ := h
    have hh : r.catalog.hidesOutOfStock = s.catalog.hidesOutOfStock := by
      rw [Catalog.hidesOutOfStock, Catalog.hidesOutOfStock, hf]
    simp only [ofPlan, ha, ho, hn, hh]
  case h_6 a b =>
    obtain ⟨hf, hq, hi, hd, hp, hl, hs⟩ := h
    rw [ofPlan_indexedRange, ofPlan_indexedRange, hl, hf, hq]
    simp only [indexedValues_congr hp hs hi hd]
  case h_7 a b =>
    obtain ⟨hf, hq, hi, ht, hp, hl, hs⟩ := h
    rw [ofPlan_storedValue, ofPlan_storedValue, hl, hf, hq]
    simp only [storedValues_congr hp hs hi ht]
  case h_8 => exact h.elim

/-- Inputs with the same error in place of a plan have it in place of a fragment. -/
theorem fragment_congr (d : Dialect) {r s : Inputs} (hplan : r.plan = s.plan)
    (h : ∀ p, r.plan = .ok p → r.Agree s p p) : r.fragment d = s.fragment d := by
  cases hp : r.plan with
  | ok p =>
    rw [fragment_of_plan r d hp, fragment_of_plan s d (hplan.symm.trans hp)]
    exact ofPlan_eq_of_agree d (h p hp)
  | error e => rw [fragment_of_plan_error r d hp, fragment_of_plan_error s d (hplan.symm.trans hp)]

section
variable (r : Inputs) {p : Plan}

theorem agree_catalog (h : Plan.reserved? r.filter.field = some p) (c : Catalog) :
    Agree { r with catalog := c } r p p := by
  unfold Plan.reserved? at h
  split at h
  · cases h; exact rfl
  · split at h
    · cases h; exact ⟨rfl, rfl⟩
    · split at h
      · cases h; exact ⟨rfl, rfl⟩
      · cases h

theorem agree_negated (h : ∀ a, p ≠ .chosenOption a) (negated : Bool) :
    Agree { r with negated := negated } r p p := by
  cases p with
  | chosenOption a => exact absurd rfl (h a)
  | _ => simp [Agree, tableAlias]

theorem agree_operand (hc : p ≠ .category) (ho : ∀ a, p ≠ .chosenOption a) {operand : Operand}
    (ha : r.aliasOf { r.filter with operand := operand } = r.tableAlias) :
    Agree { r with filter := { r.filter with operand := operand } } r p p := by
  have hs : tableAlias { r with filter := { r.filter with operand := operand } } = r.tableAlias := ha
  cases p with
  | category => exact absurd rfl hc
  | chosenOption a => exact absurd rfl (ho a)
  | _ => simp [Agree, hs]

theorem agree_query (h : p = .category ∨ ∃ a, p = .chosenOption a) (query : String) :
    Agree { r with query := query } r p p := by
  rcases h with rfl | ⟨a, rfl⟩
  · exact ⟨rfl, rfl⟩
  · exact ⟨rfl, rfl, rfl, rfl⟩

end

/-- Two inputs with plans of one kind that agree on what this kind looks at have the same fragment
or the same error. So the catalog does not matter for a reserved field, the negation only for
options to choose from, the operand only for these and for categories, for which the condition
does not matter. -/
theorem fragment_eq_of_agree (d : Dialect) (r : Inputs) :
    (∀ s p q, r.plan = .ok p → s.plan = .ok q → r.Agree s p q → r.fragment d = s.fragment d) ∧
      (∀ c : Catalog, Reserved r.filter.field → { r with catalog := c }.fragment d = r.fragment d) ∧
      (∀ negated : Bool, (∀ a, r.plan ≠ .ok (.chosenOption a)) →
        { r with negated := negated }.fragment d = r.fragment d) ∧
      (∀ operand : Operand, r.plan ≠ .ok .category → (∀ a, r.plan ≠ .ok (.chosenOption a)) →
        r.aliasOf { r.filter with operand := operand } = r.tableAlias →
          { r with filter := { r.filter with operand := operand } }.fragment d = r.fragment d) ∧
      ∀ query : String, (r.plan = .ok .category ∨ ∃ a, r.plan = .ok (.chosenOption a)) →
        { r with query := query }.fragment d = r.fragment d := by
  refine ⟨?_, ?_, ?_, ?_, ?_⟩
  · intro s p q hp hq h
    rw [fragment_of_plan r d hp, fragment_of_plan s d hq]
    exact ofPlan_eq_of_agree d h
  · intro c hr
    obtain ⟨p, hp⟩ := Option.ne_none_iff_exists'.1 fun h => (Plan.reserved?_eq_none_iff _).1 h hr
    have hplan : ∀ c' : Catalog, c'.plan r.filter = .ok p := fun c' => c'.plan_of_reserved? r.filter hp
    refine fragment_congr d ((hplan c).trans (hplan r.catalog).symm) fun q hq => ?_
    cases (hplan c).symm.trans hq
    exact agree_catalog r hp c
  · intro negated h
    exact fragment_congr d rfl fun p hp => agree_negated r (fun a ha => h a (ha ▸ hp)) negated
  · intro operand hc ho ha
    refine fragment_congr d rfl fun p hp => agree_operand r ?_ (fun a h => ho a (h ▸ hp)) ha
    exact fun h => hc (h ▸ hp)
  · intro query h
    refine fragment_congr d rfl fun p hp => agree_query r ?_ query
    have hq : r.plan = .ok p := hp
    rw [hq] at h
    simpa using h

def weights : Inputs where
  catalog :=
    { Catalog.empty with
      tablePrefix := "m_"
      entities := [(productEntity, ⟨"row_id", "entity_id"⟩)]
      attributes := [⟨"weight", 82, .decimal, .weight, none⟩] }
  aliasOf := Filter.tableAlias
  filter := ⟨"weight", .range, .one (.int 5)⟩
  negated := false
  query := "weight > 5"

def otherWeights : Inputs where
  catalog :=
    { tablePrefix := "m_"
      store := defaultStore
      entities := [("catalog_category", ⟨"id", "id"⟩), (productEntity, ⟨"entity_id", "entity_id"⟩)]
      attributes := [⟨"size", 82, .int, .text, none⟩, ⟨"weight", 82, .decimal, .price, some "weights"⟩]
      flags := [(showOutOfStock, true)] }
  aliasOf _ := "w"
  filter := ⟨"weight", .range, .set []⟩
  negated := true
  query := "weight > 5"

def categories : Inputs :=
  { weights with filter := ⟨"category_ids", .term, .one (.text "7.9 items")⟩ }

theorem fragment_eq_of_agree_weights :
    weights.plan = .ok (.indexedRange ⟨"weight", 82, .decimal, .weight, none⟩) ∧
      otherWeights.plan = .ok (.indexedRange ⟨"weight", 82, .decimal, .price, some "weights"⟩) ∧
      weights.fragment .mysql = otherWeights.fragment .mysql ∧
      { weights with negated := true }.fragment .mysql = weights.fragment .mysql ∧
      { weights with filter := ⟨"weight", .range, .set []⟩ }.fragment .mysql = weights.fragment .mysql ∧
      { categories with catalog := otherWeights.catalog }.fragment .mysql = categories.fragment .mysql ∧
      { categories with query := ")" }.fragment .mysql = categories.fragment .mysql := by
  have hw : weights.plan = .ok (.indexedRange ⟨"weight", 82, .decimal, .weight, none⟩) := by rfl
  have ho : otherWeights.plan = .ok (.indexedRange ⟨"weight", 82, .decimal, .price, some "weights"⟩) := by rfl
  have hc : categories.plan = .ok .category := by rfl
  have hn : ∀ a, weights.plan ≠ .ok (.chosenOption a) := by simp [hw]
  obtain ⟨hagree, -, hnegated, hoperand, -⟩ := fragment_eq_of_agree .mysql weights
  obtain ⟨-, hcatalog, -, -, hquery⟩ := fragment_eq_of_agree .mysql categories
  refine ⟨hw, ho, ?_, hnegated true hn, ?_, ?_, ?_⟩
  · exact hagree otherWeights _ _ hw ho ⟨rfl, rfl, rfl, Iff.rfl, rfl, rfl, rfl⟩
  · exact hoperand (.set []) (by simp [hw]) hn rfl
  · exact hcatalog otherWeights.catalog (Or.inr (Or.inl rfl))
  · exact hquery ")" (Or.inl hc)

end Inputs

end SearchFilter.Fragment
