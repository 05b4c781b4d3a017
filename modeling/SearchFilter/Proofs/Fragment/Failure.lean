import SearchFilter.Fragment.Compile

/-!
# When there is no fragment

A filter has no plan if nothing knows its field. A plan has no fragment if it needs a column that
links products with their values and the catalog has none. Nothing else fails.
-/

namespace SearchFilter

theorem Keyed.get?_eq_none_iff {α : Type} (key : String) (m : Keyed α) :
    m.get? key = none ↔ ∀ x, (key, x) ∉ m := by
  rw [get?, Option.map_eq_none_iff, List.find?_eq_none]
  constructor
  · intro h x hx
    exact h (key, x) hx (by simp)
  · rintro h ⟨k, x⟩ hx hk
    obtain rfl : k = key := by simpa using hk
    exact h x hx

def Reserved (field : String) : Prop :=
  field = priceField ∨ field = categoryField ∨ field = visibilityField

def Attribute.IsApart (a : Attribute) (kind : FilterKind) : Prop :=
  a.storage ≠ .static ∧ ¬ (kind = .term ∧ (a.input = .select ∨ a.input = .multiselect))

/-! ## Plans -/

namespace Plan

theorem reserved?_eq_none_iff (field : String) : reserved? field = none ↔ ¬ Reserved field := by
  unfold reserved? Reserved
  by_cases hp : field = priceField
  · simp [hp]
  · by_cases hc : field = categoryField
    · rw [if_neg hp, if_pos hc]
      simp [hc]
    · by_cases hv : field = visibilityField
      · rw [if_neg hp, if_neg hc, if_pos hv]
        simp [hv]
      · simp [hp, hc, hv]

def needsLinks : Plan → Bool
  | indexedRange _ | storedValue _ => true
  | _ => false

theorem needsLinks_of_reserved? {field : String} {p : Plan} (h : reserved? field = some p) :
    p.needsLinks = false := by
  unfold reserved? at h
  split at h
  · cases h; rfl
  · split at h
    · cases h; rfl
    · split at h
      · cases h; rfl
      · cases h

theorem needsLinks_ofAttribute (kind : FilterKind) (a : Attribute) :
    (ofAttribute kind a).needsLinks = true ↔ a.IsApart kind := by
  have hs : a.isStatic = true ↔ a.storage = .static := by simp [Attribute.isStatic]
  have hi : a.input.isSelection = true ↔ a.input = .select ∨ a.input = .multiselect := by simp [Input.isSelection]
  rw [ofAttribute, Attribute.IsApart, ← hi, ne_eq, ← hs]
  by_cases h₁ : a.isStatic = true
  · simp [h₁, needsLinks]
  · by_cases h₂ : kind = .term ∧ a.input.isSelection = true
    · simp [h₁, h₂, needsLinks]
    · rw [if_neg h₁, if_neg h₂]
      -- the index of ranges and the table of values are both joined
      have hn : (if kind = .range ∧ a.storage.isNumeric = true then indexedRange a else storedValue a).needsLinks =
          true := by
        split <;> rfl
      exact iff_of_true hn ⟨h₁, h₂⟩

end Plan

namespace Catalog

def Unknown (c : Catalog) (field : String) : Prop :=
  ¬ Reserved field ∧ ∀ a ∈ c.attributes, a.code ≠ field

def Unlinked (c : Catalog) (f : Filter) : Prop :=
  ¬ Reserved f.field ∧ (∃ a, c.attributes.find? (·.code = f.field) = some a ∧ a.IsApart f.kind) ∧
    ∀ links, (productEntity, links) ∉ c.entities

section
variable (c : Catalog) (f : Filter)

theorem attribute?_product (field : String) :
    c.attribute? productEntity field = c.attributes.find? (·.code = field) :=
  if_pos rfl

theorem plan_of_reserved? {p : Plan} (h : Plan.reserved? f.field = some p) : c.plan f = .ok p := by
  rw [plan, h]

/-- A field that is not reserved has the plan of its attribute. -/
theorem plan_of_not_reserved (h : ¬ Reserved f.field) :
    c.plan f =
      match c.attributes.find? (·.code = f.field) with
      | some a => .ok (.ofAttribute f.kind a)
      | none => .error (.unknownAttribute f.field productEntity) := by
  rw [plan, (Plan.reserved?_eq_none_iff f.field).2 h]
  show Except.map _ (c.findAttribute productEntity f.field) = _
  rw [findAttribute, attribute?_product]
  cases c.attributes.find? (·.code = f.field) <;> rfl

theorem find?_eq_none_iff (field : String) :
    c.attributes.find? (·.code = field) = none ↔ ∀ a ∈ c.attributes, a.code ≠ field := by
  simp

theorem plan_eq_error_iff (e : CompileError) :
    c.plan f = .error e ↔ c.Unknown f.field ∧ e = .unknownAttribute f.field productEntity := by
  by_cases hr : Reserved f.field
  · obtain ⟨p, hp⟩ := Option.ne_none_iff_exists'.1 fun h => (Plan.reserved?_eq_none_iff f.field).1 h hr
    rw [plan_of_reserved? c f hp]
    exact iff_of_false (by simp) fun h => h.1.1 hr
  · rw [plan_of_not_reserved c f hr, Unknown, ← find?_eq_none_iff]
    cases c.attributes.find? (·.code = f.field) with
    | none => simp [hr, eq_comm]
    | some a => simp

/-- Which filters have a plan that needs a link. -/
theorem exists_plan_needsLinks_iff :
    (∃ p, c.plan f = .ok p ∧ p.needsLinks = true) ↔
      ¬ Reserved f.field ∧ ∃ a, c.attributes.find? (·.code = f.field) = some a ∧ a.IsApart f.kind := by
  by_cases hr : Reserved f.field
  · obtain ⟨p, hp⟩ := Option.ne_none_iff_exists'.1 fun h => (Plan.reserved?_eq_none_iff f.field).1 h hr
    rw [plan_of_reserved? c f hp]
    refine iff_of_false ?_ fun h => h.1 hr
    rintro ⟨q, hq, hn⟩
    cases hq
    rw [Plan.needsLinks_of_reserved? hp] at hn
    cases hn
  · rw [plan_of_not_reserved c f hr]
    cases c.attributes.find? (·.code = f.field) with
    | none => simp
    | some a => simp [hr, Plan.needsLinks_ofAttribute]

end

end Catalog

/-! ## Fragments -/

namespace Fragment

def linked (column? : Option String) (fragment : String → String) : Except CompileError String :=
  match column? with
  | some column => .ok (fragment column)
  | none => .error (.unknownLinks productEntity)

theorem linked_eq_ok_iff (column? : Option String) (fragment : String → String) (text : String) :
    linked column? fragment = .ok text ↔ ∃ column, column? = some column ∧ fragment column = text := by
  cases column? <;> simp [linked]

theorem findLinks_bind (c : Catalog) (column : Links → String) (fragment : String → String) :
    (c.findLinks productEntity >>= fun links => .ok (fragment (column links))) =
      linked ((c.links? productEntity).map column) fragment := by
  rw [Catalog.findLinks]
  cases c.links? productEntity <;> rfl

section
variable (c : Catalog) (d : Dialect) (tableAlias : String) (f : Filter) (negated : Bool) (query : String)

theorem ofPlan_indexedRange (a : Attribute) :
    ofPlan c d tableAlias f negated query (.indexedRange a) =
      linked ((c.links? productEntity).map (·.identifierField)) fun identifier =>
        amongEntities d (indexedValues c f.field identifier a) query :=
  findLinks_bind c (·.identifierField) fun identifier => amongEntities d (indexedValues c f.field identifier a) query

theorem ofPlan_storedValue (a : Attribute) :
    ofPlan c d tableAlias f negated query (.storedValue a) =
      linked ((c.links? productEntity).map (·.linkField)) fun link =>
        amongEntities d (storedValues c d f.field link a) query :=
  findLinks_bind c (·.linkField) fun link => amongEntities d (storedValues c d f.field link a) query

theorem linked_eq_error_iff (column : Links → String) (fragment : String → String) (e : CompileError) :
    linked ((c.links? productEntity).map column) fragment = .error e ↔
      (∀ links, (productEntity, links) ∉ c.entities) ∧ e = .unknownLinks productEntity := by
  rw [← Keyed.get?_eq_none_iff]
  show _ ↔ c.links? productEntity = none ∧ _
  cases c.links? productEntity with
  | none => simp [linked, eq_comm]
  | some links => simp [linked]

theorem ofPlan_eq_error_iff (p : Plan) (e : CompileError) :
    ofPlan c d tableAlias f negated query p = .error e ↔
      p.needsLinks = true ∧ (∀ links, (productEntity, links) ∉ c.entities) ∧ e = .unknownLinks productEntity := by
  cases p with
  | indexedRange a => rw [ofPlan_indexedRange, linked_eq_error_iff]; simp [Plan.needsLinks]
  | storedValue a => rw [ofPlan_storedValue, linked_eq_error_iff]; simp [Plan.needsLinks]
  | _ => simp [ofPlan, Plan.needsLinks]

end

end Fragment

namespace Catalog

section
variable (c : Catalog) (d : Dialect) (aliasOf : Filter → String) (f : Filter) (negated : Bool) (query : String)

theorem compile_of_plan {p : Plan} (h : c.plan f = .ok p) :
    c.compile d aliasOf f negated query = Fragment.ofPlan c d (aliasOf f) f negated query p := by
  rw [compile, h]; rfl

theorem compile_of_plan_error {e : CompileError} (h : c.plan f = .error e) :
    c.compile d aliasOf f negated query = .error e := by
  rw [compile, h]; rfl

theorem compile_eq_error_iff (e : CompileError) :
    c.compile d aliasOf f negated query = .error e ↔
      c.Unknown f.field ∧ e = .unknownAttribute f.field productEntity ∨
        c.Unlinked f ∧ e = .unknownLinks productEntity := by
  have hu : c.Unlinked f ↔
      (∃ p, c.plan f = .ok p ∧ p.needsLinks = true) ∧ ∀ links, (productEntity, links) ∉ c.entities := by
    rw [exists_plan_needsLinks_iff, Unlinked, and_assoc]
  rw [hu, ← plan_eq_error_iff]
  cases hp : c.plan f with
  | error e' => simp [compile_of_plan_error c d aliasOf f negated query hp]
  | ok p =>
    rw [compile_of_plan c d aliasOf f negated query hp, Fragment.ofPlan_eq_error_iff]
    simp [and_assoc]

theorem not_unknown_of_unlinked (h : c.Unlinked f) : ¬ c.Unknown f.field := by
  obtain ⟨-, ⟨a, ha, -⟩, -⟩ := h
  intro hu
  rw [(find?_eq_none_iff c f.field).2 hu.2] at ha
  cases ha

/-- A filter has no fragment for one of two reasons, which exclude each other: nothing knows its
field, and then it has no plan either, or its plan needs a link and the catalog has none. -/
theorem compile_fails_iff :
    (c.compile d aliasOf f negated query = .error (.unknownAttribute f.field productEntity) ↔ c.Unknown f.field) ∧
      (c.compile d aliasOf f negated query = .error (.unknownLinks productEntity) ↔ c.Unlinked f) ∧
      ((∃ text, c.compile d aliasOf f negated query = .ok text) ↔ ¬ c.Unknown f.field ∧ ¬ c.Unlinked f) ∧
      (∀ e, c.plan f = .error e ↔ c.Unknown f.field ∧ e = .unknownAttribute f.field productEntity) ∧
      ((∃ text, c.compile d aliasOf f negated query = .ok text) → ∃ p, c.plan f = .ok p) ∧
      ∀ p e, c.plan f = .ok p → c.compile d aliasOf f negated query = .error e → e = .unknownLinks productEntity := by
  have herror := compile_eq_error_iff c d aliasOf f negated query
  have hok : (∃ text, c.compile d aliasOf f negated query = .ok text) ↔ ¬ c.Unknown f.field ∧ ¬ c.Unlinked f := by
    constructor
    · rintro ⟨text, ht⟩
      refine ⟨fun h => ?_, fun h => ?_⟩
      · cases ht.symm.trans ((herror _).2 (Or.inl ⟨h, rfl⟩))
      · cases ht.symm.trans ((herror _).2 (Or.inr ⟨h, rfl⟩))
    · rintro ⟨hn, hl⟩
      cases h : c.compile d aliasOf f negated query with
      | ok text => exact ⟨text, rfl⟩
      | error e =>
        rcases (herror e).1 h with h | h
        · exact absurd h.1 hn
        · exact absurd h.1 hl
  refine ⟨?_, ?_, hok, plan_eq_error_iff c f, ?_, ?_⟩
  · rw [herror]; simp
  · rw [herror]; simp
  · intro h
    cases hp : c.plan f with
    | ok p => exact ⟨p, rfl⟩
    | error e => exact absurd ((plan_eq_error_iff c f e).1 hp).1 (hok.1 h).1
  · intro p e hp he
    rcases (herror e).1 he with h | h
    · cases hp.symm.trans ((plan_eq_error_iff c f e).2 h)
    · exact h.2

end

def withoutLinks : Catalog where
  tablePrefix := ""
  store := 1
  entities := [("catalog_category", ⟨"entity_id", "entity_id"⟩)]
  attributes := [⟨"size", 5, .decimal, .select, none⟩, ⟨"size", 6, .static, .text, none⟩]
  flags := []

theorem compile_fails_iff_withoutLinks :
    let f : Filter := ⟨"size", .range, .one .null⟩
    withoutLinks.Unlinked f ∧ ¬ withoutLinks.Unknown "size" ∧ withoutLinks.Unknown "weight" ∧
      withoutLinks.compile .mysql Filter.tableAlias f false "size > 3" = .error (.unknownLinks productEntity) ∧
      withoutLinks.compile .mysql Filter.tableAlias ⟨"weight", .range, .one .null⟩ false "weight > 3" =
        .error (.unknownAttribute "weight" productEntity) := by
  intro f
  have hl : withoutLinks.Unlinked f := by
    refine ⟨by simp [Reserved, f, priceField, categoryField, visibilityField], ⟨_, rfl, by simp, ?_⟩, ?_⟩
    · simp [f]
    · simp [withoutLinks, productEntity]
  have hu : withoutLinks.Unknown "weight" := by
    simp [Unknown, Reserved, withoutLinks, priceField, categoryField, visibilityField]
  exact ⟨hl, not_unknown_of_unlinked withoutLinks f hl, hu,
    (compile_fails_iff withoutLinks .mysql Filter.tableAlias f false "size > 3").2.1.2 hl,
    (compile_fails_iff withoutLinks .mysql Filter.tableAlias ⟨"weight", .range, .one .null⟩ false "weight > 3").1.2 hu⟩

end Catalog

end SearchFilter
