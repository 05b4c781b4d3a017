import SearchFilter.Proofs.Fragment.Dependence
import SearchFilter.Proofs.LastWrite

/-!
# Changed catalogs

A catalog is changed by writes to its settings: an attribute, the links of an entity, a flag, the
store or the prefix of its tables. Each setting is afterwards what was written to it last. So it
does not show in any answer of the catalog, nor in any fragment, in which order different settings
were written.
-/

namespace SearchFilter.Catalog

inductive Change
  | putAttribute (a : Attribute)
  | putEntity (entity : String) (links : Links)
  | putFlag (path : String) (flag : Bool)
  | setStore (store : Int64)
  | setTablePrefix (tablePrefix : String)
  deriving DecidableEq, Repr

namespace Change

def attribute? (code : String) : Change → Option Attribute
  | putAttribute a => if a.code = code then some a else none
  | _ => none

def links? (entity : String) : Change → Option Links
  | putEntity e links => if e = entity then some links else none
  | _ => none

def flag? (path : String) : Change → Option Bool
  | putFlag p flag => if p = path then some flag else none
  | _ => none

def store? : Change → Option Int64
  | setStore store => some store
  | _ => none

def tablePrefix? : Change → Option String
  | setTablePrefix tablePrefix => some tablePrefix
  | _ => none

end Change

def step (c : Catalog) : Change → Catalog
  | .putAttribute a => c.putAttribute a
  | .putEntity entity links => c.putEntity entity links
  | .putFlag path flag => c.putFlag path flag
  | .setStore store => c.setStore store
  | .setTablePrefix tablePrefix => c.setTablePrefix tablePrefix

def run (c : Catalog) (changes : List Change) : Catalog :=
  changes.foldl step c

/-! ## What one change does -/

def attributesWith (c : Catalog) (code : String) : List Attribute :=
  c.attributes.filter (·.code = code)

section
variable (c : Catalog) (change : Change)

theorem attributesWith_putAttribute (a : Attribute) (code : String) :
    (c.putAttribute a).attributesWith code = if a.code = code then [a] else c.attributesWith code := by
  unfold attributesWith putAttribute
  rw [List.filter_append, List.filter_filter]
  by_cases h : a.code = code
  · have hnone : c.attributes.filter (fun b => decide (b.code = code) && decide (b.code ≠ a.code)) = [] := by
      simp [h]
    rw [hnone, if_pos h]
    simp [h]
  · have hall : ∀ b : Attribute, (decide (b.code = code) && decide (b.code ≠ a.code)) = decide (b.code = code) := by
      intro b
      by_cases hb : b.code = code
      · simp [hb, Ne.symm h]
      · simp [hb]
    simp only [hall, if_neg h]
    simp [h]

theorem attributesWith_step (code : String) :
    (c.step change).attributesWith code = (change.attribute? code).elim (c.attributesWith code) ([·]) := by
  cases change with
  | putAttribute a =>
    show (c.putAttribute a).attributesWith code = _
    rw [attributesWith_putAttribute, Change.attribute?]
    by_cases h : a.code = code
    · simp [h]
    · simp [h]
  | _ => rfl

theorem get?_put {α : Type} (key other : String) (x : α) (m : Keyed α) :
    (m.put key x).get? other = (if key = other then some x else none).elim (m.get? other) some := by
  by_cases h : key = other
  · subst h
    simp
  · rw [Keyed.get?_put_of_ne x m (Ne.symm h), if_neg h]
    rfl

theorem links?_step (entity : String) :
    (c.step change).links? entity = (change.links? entity).elim (c.links? entity) some := by
  cases change with
  | putEntity e links => exact get?_put e entity links c.entities
  | _ => rfl

theorem get?_flags_step (path : String) :
    (c.step change).flags.get? path = (change.flag? path).elim (c.flags.get? path) some := by
  cases change with
  | putFlag p flag => exact get?_put p path flag c.flags
  | _ => rfl

theorem store_step : (c.step change).store = change.store?.elim c.store id := by
  cases change <;> rfl

theorem tablePrefix_step : (c.step change).tablePrefix = change.tablePrefix?.elim c.tablePrefix id := by
  cases change <;> rfl

end

/-! ## What many changes do -/

section
variable (c : Catalog) (changes : List Change)

theorem attributesWith_run (code : String) :
    (c.run changes).attributesWith code =
      (lastWrite? (Change.attribute? code) changes).elim (c.attributesWith code) ([·]) :=
  foldl_lastWrite (attributesWith · code) (fun s a => attributesWith_step s a code) c changes

theorem attribute?_run (code : String) :
    (c.run changes).attribute? productEntity code =
      (lastWrite? (Change.attribute? code) changes).or (c.attributes.find? (·.code = code)) := by
  have hhead : ∀ e : Catalog, e.attribute? productEntity code = (e.attributesWith code).head? := by
    intro e
    rw [attribute?_product, attributesWith, List.head?_filter]
  rw [hhead, attributesWith_run, ← attribute?_product, hhead]
  cases lastWrite? (Change.attribute? code) changes <;> rfl

theorem links?_run (entity : String) :
    (c.run changes).links? entity = (lastWrite? (Change.links? entity) changes).or (c.links? entity) := by
  refine (foldl_lastWrite (links? · entity) (fun s a => links?_step s a entity) c changes).trans ?_
  cases lastWrite? (Change.links? entity) changes <;> rfl

theorem get?_flags_run (path : String) :
    (c.run changes).flags.get? path = (lastWrite? (Change.flag? path) changes).or (c.flags.get? path) := by
  refine (foldl_lastWrite (·.flags.get? path) (fun s a => get?_flags_step s a path) c changes).trans ?_
  cases lastWrite? (Change.flag? path) changes <;> rfl

theorem store_run : (c.run changes).store = (lastWrite? Change.store? changes).getD c.store := by
  refine (foldl_lastWrite store store_step c changes).trans ?_
  cases lastWrite? Change.store? changes <;> rfl

theorem tablePrefix_run :
    (c.run changes).tablePrefix = (lastWrite? Change.tablePrefix? changes).getD c.tablePrefix := by
  refine (foldl_lastWrite tablePrefix tablePrefix_step c changes).trans ?_
  cases lastWrite? Change.tablePrefix? changes <;> rfl

end

/-! ## Catalogs that answer alike -/

structure Alike (c e : Catalog) : Prop where
  attribute? : ∀ entity code, c.attribute? entity code = e.attribute? entity code
  links? : ∀ entity, c.links? entity = e.links? entity
  flag : ∀ path level, c.flag path level = e.flag path level
  store : c.store = e.store
  tableName : ∀ name, c.tableName name = e.tableName name

namespace Alike
variable {c e : Catalog} (h : c.Alike e)
include h

theorem tablePrefix : c.tablePrefix = e.tablePrefix := by
  simpa [Catalog.tableName] using h.tableName ""

theorem plan (f : Filter) : c.plan f = e.plan f := by
  simp only [Catalog.plan, findAttribute, h.attribute?]

theorem compile (d : Dialect) (aliasOf : Filter → String) (f : Filter) (negated : Bool) (query : String) :
    c.compile d aliasOf f negated query = e.compile d aliasOf f negated query := by
  let r : Fragment.Inputs := ⟨c, aliasOf, f, negated, query⟩
  let s : Fragment.Inputs := ⟨e, aliasOf, f, negated, query⟩
  refine Fragment.Inputs.fragment_congr (r := r) (s := s) d (h.plan f) fun p _ => ?_
  have hl := h.links? productEntity
  cases p with
  | chosenOption a => exact ⟨rfl, rfl, rfl, h.flag _ _⟩
  | indexedRange a => exact ⟨rfl, rfl, rfl, Iff.rfl, h.tablePrefix, congrArg _ hl, h.store⟩
  | storedValue a => exact ⟨rfl, rfl, rfl, rfl, h.tablePrefix, congrArg _ hl, h.store⟩
  | _ => simp [Fragment.Inputs.Agree, Fragment.Inputs.tableAlias, r, s]

end Alike

structure SameWrites (changes changes' : List Change) : Prop where
  attribute? : ∀ code, lastWrite? (Change.attribute? code) changes = lastWrite? (Change.attribute? code) changes'
  links? : ∀ entity, lastWrite? (Change.links? entity) changes = lastWrite? (Change.links? entity) changes'
  flag? : ∀ path, lastWrite? (Change.flag? path) changes = lastWrite? (Change.flag? path) changes'
  store? : lastWrite? Change.store? changes = lastWrite? Change.store? changes'
  tablePrefix? : lastWrite? Change.tablePrefix? changes = lastWrite? Change.tablePrefix? changes'

theorem SameWrites.alike {changes changes' : List Change} (h : SameWrites changes changes') (c : Catalog) :
    (c.run changes).Alike (c.run changes') where
  attribute? entity code := by
    by_cases he : entity = productEntity
    · subst he
      rw [attribute?_run, attribute?_run, h.attribute?]
    · simp only [Catalog.attribute?, if_neg he]
  links? entity := by rw [links?_run, links?_run, h.links?]
  flag path _ := by
    unfold flag
    rw [get?_flags_run, get?_flags_run, h.flag?]
  store := by rw [store_run, store_run, h.store?]
  tableName name := by
    unfold tableName
    rw [tablePrefix_run, tablePrefix_run, h.tablePrefix?]

/-- Each setting of a changed catalog is what was written to it last, or else what it was; an
attribute that was written is there once. Changes that end up writing the same make catalogs that
answer alike and give every filter the same fragment. -/
theorem run_eq_lastWrites (c : Catalog) (changes : List Change) :
    (∀ code, (c.run changes).attribute? productEntity code =
        (lastWrite? (Change.attribute? code) changes).or (c.attributes.find? (·.code = code))) ∧
      (∀ entity, (c.run changes).links? entity =
        (lastWrite? (Change.links? entity) changes).or (c.links? entity)) ∧
      (∀ path, (c.run changes).flags.get? path =
        (lastWrite? (Change.flag? path) changes).or (c.flags.get? path)) ∧
      (c.run changes).store = (lastWrite? Change.store? changes).getD c.store ∧
      (c.run changes).tablePrefix = (lastWrite? Change.tablePrefix? changes).getD c.tablePrefix ∧
      (∀ a, .putAttribute a ∈ changes → (c.run changes).attributes.countP (·.code = a.code) = 1) ∧
      ∀ changes', SameWrites changes changes' →
        (c.run changes).Alike (c.run changes') ∧
          (∀ f, (c.run changes).plan f = (c.run changes').plan f) ∧
          ∀ d aliasOf f negated query,
            (c.run changes).compile d aliasOf f negated query = (c.run changes').compile d aliasOf f negated query := by
  refine ⟨attribute?_run c changes, links?_run c changes, get?_flags_run c changes, store_run c changes,
    tablePrefix_run c changes, ?_, ?_⟩
  · intro a ha
    have hmem : a ∈ changes.filterMap (Change.attribute? a.code) :=
      List.mem_filterMap.2 ⟨_, ha, if_pos rfl⟩
    obtain ⟨b, hb⟩ : ∃ b, lastWrite? (Change.attribute? a.code) changes = some b :=
      ⟨_, List.getLast?_eq_some_getLast (List.ne_nil_of_mem hmem)⟩
    have hone := attributesWith_run c changes a.code
    rw [hb] at hone
    rw [List.countP_eq_length_filter]
    exact congrArg List.length hone
  · intro changes' h
    have hx := h.alike c
    exact ⟨hx, hx.plan, hx.compile⟩

def repeated : Catalog :=
  { empty with attributes := [⟨"size", 5, .decimal, .select, none⟩, ⟨"size", 6, .static, .text, none⟩] }

def sizeChanges : List Change :=
  [.putAttribute ⟨"size", 7, .int, .price, none⟩, .setStore 3, .putFlag showOutOfStock false,
    .putAttribute ⟨"size", 8, .varchar, .text, some "sizes"⟩, .setTablePrefix "m_", .putFlag showOutOfStock true]

def sizeWrites : List Change :=
  [.setTablePrefix "m_", .putFlag showOutOfStock true, .putAttribute ⟨"size", 8, .varchar, .text, some "sizes"⟩,
    .setStore 3]

theorem run_eq_lastWrites_repeated :
    SameWrites sizeChanges sizeWrites ∧
      (repeated.run sizeChanges).attribute? productEntity "size" = some ⟨"size", 8, .varchar, .text, some "sizes"⟩ ∧
      (repeated.run sizeChanges).attributes.countP (·.code = "size") = 1 ∧
      (repeated.run sizeChanges).compile .mysql Filter.tableAlias ⟨"size", .range, .one .null⟩ false "size > 3" =
        (repeated.run sizeWrites).compile .mysql Filter.tableAlias ⟨"size", .range, .one .null⟩ false "size > 3" := by
  have hsame : SameWrites sizeChanges sizeWrites := by
    refine ⟨fun code => ?_, fun entity => rfl, fun path => ?_, rfl, rfl⟩
    · by_cases h : "size" = code
      · subst h
        rfl
      · simp only [lastWrite?, sizeChanges, sizeWrites, List.filterMap_cons, Change.attribute?, if_neg h]
    · by_cases h : showOutOfStock = path
      · subst h
        rfl
      · simp only [lastWrite?, sizeChanges, sizeWrites, List.filterMap_cons, Change.flag?, if_neg h]
  obtain ⟨hattribute, -, -, -, -, honce, hlast⟩ := run_eq_lastWrites repeated sizeChanges
  refine ⟨hsame, ?_, ?_, (hlast sizeWrites hsame).2.2 _ _ _ _ _⟩
  · rw [hattribute]
    rfl
  · exact honce ⟨"size", 7, .int, .price, none⟩ (by simp [sizeChanges])

end SearchFilter.Catalog
