import SearchFilter.Catalog.Format
import SearchFilter.Proofs.Json.RoundTrip
import SearchFilter.Proofs.LastWrite

/-!
# What catalogs are read from

A record is read from an object, in which each field has one value or none whatever else is in it,
or from an array, which may end early. A catalog is what its fields say, and where they say
nothing, what an empty catalog has.
-/

namespace SearchFilter
open Json

namespace Json.Node

/-! ## Records -/

/-- The fields of a record, in the order of their names. -/
inductive Fields (names : List String) : Node → List (Option Node) → Prop
  | object {ms : List (List Piece × Node)} {entries : List (String × Node)} {fields : List (Option Node)}
      (hkeys : List.Forall₂ (fun m entry => Piece.text? m.1 = some entry.1 ∧ m.2 = entry.2) ms entries)
      (hfields : List.Forall₂ (fun name field => (entries.filter (·.1 = name)).map (·.2) = field.toList)
        names fields) :
      Fields names (object ms) fields
  | array {xs : List Node} (h : xs.length ≤ names.length) :
      Fields names (array xs) (xs.map some ++ List.replicate (names.length - xs.length) none)

theorem entries?_eq_some_iff {α : Type} {item? : Node → Option α} {x : Node} {entries : List (String × α)} :
    x.entries? item? = some entries ↔ ∃ ms, x = object ms ∧
      List.Forall₂ (fun m entry => Piece.text? m.1 = some entry.1 ∧ item? m.2 = some entry.2) ms entries := by
  cases x with
  | object ms =>
    have hentry (m : List Piece × Node) (entry : String × α) :
        (do return (← Piece.text? m.1, ← item? m.2)) = some entry ↔
          Piece.text? m.1 = some entry.1 ∧ item? m.2 = some entry.2 := by
      cases Piece.text? m.1 <;> cases item? m.2 <;> simp [Prod.ext_iff]
    rw [entries?, mapM_eq_some_iff]
    simp only [hentry, object.injEq, exists_eq_left']
  | _ => simp [entries?]

theorem field?_eq_some_iff {entries : List (String × Node)} {name : String} {field : Option Node} :
    field? entries name = some field ↔ (entries.filter (·.1 = name)).map (·.2) = field.toList := by
  unfold field?
  split
  · rename_i h
    rw [h]
    cases field <;> simp
  · rename_i h
    rw [h]
    cases field <;> simp
  · rename_i hnil hone
    refine iff_of_false (Option.some_ne_none field).symm fun h => ?_
    cases field with
    | none => exact hnil (List.map_eq_nil_iff.1 h)
    | some x =>
      obtain ⟨entry, hentry, -⟩ := List.map_eq_singleton_iff.1 h
      exact hone _ _ hentry

theorem fields?_eq_some_iff {names : List String} {x : Node} {fields : List (Option Node)} :
    x.fields? names = some fields ↔ Fields names x fields := by
  cases x with
  | object ms =>
    simp only [fields?, Option.bind_eq_bind, Option.bind_eq_some_iff, entries?_eq_some_iff, mapM_eq_some_iff,
      field?_eq_some_iff, object.injEq, exists_eq_left', Option.some_inj]
    constructor
    · rintro ⟨entries, hkeys, hfields⟩
      exact .object hkeys hfields
    · intro hf
      cases hf with
      | object hkeys hfields => exact ⟨_, hkeys, hfields⟩
  | array xs =>
    rw [fields?, Option.ite_none_right_eq_some, Option.some_inj]
    constructor
    · rintro ⟨h, rfl⟩
      exact .array h
    · intro hf
      cases hf with
      | array h => exact ⟨h, rfl⟩
  | _ =>
    refine iff_of_false (Option.some_ne_none fields).symm fun hf => ?_
    cases hf

inductive OrElse {α : Type} (default : α) (read? : Node → Option α) : Option Node → α → Prop
  | missing : OrElse default read? none default
  | given {x : Node} {a : α} (h : read? x = some a) : OrElse default read? (some x) a

theorem orElse?_eq_some_iff {α : Type} {default : α} {read? : Node → Option α} {field : Option Node} {a : α} :
    orElse? default read? field = some a ↔ OrElse default read? field a := by
  cases field with
  | none =>
    constructor
    · intro h
      cases h
      exact .missing
    · intro h
      cases h
      rfl
  | some x =>
    constructor
    · exact .given
    · intro h
      cases h with
      | given h => exact h

end Json.Node

/-! ## Dictionaries -/

def Keyed.said? {α : Type} (key : String) (entry : String × α) : Option α :=
  if entry.1 = key then some entry.2 else none

theorem Keyed.get?_ofPairs {α : Type} (key : String) (entries : List (String × α)) :
    (Keyed.ofPairs entries).get? key = lastWrite? (Keyed.said? key) entries := by
  have hstep (m : Keyed α) (entry : String × α) :
      (m.put entry.1 entry.2).get? key = (Keyed.said? key entry).elim (m.get? key) some := by
    unfold Keyed.said?
    by_cases hk : entry.1 = key
    · rw [if_pos hk, ← hk, Keyed.get?_put_self]
      rfl
    · rw [if_neg hk, Keyed.get?_put_of_ne _ _ fun h => hk h.symm]
      rfl
  refine (foldl_lastWrite (Keyed.get? key) hstep [] entries).trans ?_
  cases lastWrite? (Keyed.said? key) entries <;> rfl

/-- Of the values for a key the last one counts. -/
theorem Keyed.get?_of_ofJson? {α : Type} {item? : Node → Option α} {x : Node} {m : Keyed α}
    (h : Keyed.ofJson? item? x = some m) : ∃ ms entries, x = .object ms ∧
      List.Forall₂ (fun m entry => Piece.text? m.1 = some entry.1 ∧ item? m.2 = some entry.2) ms entries ∧
      ∀ key, m.get? key = lastWrite? (Keyed.said? key) entries := by
  obtain ⟨entries, hentries, rfl⟩ := Option.map_eq_some_iff.1 h
  obtain ⟨ms, hx, hms⟩ := Node.entries?_eq_some_iff.1 hentries
  exact ⟨ms, entries, hx, hms, fun key => Keyed.get?_ofPairs key entries⟩

/-! ## Catalogs -/

inductive Links.ReadFrom (links : Links) (x : Node) : Prop
  | intro {link identifier : Node}
      (hfields : x.Fields ["link_field", "identifier_field"] [some link, some identifier])
      (hlink : link.text? = some links.linkField) (hidentifier : identifier.text? = some links.identifierField)

inductive Attribute.ReadFrom (a : Attribute) (x : Node) : Prop
  | intro {code id storage input : Node} {table : Option Node}
      (hfields : x.Fields ["code", "attribute_id", "backend_type", "frontend_input", "backend_table"]
        [some code, some id, some storage, some input, table])
      (hcode : code.text? = some a.code) (hid : id.integer? = some a.id)
      (hstorage : Storage.ofJson? storage = some a.storage) (hinput : Input.ofJson? input = some a.input)
      (htable : Node.OrElse none (Node.optional? Node.text?) table a.table)

inductive Catalog.ReadFrom (c : Catalog) (x : Node) : Prop
  | intro {tablePrefix store entities attributes flags : Option Node}
      (hfields : x.Fields ["table_prefix", "store_id", "entities", "attributes", "flags"]
        [tablePrefix, store, entities, attributes, flags])
      (htablePrefix : Node.OrElse "" Node.text? tablePrefix c.tablePrefix)
      (hstore : Node.OrElse defaultStore Node.integer? store c.store)
      (hentities : Node.OrElse defaultEntities (Keyed.ofJson? Links.ofJson?) entities c.entities)
      (hattributes : Node.OrElse [] (Node.list? Attribute.ofJson?) attributes c.attributes)
      (hflags : Node.OrElse [] (Keyed.ofJson? Node.bool?) flags c.flags)

theorem Links.ofJson?_eq_some_iff (x : Node) (links : Links) : Links.ofJson? x = some links ↔ links.ReadFrom x := by
  unfold Links.ofJson?
  simp only [Option.bind_eq_bind, Option.bind_eq_some_iff]
  constructor
  · rintro ⟨fields, hfields, h⟩
    split at h
    · simp only [Option.bind_eq_some_iff] at h
      obtain ⟨link, hlink, identifier, hidentifier, hlinks⟩ := h
      cases hlinks
      exact ⟨Node.fields?_eq_some_iff.1 hfields, hlink, hidentifier⟩
    · cases h
  · rintro ⟨hfields, hlink, hidentifier⟩
    refine ⟨_, Node.fields?_eq_some_iff.2 hfields, ?_⟩
    simp only [hlink, hidentifier, Option.bind_some]
    rfl

theorem Attribute.ofJson?_eq_some_iff (x : Node) (a : Attribute) : Attribute.ofJson? x = some a ↔ a.ReadFrom x := by
  unfold Attribute.ofJson?
  simp only [Option.bind_eq_bind, Option.bind_eq_some_iff]
  constructor
  · rintro ⟨fields, hfields, h⟩
    split at h
    · simp only [Option.bind_eq_some_iff] at h
      obtain ⟨code, hcode, id, hid, storage, hstorage, input, hinput, table, htable, ha⟩ := h
      cases ha
      exact ⟨Node.fields?_eq_some_iff.1 hfields, hcode, hid, hstorage, hinput, Node.orElse?_eq_some_iff.1 htable⟩
    · cases h
  · rintro ⟨hfields, hcode, hid, hstorage, hinput, htable⟩
    refine ⟨_, Node.fields?_eq_some_iff.2 hfields, ?_⟩
    simp only [hcode, hid, hstorage, hinput, Node.orElse?_eq_some_iff.2 htable, Option.bind_some]
    rfl

theorem Catalog.ofJson?_eq_some_iff (x : Node) (c : Catalog) : Catalog.ofJson? x = some c ↔ c.ReadFrom x := by
  unfold Catalog.ofJson?
  simp only [Option.bind_eq_bind, Option.bind_eq_some_iff]
  constructor
  · rintro ⟨fields, hfields, h⟩
    split at h
    · simp only [Option.bind_eq_some_iff, Node.orElse?_eq_some_iff] at h
      obtain ⟨tablePrefix, htablePrefix, store, hstore, entities, hentities, h⟩ := h
      obtain ⟨attributes, hattributes, flags, hflags, hc⟩ := h
      cases hc
      exact ⟨Node.fields?_eq_some_iff.1 hfields, htablePrefix, hstore, hentities, hattributes, hflags⟩
    · cases h
  · rintro ⟨hfields, htablePrefix, hstore, hentities, hattributes, hflags⟩
    refine ⟨_, Node.fields?_eq_some_iff.2 hfields, ?_⟩
    simp only [Option.bind_eq_some_iff, Node.orElse?_eq_some_iff]
    exact ⟨_, htablePrefix, _, hstore, _, hentities, _, hattributes, _, hflags, rfl⟩

theorem Catalog.parse?_eq_some_iff (source : String) (c : Catalog) :
    Catalog.parse? source = some c ↔ ∃ x, Node.parse? source = some x ∧ c.ReadFrom x := by
  simp only [Catalog.parse?, Option.bind_eq_some_iff, Catalog.ofJson?_eq_some_iff]

example :
    Catalog.parse? ("[\"m_\", 3, \x7b\"x\": [\"a\", \"b\"], " ++
      "\"x\": \x7b\"z\": 0, \"identifier_field\": \"d\", \"link_field\": \"c\"\x7d\x7d]") =
        some ⟨"m_", 3, [("x", ⟨"c", "d"⟩)], [], []⟩ := by
  decide +kernel

end SearchFilter
