import SearchFilter.Catalog.Format
import SearchFilter.Proofs.Json.Number

/-!
# Attributes read again

Attributes come in many JSON texts: fields in any order or as an array, the table left out or null,
the input as a text or as the key of an object. They are written in one of them. An input is written
as its name, so it is read again unless it is an unknown one with the name of a known one, and no
text is read as such an input.
-/

namespace SearchFilter
open Json

theorem Storage.ofJson?_text (s : Storage) : ofJson? (.text s.name) = some s := by
  rw [ofJson?, Node.text, Node.name?, Piece.text?_ofText, Option.bind_some, ofName?_name]

/-! ## Inputs -/

namespace Input

theorem ofJson?_text (s : String) : ofJson? (.text s) = some (ofName s) := by
  rw [Node.text, ofJson?, Piece.text?_ofText, Option.map_some]

theorem mem_known_of_ofKnownName? {s : String} {i : Input} (h : ofKnownName? s = some i) : i ∈ known :=
  List.mem_of_find?_eq_some h

theorem ofKnownName?_eq_none_iff {s : String} : ofKnownName? s = none ↔ s ∉ known.map name := by
  rw [ofKnownName?, List.find?_eq_none]
  simp only [decide_eq_true_eq, List.mem_map, not_exists, not_and]

theorem other_not_mem_known (s : String) : other s ∉ known := by
  simp [known]

theorem ofName_eq_other_iff {s t : String} : ofName s = other t ↔ t = s ∧ s ∉ known.map name := by
  rw [← ofKnownName?_eq_none_iff, ofName]
  cases hk : ofKnownName? s with
  | none => simp [eq_comm]
  | some i =>
    have hi : i ≠ other t := by
      rintro rfl
      exact other_not_mem_known t (mem_known_of_ofKnownName? hk)
    simp [hi]

theorem ofName_name_ofName (s : String) : ofName (ofName s).name = ofName s := by
  cases hk : ofKnownName? s with
  | none =>
    have hs : ofName s = other s := by rw [ofName, hk, Option.getD_none]
    rw [hs, name, hs]
  | some i =>
    have hs : ofName s = i := by rw [ofName, hk, Option.getD_some]
    rw [hs, ofName_name_of_mem_known (mem_known_of_ofKnownName? hk)]

theorem ofName_name_of_ofJson? {x : Node} {i : Input} (h : ofJson? x = some i) : ofName i.name = i := by
  unfold ofJson? at h
  split at h
  · obtain ⟨s, -, rfl⟩ := Option.map_eq_some_iff.1 h
    exact ofName_name_ofName s
  · obtain ⟨s, -, hs⟩ := Option.bind_eq_some_iff.1 h
    exact ofName_name_of_mem_known (mem_known_of_ofKnownName? hs)

theorem ofJson?_eq_other_iff {x : Node} {t : String} :
    ofJson? x = some (other t) ↔ ∃ ps, x = .string ps ∧ Piece.text? ps = some t ∧ t ∉ known.map name := by
  constructor
  · intro h
    unfold ofJson? at h
    split at h
    · rename_i ps
      obtain ⟨s, hs, ht⟩ := Option.map_eq_some_iff.1 h
      obtain ⟨rfl, hnot⟩ := ofName_eq_other_iff.1 ht
      exact ⟨ps, rfl, hs, hnot⟩
    · -- the key of an object is the name of a known input
      obtain ⟨s, -, hs⟩ := Option.bind_eq_some_iff.1 h
      exact absurd (mem_known_of_ofKnownName? hs) (other_not_mem_known t)
  · rintro ⟨ps, rfl, ht, hnot⟩
    rw [ofJson?, ht, Option.map_some, ofName_eq_other_iff.2 ⟨rfl, hnot⟩]

end Input

/-! ## Attributes -/

namespace Attribute

theorem isPlain_table (table : Option String) : ((table.map Node.text).getD .null).IsPlain := by
  cases table with
  | none => exact List.forall_mem_singleton.2 trivial
  | some s => exact Node.isPlain_text s

theorem isPlain_toJson (a : Attribute) : a.toJson.IsPlain := by
  apply Node.isPlain_record
  simp only [List.forall_mem_cons]
  exact ⟨Node.isPlain_text _, Node.isPlain_integer _, Node.isPlain_text _, Node.isPlain_text _, isPlain_table _,
    List.forall_mem_nil _⟩

theorem fields?_toJson (a : Attribute) :
    a.toJson.fields? ["code", "attribute_id", "backend_type", "frontend_input", "backend_table"] =
      some [some (.text a.code), some (.integer a.id), some (.text a.storage.name), some (.text a.input.name),
        some ((a.table.map Node.text).getD .null)] :=
  Node.fields?_record rfl (by decide)

theorem optional?_table (table : Option String) :
    Node.optional? Node.text? ((table.map Node.text).getD .null) = some table := by
  cases table with
  | none => rfl
  | some s =>
    show (Node.text? (.text s)).map some = some (some s)
    rw [Node.text, Node.text?, Piece.text?_ofText, Option.map_some]

theorem ofJson?_toJson (a : Attribute) : ofJson? a.toJson = some { a with input := .ofName a.input.name } := by
  have hcode : (Node.text a.code).text? = some a.code := Piece.text?_ofText a.code
  have hid : (Node.integer a.id).integer? = some a.id := Numeral.jsonInteger?_ofInt a.id
  rw [ofJson?, fields?_toJson, Option.bind_eq_bind, Option.bind_some]
  simp only [hcode, hid, Storage.ofJson?_text, Input.ofJson?_text, Node.orElse?, optional?_table,
    Option.bind_eq_bind, Option.bind_some, Option.pure_def]

/-- Of what is written only the input may be read as another. -/
theorem parse?_compact_toJson (a : Attribute) :
    (Node.parse? a.toJson.compact).bind ofJson? = some { a with input := .ofName a.input.name } := by
  rw [Node.parse?_compact a.isPlain_toJson, Option.bind_some, ofJson?_toJson]

theorem ofName_name_of_ofJson? {x : Node} {a : Attribute} (h : ofJson? x = some a) :
    Input.ofName a.input.name = a.input := by
  unfold ofJson? at h
  obtain ⟨fields, -, h⟩ := Option.bind_eq_some_iff.1 h
  split at h
  · simp only [Option.bind_eq_bind, Option.bind_eq_some_iff, Option.pure_def, Option.some.injEq] at h
    obtain ⟨code, -, id, -, storage, -, input, hinput, table, -, rfl⟩ := h
    exact Input.ofName_name_of_ofJson? hinput
  · cases h

/-- An attribute that was read, from whatever text, is written in a text that is read as the same
attribute. A text is an unknown input exactly if it is no name of a known one. -/
theorem read_again {source : String} {a : Attribute} (h : (Node.parse? source).bind ofJson? = some a) :
    (Node.parse? a.toJson.compact).bind ofJson? = some a ∧
    (∀ b, (Node.parse? a.toJson.compact).bind ofJson? = some b →
      b.input.isSelection = a.input.isSelection ∧ b.isStatic = a.isStatic ∧ b.valueTable = a.valueTable ∧
        b.toJson.compact = a.toJson.compact) ∧
    ∀ x t, Input.ofJson? x = some (.other t) ↔ ∃ ps, x = .string ps ∧ Piece.text? ps = some t ∧
      t ∉ ["select", "multiselect", "text", "textarea", "price", "date", "boolean", "weight"] := by
  obtain ⟨x, -, hx⟩ := Option.bind_eq_some_iff.1 h
  have hagain : (Node.parse? a.toJson.compact).bind ofJson? = some a := by
    rw [parse?_compact_toJson, ofName_name_of_ofJson? hx]
  refine ⟨hagain, fun b hb => ?_, fun x t => Input.ofJson?_eq_other_iff⟩
  obtain rfl : a = b := Option.some_inj.1 (hagain.symm.trans hb)
  exact ⟨rfl, rfl, rfl, rfl⟩

/-- An object with a field too many and its input as a key, and an array whose input is almost a
known one and whose table is empty. -/
theorem read_again_forms :
    let keyed := "\x7b\"frontend_input\":\x7b\"select\":null\x7d,\"x\":[true],\"code\":\"red\",\"backend_table\":null," ++
      "\"backend_type\":\"int\",\"attribute_id\":7\x7d"
    let listed := "[\"\\u0073ize\", 5, \"decimal\", \"Select\", \"\"]"
    let red : Attribute := ⟨"red", 7, .int, .select, none⟩
    let size : Attribute := ⟨"size", 5, .decimal, .other "Select", some ""⟩
    ((Node.parse? keyed).bind ofJson? = some red ∧ (Node.parse? red.toJson.compact).bind ofJson? = some red) ∧
      (Node.parse? listed).bind ofJson? = some size ∧ (Node.parse? size.toJson.compact).bind ofJson? = some size := by
  intro keyed listed red size
  have hkeyed : (Node.parse? keyed).bind ofJson? = some red := by decide +kernel
  have hlisted : (Node.parse? listed).bind ofJson? = some size := by decide +kernel
  exact ⟨⟨hkeyed, (read_again hkeyed).1⟩, hlisted, (read_again hlisted).1⟩

end Attribute

end SearchFilter
