import SearchFilter.Filter.Format
import SearchFilter.Proofs.Json.Number
import SearchFilter.Proofs.Value.Fingerprint

/-!
# Filters read back

A filter that is written as JSON is read as the same filter. The kinds of values need no tags: what
is written for one kind is never read as another. Only the digits of a floating point number are
rounded when they are read, so a filter comes back unchanged if its floating point numbers do.
-/

namespace SearchFilter
open Json

/-! ## Values -/

namespace Value

/-- What a value may be after it was written and read. -/
inductive Rereads : Value → Value → Prop
  | float {x y : Binary64} (h : x.jsonNumeral.jsonFloat? = some y) : Rereads (float x) (float y)
  | same {v : Value} (h : ∀ x, v ≠ float x) : Rereads v v

theorem rereads_iff_eq {v w : Value} (h : ∀ x, v ≠ float x) : v.Rereads w ↔ v = w := by
  constructor
  · intro hw
    cases hw with
    | float _ => exact absurd rfl (h _)
    | same _ => rfl
  · rintro rfl
    exact .same h

theorem float_rereads_iff {x : Binary64} {w : Value} :
    (float x).Rereads w ↔ ∃ y, x.jsonNumeral.jsonFloat? = some y ∧ float y = w := by
  constructor
  · intro hw
    cases hw with
    | float h => exact ⟨_, h, rfl⟩
    | same h => exact absurd rfl (h x)
  · rintro ⟨y, hy, rfl⟩
    exact .float hy

def IsFinite (v : Value) : Prop :=
  ∀ x, v = float x → x.isFinite = true

theorem toJson_float {x : Binary64} (h : (float x).IsFinite) : (float x).toJson = .number x.jsonNumeral := by
  rw [toJson, if_pos (h x rfl)]

theorem isPlain_toJson {v : Value} (h : v.IsFinite) : v.toJson.IsPlain := by
  cases v with
  | int n => exact Node.isPlain_integer n
  | float x =>
    rw [toJson_float h]
    exact Node.isPlain_number x.isProper_jsonNumeral x.isNumber_jsonNumeral
  | text s => exact Node.isPlain_text s
  | _ => exact List.forall_mem_singleton.2 trivial

theorem ofJson?_toJson_of_ne {v : Value} (h : ∀ x, v ≠ float x) : ofJson? v.toJson = some v := by
  cases v with
  | int n => rw [toJson, Node.integer, ofJson?, Numeral.jsonInteger?_ofInt]
  | float x => exact absurd rfl (h x)
  | text s => rw [toJson, Node.text, ofJson?, Piece.text?_ofText, Option.map_some]
  | _ => rfl

/-- The numeral of a floating point number has a point or an exponent, so it is no integer. -/
theorem ofJson?_toJson_float {x : Binary64} (h : (float x).IsFinite) :
    ofJson? (float x).toJson = x.jsonNumeral.jsonFloat?.map float := by
  rw [toJson_float h, ofJson?, Numeral.jsonInteger?_eq_none x.isInteger_jsonNumeral]

theorem ofJson?_toJson {v w : Value} (h : v.IsFinite) : ofJson? v.toJson = some w ↔ v.Rereads w := by
  by_cases hv : ∃ x, v = float x
  · obtain ⟨x, rfl⟩ := hv
    rw [ofJson?_toJson_float h, Option.map_eq_some_iff, float_rereads_iff]
  · have hne := not_exists.1 hv
    rw [ofJson?_toJson_of_ne hne, Option.some_inj, rereads_iff_eq hne]

theorem mapM_ofJson?_toJson {vs ws : List Value} (h : ∀ v ∈ vs, v.IsFinite) :
    (vs.map toJson).mapM ofJson? = some ws ↔ List.Forall₂ Rereads vs ws := by
  rw [mapM_eq_some_iff, List.forall₂_map_left_iff]
  constructor
  · intro hws
    exact ((List.forall₂_and_left _ _).2 ⟨h, hws⟩).imp fun v w hv => (ofJson?_toJson hv.1).1 hv.2
  · intro hws
    exact ((List.forall₂_and_left _ _).2 ⟨h, hws⟩).imp fun v w hv => (ofJson?_toJson hv.1).2 hv.2

theorem rereads_self_iff (v : Value) : v.Rereads v ↔ ∀ x, v = float x → x.jsonNumeral.jsonFloat? = some x := by
  by_cases hv : ∃ x, v = float x
  · obtain ⟨x, rfl⟩ := hv
    simp [float_rereads_iff]
  · have hne := not_exists.1 hv
    exact ⟨fun _ x hx => absurd hx (hne x), fun _ => .same hne⟩

end Value

/-! ## Operands -/

namespace Operand

inductive Rereads : Operand → Operand → Prop
  | one {v w : Value} (h : v.Rereads w) : Rereads (one v) (one w)
  | set {vs ws : List Value} (h : List.Forall₂ Value.Rereads vs ws) : Rereads (set vs) (set ws)

theorem isPlain_toJson {a : Operand} (h : ∀ v ∈ a.values, v.IsFinite) : a.toJson.IsPlain := by
  cases a with
  | one v => exact Value.isPlain_toJson (h v (List.mem_singleton.2 rfl))
  | set vs =>
    refine Node.isPlain_array (List.forall_mem_map.2 fun v hv => ?_)
    exact Value.isPlain_toJson (h v hv)

theorem ofJson?_one (v : Value) : ofJson? v.toJson = (Value.ofJson? v.toJson).map one := by
  cases v with
  | float x =>
    rw [Value.toJson]
    split <;> rfl
  | _ => rfl

theorem ofJson?_toJson {a b : Operand} (h : ∀ v ∈ a.values, v.IsFinite) : ofJson? a.toJson = some b ↔ a.Rereads b := by
  cases a with
  | one v =>
    have hv : v.IsFinite := h v (List.mem_singleton.2 rfl)
    rw [toJson, ofJson?_one, Option.map_eq_some_iff]
    constructor
    · rintro ⟨w, hw, rfl⟩
      exact .one ((Value.ofJson?_toJson hv).1 hw)
    · intro hb
      cases hb with
      | one hw => exact ⟨_, (Value.ofJson?_toJson hv).2 hw, rfl⟩
  | set vs =>
    rw [toJson, ofJson?, Option.map_eq_some_iff]
    constructor
    · rintro ⟨ws, hws, rfl⟩
      exact .set ((Value.mapM_ofJson?_toJson h).1 hws)
    · intro hb
      cases hb with
      | set hws => exact ⟨_, (Value.mapM_ofJson?_toJson h).2 hws, rfl⟩

theorem rereads_self_iff (a : Operand) : a.Rereads a ↔ ∀ v ∈ a.values, v.Rereads v := by
  cases a with
  | one v =>
    rw [values, List.forall_mem_singleton]
    constructor
    · intro h
      cases h with
      | one hv => exact hv
    · exact .one
  | set vs =>
    rw [values, ← List.forall₂_same]
    constructor
    · intro h
      cases h with
      | set hvs => exact hvs
    · exact .set

end Operand

/-! ## Filters -/

theorem FilterKind.ofJson?_text (k : FilterKind) : ofJson? (.text k.name) = some k := by
  rw [ofJson?, Node.text, Node.name?, Piece.text?_ofText]
  cases k <;> rfl

namespace Filter

structure Rereads (f g : Filter) : Prop where
  field : f.field = g.field
  kind : f.kind = g.kind
  operand : f.operand.Rereads g.operand

theorem isPlain_toJson {f : Filter} (h : ∀ v ∈ f.operand.values, v.IsFinite) : f.toJson.IsPlain := by
  apply Node.isPlain_record
  simp only [List.forall_mem_cons]
  exact ⟨Node.isPlain_text _, Node.isPlain_text _, Operand.isPlain_toJson h, List.forall_mem_nil _⟩

theorem fields?_toJson (f : Filter) : f.toJson.fields? ["field", "type", "value"] =
    some [some (.text f.field), some (.text f.kind.name), some f.operand.toJson] :=
  Node.fields?_record rfl (by decide)

theorem ofJson?_toJson (f : Filter) :
    ofJson? f.toJson = (Operand.ofJson? f.operand.toJson).map fun a => ⟨f.field, f.kind, a⟩ := by
  have hfield : (Node.text f.field).text? = some f.field := Piece.text?_ofText f.field
  rw [ofJson?, fields?_toJson, Option.bind_eq_bind, Option.bind_some]
  simp only [hfield, FilterKind.ofJson?_text, Option.bind_eq_bind, Option.bind_some, Option.pure_def]
  exact Option.map_eq_bind.symm

/-- A filter of finite numbers is read from its text as itself, up to the digits of its floating
point numbers, and exactly as itself if each of these is read from its own text as itself. -/
theorem read_compact_iff (f : Filter) (h : ∀ x, .float x ∈ f.operand.values → x.isFinite = true) :
    (∀ g, (Node.parse? f.toJson.compact).bind ofJson? = some g ↔ f.Rereads g) ∧
    ((Node.parse? f.toJson.compact).bind ofJson? = some f ↔
      ∀ x, .float x ∈ f.operand.values → x.jsonNumeral.jsonFloat? = some x) := by
  have hfinite : ∀ v ∈ f.operand.values, v.IsFinite := by
    rintro v hv x rfl
    exact h x hv
  have hread : ∀ g, (Node.parse? f.toJson.compact).bind ofJson? = some g ↔ f.Rereads g := by
    intro g
    rw [Node.parse?_compact (isPlain_toJson hfinite), Option.bind_some, ofJson?_toJson, Option.map_eq_some_iff]
    constructor
    · rintro ⟨a, ha, rfl⟩
      exact ⟨rfl, rfl, (Operand.ofJson?_toJson hfinite).1 ha⟩
    · rintro ⟨hf, hk, ha⟩
      refine ⟨g.operand, (Operand.ofJson?_toJson hfinite).2 ha, ?_⟩
      rw [hf, hk]
  have hself : f.Rereads f ↔ f.operand.Rereads f.operand := ⟨Rereads.operand, fun ha => ⟨rfl, rfl, ha⟩⟩
  refine ⟨hread, ?_⟩
  rw [hread, hself, Operand.rereads_self_iff]
  simp only [Value.rereads_self_iff]
  exact ⟨fun hall x hx => hall _ hx x rfl, fun hall v hv x hx => hall x (hx ▸ hv)⟩

/-- Values that look alike stay apart. The float below the greatest one is read as the greatest. -/
theorem read_compact_iff_lookalikes :
    let one : Binary64 := ⟨false, 0x3FF0000000000000⟩
    let least : Binary64 := ⟨true, 1⟩
    let greatest : Binary64 := ⟨false, 0x7FEFFFFFFFFFFFFF⟩
    let below : Binary64 := ⟨false, 0x7FEFFFFFFFFFFFFE⟩
    let mixed : Filter := ⟨"\"ö\n", .range, .set [.int 1, .float one, .text "1", .int (-9223372036854775808),
      .float least, .bool true, .text "true", .null, .text "null", .text ""]⟩
    let single : Filter := ⟨"", .term, .set [.float below]⟩
    (Node.parse? mixed.toJson.compact).bind ofJson? = some mixed ∧
      (Node.parse? single.toJson.compact).bind ofJson? = some ⟨"", .term, .set [.float greatest]⟩ ∧
      (Node.parse? single.toJson.compact).bind ofJson? ≠ some single := by
  intro one least greatest below mixed single
  have hmixed : ∀ x, .float x ∈ mixed.operand.values → x = one ∨ x = least := by
    intro x hx
    simpa [mixed, Operand.values] using hx
  have hsingle : ∀ x, .float x ∈ single.operand.values → x = below := by
    intro x hx
    simpa [single, Operand.values] using hx
  have hone : one.jsonNumeral.jsonFloat? = some one := by decide +kernel
  have hleast : least.jsonNumeral.jsonFloat? = some least := by decide +kernel
  have hbelow : below.jsonNumeral.jsonFloat? = some greatest := by decide +kernel
  have mixed_read := read_compact_iff mixed fun x hx => by
    rcases hmixed x hx with rfl | rfl <;> decide
  have single_read := read_compact_iff single fun x hx => by
    rw [hsingle x hx]
    decide
  refine ⟨mixed_read.2.2 fun x hx => ?_, ?_, fun h => ?_⟩
  · rcases hmixed x hx with rfl | rfl
    · exact hone
    · exact hleast
  · exact (single_read.1 _).2 ⟨rfl, rfl, .set (.cons (.float hbelow) .nil)⟩
  · have hself := single_read.2.1 h below (List.mem_singleton.2 rfl)
    exact absurd (hself.symm.trans hbelow) (by decide)

end Filter

end SearchFilter
