import SearchFilter.Environment
import SearchFilter.Proofs.Number.Numeral

/-!
# Settings overridden

Three variables override what a catalog says, one after the other. If the text of one of them makes
no sense, the ones before it have already been applied and stay so, and all else is as it was.
-/

namespace SearchFilter.Environment
open Text

def StoreText (raw : String) (store : Int64) : Prop :=
  Numeral.IsInteger (trim raw.toList) store.toInt

def flagWords : Bool → List String
  | true => ["1", "true", "yes", "on"]
  | false => ["0", "false", "no", "off"]

def FlagText (raw : String) (flag : Bool) : Prop :=
  lower (String.ofList (trim raw.toList)) ∈ flagWords flag

theorem readInt64?_trim_iff (raw : String) (store : Int64) :
    Numeral.readInt64? (trim raw.toList) = some store ↔ StoreText raw store :=
  Numeral.readInt64?_eq_some_iff _ _

theorem flag?_eq_some_iff (raw : String) (flag : Bool) : flag? raw = some flag ↔ FlagText raw flag := by
  unfold FlagText
  show (if lower (String.ofList (trim raw.toList)) ∈ flagWords true then some true
    else if lower (String.ofList (trim raw.toList)) ∈ flagWords false then some false else none) = some flag ↔ _
  generalize lower (String.ofList (trim raw.toList)) = w
  by_cases ht : w ∈ flagWords true
  · have hf : w ∉ flagWords false := by
      have hdisjoint : ∀ w ∈ flagWords true, w ∉ flagWords false := by decide
      exact hdisjoint w ht
    cases flag <;> simp [ht, hf]
  · by_cases hf : w ∈ flagWords false
    · cases flag <;> simp [ht, hf]
    · cases flag <;> simp [ht, hf]

/-! ## One variable -/

section
variable {α : Type} (vars : Keyed String) (name : String) (means : String → α → Prop)

/-- What the variable says, or that it is not set. -/
def Says : Option α → Prop
  | none => vars.get? name = none
  | some x => ∃ raw, vars.get? name = some raw ∧ means raw x

def Senseless (raw : String) : Prop :=
  vars.get? name = some raw ∧ ∀ x, ¬ means raw x

def overrideBy (read? : String → Option α) (put : Catalog → α → Catalog) (bad : String → Error) (c : Catalog) :
    Except Error Catalog :=
  match vars.get? name with
  | some raw =>
    match read? raw with
    | some x => .ok (put c x)
    | none => .error (bad raw)
  | none => .ok c

variable {read? : String → Option α} (hread : ∀ raw x, read? raw = some x ↔ means raw x)
  (put : Catalog → α → Catalog) (bad : String → Error) (c : Catalog)
include hread

/-- The variable is not set, or has a meaning, or has none: one of the three, and only one meaning. -/
theorem overrideBy_cases :
    (∃ x?, Says vars name means x? ∧ (∀ raw, ¬ Senseless vars name means raw) ∧
        overrideBy vars name read? put bad c = .ok (x?.elim c (put c))) ∨
      ∃ raw, Senseless vars name means raw ∧ overrideBy vars name read? put bad c = .error (bad raw) := by
  unfold overrideBy
  cases hv : vars.get? name with
  | none =>
    refine Or.inl ⟨none, hv, fun raw h => ?_, rfl⟩
    cases hv.symm.trans h.1
  | some raw =>
    cases hx : read? raw with
    | none =>
      refine Or.inr ⟨raw, ⟨hv, fun x hm => ?_⟩, by simp only [hx]⟩
      cases hx.symm.trans ((hread raw x).2 hm)
    | some x =>
      have hm := (hread raw x).1 hx
      refine Or.inl ⟨some x, ⟨raw, hv, hm⟩, fun raw' h => ?_, by simp only [hx]; rfl⟩
      cases hv.symm.trans h.1
      exact h.2 x hm

end

/-! ## All three -/

section
variable (vars : Keyed String) (c : Catalog)

def BadStore (raw : String) : Prop := Senseless vars storeVariable StoreText raw

def BadFlag (raw : String) : Prop := Senseless vars showOutOfStockVariable FlagText raw

/-- The settings given here are in the place of those of `c`, and all else is as in `c`. -/
structure Overridden (e : Catalog) (tablePrefix : Option String) (store : Option Int64) (flag : Option Bool) : Prop where
  tablePrefix : e.tablePrefix = tablePrefix.getD c.tablePrefix
  store : e.store = store.getD c.store
  flag : e.flags.get? showOutOfStock = flag.or (c.flags.get? showOutOfStock)
  otherFlags : ∀ path, path ≠ showOutOfStock → e.flags.get? path = c.flags.get? path
  entities : e.entities = c.entities
  attributes : e.attributes = c.attributes

def withSettings (tablePrefix : Option String) (store : Option Int64) (flag : Option Bool) : Catalog :=
  { c with
    tablePrefix := tablePrefix.getD c.tablePrefix
    store := store.getD c.store
    flags := flag.elim c.flags (c.flags.put showOutOfStock) }

theorem overridden_withSettings (tablePrefix : Option String) (store : Option Int64) (flag : Option Bool) :
    Overridden c (withSettings c tablePrefix store flag) tablePrefix store flag := by
  cases flag with
  | none => exact ⟨rfl, rfl, rfl, fun _ _ => rfl, rfl, rfl⟩
  | some flag => exact ⟨rfl, rfl, Keyed.get?_put_self _ _ _, fun _ h => Keyed.get?_put_of_ne _ _ h, rfl, rfl⟩

theorem overridePrefix_eq :
    overridePrefix vars c = c.setTablePrefix ((vars.get? tablePrefixVariable).getD c.tablePrefix) := by
  unfold overridePrefix
  cases vars.get? tablePrefixVariable <;> rfl

theorem overrideStore_eq :
    overrideStore vars c =
      overrideBy vars storeVariable (fun raw => Numeral.readInt64? (trim raw.toList)) Catalog.setStore .badStore c := by
  unfold overrideStore overrideBy
  cases vars.get? storeVariable with
  | none => rfl
  | some raw =>
    dsimp only
    cases Numeral.readInt64? (trim raw.toList) <;> rfl

theorem overrideFlag_eq :
    overrideFlag vars c =
      overrideBy vars showOutOfStockVariable flag? (Catalog.putFlag · showOutOfStock ·) .badFlag c := by
  unfold overrideFlag overrideBy
  cases vars.get? showOutOfStockVariable with
  | none => rfl
  | some raw =>
    dsimp only
    cases flag? raw <;> rfl

theorem overrideStore_cases :
    (∃ store, Says vars storeVariable StoreText store ∧ (∀ raw, ¬ BadStore vars raw) ∧
        overrideStore vars c = .ok (store.elim c c.setStore)) ∨
      ∃ raw, BadStore vars raw ∧ overrideStore vars c = .error (.badStore raw) := by
  rw [overrideStore_eq]
  exact overrideBy_cases vars storeVariable StoreText readInt64?_trim_iff Catalog.setStore Error.badStore c

theorem overrideFlag_cases :
    (∃ flag, Says vars showOutOfStockVariable FlagText flag ∧ (∀ raw, ¬ BadFlag vars raw) ∧
        overrideFlag vars c = .ok (flag.elim c (c.putFlag showOutOfStock))) ∨
      ∃ raw, BadFlag vars raw ∧ overrideFlag vars c = .error (.badFlag raw) := by
  rw [overrideFlag_eq]
  exact overrideBy_cases vars showOutOfStockVariable FlagText flag?_eq_some_iff (Catalog.putFlag · showOutOfStock ·)
    Error.badFlag c

/-- What can come of the three variables. -/
theorem override_cases :
    (∃ store flag, Says vars storeVariable StoreText store ∧ Says vars showOutOfStockVariable FlagText flag ∧
        (∀ raw, ¬ BadStore vars raw) ∧ (∀ raw, ¬ BadFlag vars raw) ∧
        override vars c = (withSettings c (vars.get? tablePrefixVariable) store flag, none)) ∨
      (∃ raw, BadStore vars raw ∧
        override vars c = (withSettings c (vars.get? tablePrefixVariable) none none, some (.badStore raw))) ∨
      ∃ store raw, Says vars storeVariable StoreText store ∧ (∀ raw, ¬ BadStore vars raw) ∧ BadFlag vars raw ∧
        override vars c = (withSettings c (vars.get? tablePrefixVariable) store none, some (.badFlag raw)) := by
  let c₁ := c.setTablePrefix ((vars.get? tablePrefixVariable).getD c.tablePrefix)
  have hp : overridePrefix vars c = c₁ := overridePrefix_eq vars c
  rcases overrideStore_cases vars c₁ with ⟨store, hs, hgood, hstore⟩ | ⟨raw, hbad, hstore⟩
  · rcases overrideFlag_cases vars (store.elim c₁ c₁.setStore) with ⟨flag, hf, hgood', hflag⟩ | ⟨raw, hbad, hflag⟩
    · refine Or.inl ⟨store, flag, hs, hf, hgood, hgood', ?_⟩
      simp only [override, hp, hstore, hflag]
      cases store <;> cases flag <;> rfl
    · refine Or.inr (Or.inr ⟨store, raw, hs, hgood, hbad, ?_⟩)
      simp only [override, hp, hstore, hflag]
      cases store <;> rfl
  · refine Or.inr (Or.inl ⟨raw, hbad, ?_⟩)
    simp only [override, hp, hstore]
    rfl

theorem Senseless.unique {α : Type} {name raw raw' : String} {means : String → α → Prop}
    (h : Senseless vars name means raw) (h' : Senseless vars name means raw') : raw = raw' :=
  Option.some.inj (h.1.symm.trans h'.1)

theorem override_error_iff (e : Error) :
    (override vars c).2 = some e ↔
      (∃ raw, BadStore vars raw ∧ e = .badStore raw) ∨
        (∀ raw, ¬ BadStore vars raw) ∧ ∃ raw, BadFlag vars raw ∧ e = .badFlag raw := by
  rcases override_cases vars c with
    ⟨store, flag, -, -, hgood, hgood', h⟩ | ⟨raw, hbad, h⟩ | ⟨store, raw, -, hgood, hbad, h⟩
  · rw [h]
    simp [hgood, hgood']
  · rw [h]
    constructor
    · intro he
      cases he
      exact Or.inl ⟨raw, hbad, rfl⟩
    · rintro (⟨raw', hbad', rfl⟩ | ⟨hgood, -⟩)
      · rw [hbad.unique vars hbad']
      · exact absurd hbad (hgood raw)
  · rw [h]
    constructor
    · intro he
      cases he
      exact Or.inr ⟨hgood, raw, hbad, rfl⟩
    · rintro (⟨raw', hbad', -⟩ | ⟨-, raw', hbad', rfl⟩)
      · exact absurd hbad' (hgood raw')
      · rw [hbad.unique vars hbad']

theorem Says.not_senseless {α : Type} {name raw : String} {means : String → α → Prop} {x? : Option α}
    (h : Says vars name means x?) : ¬ Senseless vars name means raw := by
  rintro ⟨hraw, hno⟩
  cases x? with
  | none => cases hraw.symm.trans h
  | some x =>
    obtain ⟨raw', hraw', hx⟩ := h
    cases hraw.symm.trans hraw'
    exact hno x hx

theorem Says.unique {α : Type} {name : String} {means : String → α → Prop} {x? y? : Option α}
    (hmeans : ∀ raw x y, means raw x → means raw y → x = y) (hx : Says vars name means x?)
    (hy : Says vars name means y?) : x? = y? := by
  cases x? with
  | none =>
    cases y? with
    | none => rfl
    | some y =>
      obtain ⟨raw, hraw, -⟩ := hy
      cases hraw.symm.trans hx
  | some x =>
    obtain ⟨raw, hraw, hmx⟩ := hx
    cases y? with
    | none => cases hraw.symm.trans hy
    | some y =>
      obtain ⟨raw', hraw', hmy⟩ := hy
      cases hraw.symm.trans hraw'
      rw [hmeans raw x y hmx hmy]

theorem StoreText.unique (raw : String) (m n : Int64) (hm : StoreText raw m) (hn : StoreText raw n) : m = n :=
  Option.some.inj (((readInt64?_trim_iff raw m).2 hm).symm.trans ((readInt64?_trim_iff raw n).2 hn))

theorem FlagText.unique (raw : String) (a b : Bool) (ha : FlagText raw a) (hb : FlagText raw b) : a = b :=
  Option.some.inj (((flag?_eq_some_iff raw a).2 ha).symm.trans ((flag?_eq_some_iff raw b).2 hb))

theorem override_eq_iff (e : Catalog) :
    override vars c = (e, none) ↔ ∃ store flag, Says vars storeVariable StoreText store ∧
      Says vars showOutOfStockVariable FlagText flag ∧ e = withSettings c (vars.get? tablePrefixVariable) store flag := by
  constructor
  · intro he
    rcases override_cases vars c with ⟨store, flag, hs, hf, -, -, h⟩ | ⟨raw, -, h⟩ | ⟨store, raw, -, -, -, h⟩
    · cases he.symm.trans h
      exact ⟨store, flag, hs, hf, rfl⟩
    · cases he.symm.trans h
    · cases he.symm.trans h
  · rintro ⟨store, flag, hs, hf, rfl⟩
    rcases override_cases vars c with ⟨store', flag', hs', hf', -, -, h⟩ | ⟨raw, hbad, -⟩ | ⟨-, raw, -, -, hbad, -⟩
    · obtain rfl := hs.unique vars StoreText.unique hs'
      obtain rfl := hf.unique vars FlagText.unique hf'
      exact h
    · exact absurd hbad (hs.not_senseless vars)
    · exact absurd hbad (hf.not_senseless vars)

/-- Overriding fails exactly if one of the two texts makes no sense, that of the store being looked
at first. If it succeeds, the catalog has the settings of the variables that are set. If it fails,
it has the settings of those before the one that is wrong, and is as it was in all else. -/
theorem override_outcome :
    ((override vars c).2 = none ↔ (∀ raw, ¬ BadStore vars raw) ∧ ∀ raw, ¬ BadFlag vars raw) ∧
      (∀ e, (override vars c).2 = some e ↔
        (∃ raw, BadStore vars raw ∧ e = .badStore raw) ∨
          (∀ raw, ¬ BadStore vars raw) ∧ ∃ raw, BadFlag vars raw ∧ e = .badFlag raw) ∧
      ((override vars c).2 = none → ∃ store flag,
        Says vars storeVariable StoreText store ∧ Says vars showOutOfStockVariable FlagText flag ∧
          Overridden c (override vars c).1 (vars.get? tablePrefixVariable) store flag) ∧
      (∀ raw, (override vars c).2 = some (.badStore raw) →
        (override vars c).1 = c.setTablePrefix ((vars.get? tablePrefixVariable).getD c.tablePrefix)) ∧
      ∀ raw, (override vars c).2 = some (.badFlag raw) → ∃ store, Says vars storeVariable StoreText store ∧
        (override vars c).1 =
          { c with
            tablePrefix := (vars.get? tablePrefixVariable).getD c.tablePrefix
            store := store.getD c.store } := by
  rcases override_cases vars c with
    ⟨store, flag, hs, hf, hgood, hgood', h⟩ | ⟨raw, hbad, h⟩ | ⟨store, raw, hs, hgood, hbad, h⟩
  · rw [h]
    refine ⟨iff_of_true rfl ⟨hgood, hgood'⟩, fun e => ?_, fun _ => ?_, nofun, nofun⟩
    · refine iff_of_false nofun ?_
      rintro (⟨raw, hbad, -⟩ | ⟨-, raw, hbad, -⟩)
      · exact hgood raw hbad
      · exact hgood' raw hbad
    · exact ⟨store, flag, hs, hf, overridden_withSettings c _ store flag⟩
  · rw [h]
    refine ⟨iff_of_false nofun fun hg => hg.1 raw hbad, fun e => ?_, nofun, fun _ _ => rfl, nofun⟩
    constructor
    · intro he
      cases he
      exact Or.inl ⟨raw, hbad, rfl⟩
    · rintro (⟨raw', hbad', rfl⟩ | ⟨hgood, -⟩)
      · rw [hbad.unique vars hbad']
      · exact absurd hbad (hgood raw)
  · rw [h]
    refine ⟨iff_of_false nofun fun hg => hg.2 raw hbad, fun e => ?_, nofun, nofun, fun _ _ => ⟨store, hs, rfl⟩⟩
    constructor
    · intro he
      cases he
      exact Or.inr ⟨hgood, raw, hbad, rfl⟩
    · rintro (⟨raw', hbad', -⟩ | ⟨-, raw', hbad', rfl⟩)
      · exact absurd hbad' (hgood raw')
      · rw [hbad.unique vars hbad']

end

def badStoreVars : Keyed String :=
  [(tablePrefixVariable, "shop_"), (storeVariable, "default"), (showOutOfStockVariable, "yes")]

/-- A failure does not leave every catalog as it was. -/
theorem override_not_allOrNothing :
    let r := override badStoreVars Catalog.empty
    r.2 = some (.badStore "default") ∧ r.1.tablePrefix = "shop_" ∧ ¬ (r.2 = none ∨ r.1 = Catalog.empty) := by
  decide

def badFlagVars : Keyed String :=
  [(showOutOfStockVariable, "maybe"), (tablePrefixVariable, "m2_"), (storeVariable, " +7\t")]

def goodVars : Keyed String :=
  [(showOutOfStockVariable, " Off\n"), (storeVariable, "-07")]

theorem override_outcome_badFlag :
    let r := override badFlagVars Catalog.empty
    let s := override goodVars r.1
    r.2 = some (.badFlag "maybe") ∧
      (∃ store, Says badFlagVars storeVariable StoreText store ∧
        r.1 = { Catalog.empty with tablePrefix := "m2_", store := store.getD defaultStore }) ∧
      s.2 = none ∧
      ∃ store flag, Says goodVars storeVariable StoreText store ∧ Says goodVars showOutOfStockVariable FlagText flag ∧
        Overridden r.1 s.1 none store flag := by
  intro r s
  have hr : r.2 = some (.badFlag "maybe") := by decide
  have hs : s.2 = none := by decide
  obtain ⟨-, -, -, -, hflag⟩ := override_outcome badFlagVars Catalog.empty
  obtain ⟨-, -, hnone, -, -⟩ := override_outcome goodVars r.1
  exact ⟨hr, hflag "maybe" hr, hs, hnone hs⟩

end SearchFilter.Environment
