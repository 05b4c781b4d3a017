import SearchFilter.CommandLine.Run
import SearchFilter.Proofs.Environment.File
import SearchFilter.Proofs.Environment.Override
import SearchFilter.Proofs.Fragment.Failure

/-!
# Answers to requests

Compiling and explaining prepare their work in the same stages. A request fails as the first of its
stages that fails, whatever the later ones would do, and otherwise is answered with what the last
stage makes of the catalog, the dialect and the filter.
-/

namespace SearchFilter.CommandLine
open Environment

inductive Stage
  | catalogFile
  | catalogJson
  | settingsFile
  | settings
  | dialect
  | kind
  | compilation
  deriving DecidableEq, Repr

def Stage.position : Stage → Nat
  | catalogFile => 0
  | catalogJson => 1
  | settingsFile => 2
  | settings => 3
  | dialect => 4
  | kind => 5
  | compilation => 6

theorem Stage.position_inj {a b : Stage} (h : a.position = b.position) : a = b := by
  cases a <;> cases b <;> first | rfl | cases h

theorem Stage.position_lt (a : Stage) : a.position < 7 := by
  cases a <;> decide

/-! ## The stages -/

namespace Target
variable (s : Surroundings) (t : Target)

def settingsLines : List (List Char) :=
  match t.envFile.map s.file with
  | some (.ok content) => lines content
  | _ => []

def settings : Keyed String :=
  overlay s.vars (t.settingsLines s)

def Provides (c : Catalog) : Prop :=
  ∃ source base store flag, s.file t.catalog = .ok source ∧ Catalog.parse? source = some base ∧
    Says (t.settings s) storeVariable StoreText store ∧ Says (t.settings s) showOutOfStockVariable FlagText flag ∧
    c = withSettings base ((t.settings s).get? tablePrefixVariable) store flag

/-- Nothing is wrong with the inputs, and this is what they are. -/
structure Gives (c : Catalog) (d : Dialect) (kind : FilterKind) : Prop where
  catalog : t.Provides s c
  settingsFile : ∀ path, t.envFile = some path →
    ∃ content, s.file path = .ok content ∧ ∀ cs ∈ lines content, ¬ IsWrong cs
  dialect : Dialect.ofName? t.dialect = some d
  kind : FilterKind.ofName? t.kind = some kind

abbrev Finish (α : Type) := Catalog → Dialect → FilterKind → Except CompileError α

variable {α : Type}

def Fails (finish : Finish α) : Stage → Failure → Prop
  | .catalogFile, f => ∃ reason, s.file t.catalog = .error reason ∧ f = .catalogFile reason
  | .catalogJson, f => ∃ source, s.file t.catalog = .ok source ∧ Catalog.parse? source = none ∧ f = .catalogJson
  | .settingsFile, f => ∃ path, t.envFile = some path ∧
      ((∃ reason, s.file path = .error reason ∧ f = .environment (.unreadable path reason)) ∨
        ∃ content before cs, s.file path = .ok content ∧ FirstWrong (lines content) before cs ∧
          f = .environment (mistake (before.length + 1) cs))
  | .settings, f => (∃ raw, BadStore (t.settings s) raw ∧ f = .environment (.badStore raw)) ∨
      (∀ raw, ¬ BadStore (t.settings s) raw) ∧ ∃ raw, BadFlag (t.settings s) raw ∧ f = .environment (.badFlag raw)
  | .dialect, f => Dialect.ofName? t.dialect = none ∧ f = .argument (.dialect t.dialect)
  | .kind, f => FilterKind.ofName? t.kind = none ∧ f = .argument (.filterKind t.kind)
  | .compilation, f => ∃ c d kind e, t.Gives s c d kind ∧ finish c d kind = .error e ∧ f = .compile e

def FailsFirst (finish : Finish α) (stage : Stage) (f : Failure) : Prop :=
  t.Fails s finish stage f ∧
    ∀ earlier : Stage, earlier.position < stage.position → ∀ f, ¬ t.Fails s finish earlier f

def prepare : Except Failure (Catalog × Dialect × FilterKind) := do
  let source ← (s.file t.catalog).mapError .catalogFile
  let base ← parseCatalog source
  let vars ← settled (t.loadVariables s)
  let catalog ← settled (Environment.override vars base)
  let dialect ← (Dialect.ofName t.dialect).mapError .argument
  let kind ← (FilterKind.ofName t.kind).mapError .argument
  return (catalog, dialect, kind)

def run (finish : Finish α) : Except Failure α := do
  let (catalog, dialect, kind) ← t.prepare s
  (finish catalog dialect kind).mapError .compile

end Target

section
variable {ε ε' α β : Type}

theorem bind_eq_ok_iff {x : Except ε α} {g : α → Except ε β} {b : β} :
    (x >>= g) = .ok b ↔ ∃ a, x = .ok a ∧ g a = .ok b := by
  cases x with
  | error e => exact iff_of_false nofun nofun
  | ok a => simp [bind, Except.bind]

theorem mapError_eq_ok_iff {x : Except ε α} {h : ε → ε'} {a : α} : x.mapError h = .ok a ↔ x = .ok a := by
  cases x <;> simp [Except.mapError]

theorem mapError_eq_error_iff {x : Except ε α} {h : ε → ε'} {e' : ε'} :
    x.mapError h = .error e' ↔ ∃ e, x = .error e ∧ e' = h e := by
  cases x <;> simp [Except.mapError, eq_comm]

theorem bind_pure_eq_error_iff {x : Except ε α} {g : α → β} {e : ε} :
    (x >>= fun a => pure (g a)) = .error e ↔ x = .error e := by
  cases x <;> simp [bind, Except.bind, pure, Except.pure]

end

section
variable (s : Surroundings) (t : Target)

theorem answer_compile (values : List String) (asSet negated : Bool) (query : String) :
    (Request.compile t values asSet negated query).answer s = do
      let fragment ← t.run s fun c d kind =>
        c.compile d Filter.tableAlias ⟨t.field, kind, operand values asSet⟩ negated query
      return fragment ++ "\n" := by
  simp only [Request.answer, Target.load, Target.loadCatalog, Target.run, Target.prepare, bind_assoc, pure_bind]

theorem answer_explain :
    (Request.explain t).answer s = do
      let plan ← t.run s fun c _ kind => c.plan ⟨t.field, kind, .one .null⟩
      return plan.toJson.pretty ++ "\n" := by
  simp only [Request.answer, Target.load, Target.loadCatalog, Target.run, Target.prepare, bind_assoc, pure_bind]

/-! ## One stage -/

variable {α : Type} (finish : Target.Finish α) (f : Failure)

theorem catalogFile_error_iff :
    (s.file t.catalog).mapError Failure.catalogFile = .error f ↔ t.Fails s finish .catalogFile f :=
  mapError_eq_error_iff

theorem parseCatalog_eq_ok_iff (source : String) (c : Catalog) : parseCatalog source = .ok c ↔ Catalog.parse? source = some c := by
  unfold parseCatalog
  cases Catalog.parse? source <;> simp

theorem parseCatalog_error_iff {source : String} (h : s.file t.catalog = .ok source) :
    parseCatalog source = .error f ↔ t.Fails s finish .catalogJson f := by
  unfold parseCatalog Target.Fails
  cases hp : Catalog.parse? source with
  | none => simp [h, hp, eq_comm]
  | some c => simp [h, hp]

theorem settled_eq_ok_iff {α : Type} (r : α × Option Environment.Error) (a : α) : settled r = .ok a ↔ r = (a, none) := by
  obtain ⟨b, e⟩ := r
  cases e <;> simp [settled]

theorem settled_eq_error_iff {α : Type} (r : α × Option Environment.Error) :
    settled r = .error f ↔ ∃ e, r.2 = some e ∧ f = .environment e := by
  obtain ⟨b, e⟩ := r
  cases e <;> simp [settled, eq_comm]

theorem loadVariables_error_iff : settled (t.loadVariables s) = .error f ↔ t.Fails s finish .settingsFile f := by
  rw [settled_eq_error_iff]
  unfold Target.loadVariables Target.Fails
  cases henv : t.envFile with
  | none => simp
  | some path =>
    cases hfile : s.file path with
    | error reason => simp [loadFile, hfile]
    | ok content => simp [loadFile, hfile, load_error_iff]

theorem loadVariables_eq_ok_iff (vars : Keyed String) :
    settled (t.loadVariables s) = .ok vars ↔
      vars = t.settings s ∧ ∀ path, t.envFile = some path →
        ∃ content, s.file path = .ok content ∧ ∀ cs ∈ lines content, ¬ IsWrong cs := by
  rw [settled_eq_ok_iff]
  unfold Target.loadVariables Target.settings Target.settingsLines
  cases henv : t.envFile with
  | none => simp [overlay, eq_comm]
  | some path =>
    cases hfile : s.file path with
    | error reason => simp [loadFile, hfile]
    | ok content =>
      simp only [Option.map_some, hfile, loadFile]
      constructor
      · intro h
        have hgood := (load_eq_none_iff s.vars).1 (congrArg Prod.snd h)
        refine ⟨(congrArg Prod.fst ((load_of_good s.vars hgood).symm.trans h)).symm, fun path' hp => ?_⟩
        cases hp
        exact ⟨content, hfile, hgood⟩
      · rintro ⟨rfl, h⟩
        obtain ⟨content', hc, hgood⟩ := h path rfl
        cases hfile.symm.trans hc
        exact load_of_good s.vars hgood

theorem override_settings_error_iff (base : Catalog) :
    settled (Environment.override (t.settings s) base) = .error f ↔ t.Fails s finish .settings f := by
  rw [settled_eq_error_iff]
  simp only [override_error_iff]
  constructor
  · rintro ⟨e, ⟨raw, hbad, rfl⟩ | ⟨hgood, raw, hbad, rfl⟩, rfl⟩
    · exact Or.inl ⟨raw, hbad, rfl⟩
    · exact Or.inr ⟨hgood, raw, hbad, rfl⟩
  · rintro (⟨raw, hbad, rfl⟩ | ⟨hgood, raw, hbad, rfl⟩)
    · exact ⟨_, Or.inl ⟨raw, hbad, rfl⟩, rfl⟩
    · exact ⟨_, Or.inr ⟨hgood, raw, hbad, rfl⟩, rfl⟩

theorem override_eq_ok_iff (vars : Keyed String) (base c : Catalog) :
    settled (Environment.override vars base) = .ok c ↔ ∃ store flag, Says vars storeVariable StoreText store ∧
      Says vars showOutOfStockVariable FlagText flag ∧
      c = withSettings base (vars.get? tablePrefixVariable) store flag := by
  rw [settled_eq_ok_iff, override_eq_iff]

theorem dialect_error_iff : (Dialect.ofName t.dialect).mapError Failure.argument = .error f ↔ t.Fails s finish .dialect f := by
  rw [mapError_eq_error_iff, Dialect.ofName]
  unfold Target.Fails
  cases Dialect.ofName? t.dialect <;> simp

theorem dialect_eq_ok_iff (name : String) (d : Dialect) : Dialect.ofName name = .ok d ↔ Dialect.ofName? name = some d := by
  unfold Dialect.ofName
  cases Dialect.ofName? name <;> simp

theorem kind_error_iff : (FilterKind.ofName t.kind).mapError Failure.argument = .error f ↔ t.Fails s finish .kind f := by
  rw [mapError_eq_error_iff, FilterKind.ofName]
  unfold Target.Fails
  cases FilterKind.ofName? t.kind <;> simp

theorem kind_eq_ok_iff (name : String) (kind : FilterKind) :
    FilterKind.ofName name = .ok kind ↔ FilterKind.ofName? name = some kind := by
  unfold FilterKind.ofName
  cases FilterKind.ofName? name <;> simp

/-! ## All stages -/

theorem prepare_eq_ok_iff (c : Catalog) (d : Dialect) (kind : FilterKind) :
    t.prepare s = .ok (c, d, kind) ↔ t.Gives s c d kind := by
  simp only [Target.prepare, bind_eq_ok_iff, mapError_eq_ok_iff, parseCatalog_eq_ok_iff, loadVariables_eq_ok_iff,
    override_eq_ok_iff, dialect_eq_ok_iff, kind_eq_ok_iff]
  constructor
  · rintro ⟨source, hfile, base, hparse, vars, ⟨rfl, hsettings⟩, e, ⟨store, flag, hs, hf, rfl⟩, d', hd, kind', hk, hout⟩
    cases hout
    exact ⟨⟨source, base, store, flag, hfile, hparse, hs, hf, rfl⟩, hsettings, hd, hk⟩
  · rintro ⟨⟨source, base, store, flag, hfile, hparse, hs, hf, rfl⟩, hsettings, hd, hk⟩
    exact ⟨source, hfile, base, hparse, _, ⟨rfl, hsettings⟩, _, ⟨store, flag, hs, hf, rfl⟩, d, hd, kind, hk, rfl⟩

theorem run_eq_ok_iff (a : α) :
    t.run s finish = .ok a ↔ ∃ c d kind, t.Gives s c d kind ∧ finish c d kind = .ok a := by
  simp only [Target.run, bind_eq_ok_iff, mapError_eq_ok_iff, Prod.exists, prepare_eq_ok_iff]

theorem Gives.unique {c c' : Catalog} {d d' : Dialect} {kind kind' : FilterKind} (h : t.Gives s c d kind)
    (h' : t.Gives s c' d' kind') : (c, d, kind) = (c', d', kind') := by
  have hp := (prepare_eq_ok_iff s t c d kind).2 h
  have hp' := (prepare_eq_ok_iff s t c' d' kind').2 h'
  exact Except.ok.inj (hp.symm.trans hp')

theorem finish_error_iff {c : Catalog} {d : Dialect} {kind : FilterKind} (h : t.Gives s c d kind) :
    (finish c d kind).mapError Failure.compile = .error f ↔ t.Fails s finish .compilation f := by
  rw [mapError_eq_error_iff]
  constructor
  · rintro ⟨e, he, rfl⟩
    exact ⟨c, d, kind, e, h, he, rfl⟩
  · rintro ⟨c', d', kind', e, h', he, rfl⟩
    cases Gives.unique s t h h'
    exact ⟨e, he, rfl⟩

end

/-! ## The first that fails -/

section
variable {s : Surroundings} {t : Target} {α β γ : Type} {finish : Target.Finish γ}

/-- None of the stages before this position fails. -/
def Clear (s : Surroundings) (t : Target) (finish : Target.Finish γ) (n : Nat) : Prop :=
  ∀ stage : Stage, stage.position < n → ∀ f, ¬ t.Fails s finish stage f

theorem Clear.not_failsFirst (h : Clear s t finish 7) (stage : Stage) (f : Failure) : ¬ t.FailsFirst s finish stage f :=
  fun hf => h stage stage.position_lt f hf.1

/-- If no earlier stage fails and the rest goes on in order, so does the stage with the rest. -/
theorem Clear.step (stage : Stage) (hclear : Clear s t finish stage.position) {x : Except Failure α}
    {g : α → Except Failure β} (hx : ∀ f, x = .error f ↔ t.Fails s finish stage f)
    (hg : ∀ a, x = .ok a → Clear s t finish (stage.position + 1) →
      ∀ f, g a = .error f ↔ ∃ stage, t.FailsFirst s finish stage f) (f : Failure) :
    (x >>= g) = .error f ↔ ∃ stage, t.FailsFirst s finish stage f := by
  cases x with
  | error e =>
    have he : t.Fails s finish stage e := (hx e).1 rfl
    constructor
    · intro h
      cases h
      exact ⟨stage, he, hclear⟩
    · rintro ⟨other, hf, hfirst⟩
      rcases Nat.lt_trichotomy other.position stage.position with hlt | heq | hgt
      · exact absurd hf (hclear other hlt f)
      · cases Stage.position_inj heq
        cases (hx f).2 hf
        rfl
      · exact absurd he (hfirst stage hgt e)
  | ok a =>
    refine hg a rfl (fun other hlt f' hf => ?_) f
    rcases Nat.lt_or_eq_of_le (Nat.le_of_lt_succ hlt) with hlt' | heq
    · exact hclear other hlt' f' hf
    · cases Stage.position_inj heq
      cases (hx f').2 hf

end

theorem run_eq_error_iff {α : Type} (s : Surroundings) (t : Target) (finish : Target.Finish α) (f : Failure) :
    t.run s finish = .error f ↔ ∃ stage, t.FailsFirst s finish stage f := by
  simp only [Target.run, Target.prepare, bind_assoc, pure_bind]
  have hstart : Clear s t finish 0 := fun stage h => absurd h (Nat.not_lt_zero _)
  refine Clear.step .catalogFile hstart (catalogFile_error_iff s t finish) (fun source hsource hclear => ?_) f
  have hfile := mapError_eq_ok_iff.1 hsource
  refine Clear.step .catalogJson hclear (parseCatalog_error_iff s t finish · hfile) fun base hbase hclear => ?_
  refine Clear.step .settingsFile hclear (loadVariables_error_iff s t finish) fun vars hvars hclear => ?_
  obtain ⟨rfl, hsettings⟩ := (loadVariables_eq_ok_iff s t vars).1 hvars
  refine Clear.step .settings hclear (override_settings_error_iff s t finish · base) fun c hc hclear => ?_
  refine Clear.step .dialect hclear (dialect_error_iff s t finish) fun d hd hclear => ?_
  refine Clear.step .kind hclear (kind_error_iff s t finish) fun kind hkind hclear => ?_
  have hgives : t.Gives s c d kind := by
    rw [← prepare_eq_ok_iff, Target.prepare, hsource]
    simp only [bind, Except.bind, hbase, hvars, hc, hd, hkind]
    rfl
  -- nothing follows the last stage
  have hlast := Clear.step (g := pure) .compilation hclear (finish_error_iff s t finish · hgives) fun _ _ hall f =>
    iff_of_false nofun fun ⟨stage, hf⟩ => hall.not_failsFirst stage f hf
  simpa only [bind_pure] using hlast

/-! ## Two ways to finish -/

section
variable {s : Surroundings} {t : Target} {α β : Type} {stage : Stage} {f : Failure}

theorem fails_congr (h : stage ≠ .compilation) (finish : Target.Finish α) (finish' : Target.Finish β) :
    t.Fails s finish stage f ↔ t.Fails s finish' stage f := by
  cases stage with
  | compilation => exact absurd rfl h
  | _ => exact Iff.rfl

theorem ne_compile_of_fails (h : stage ≠ .compilation) {finish : Target.Finish α} (hf : t.Fails s finish stage f)
    (e : CompileError) : f ≠ .compile e := by
  rintro rfl
  cases stage with
  | compilation => exact h rfl
  | _ => simp [Target.Fails] at hf

/-- A finish with some of the errors of another one fails first as the other does, those errors apart
that it does not have. -/
theorem failsFirst_iff {finish : Target.Finish α} {finish' : Target.Finish β} {has : CompileError → Prop}
    (h : ∀ c d kind e, finish c d kind = .error e ↔ finish' c d kind = .error e ∧ has e) :
    t.FailsFirst s finish stage f ↔ t.FailsFirst s finish' stage f ∧ ∀ e, f = .compile e → has e := by
  have hearlier : (∀ earlier : Stage, earlier.position < stage.position → ∀ f, ¬ t.Fails s finish earlier f) ↔
      ∀ earlier : Stage, earlier.position < stage.position → ∀ f, ¬ t.Fails s finish' earlier f := by
    refine forall₂_congr fun earlier hlt => forall_congr' fun f => not_congr (fails_congr ?_ finish finish')
    rintro rfl
    exact absurd hlt (Nat.not_lt.2 (Nat.le_of_lt_succ stage.position_lt))
  have hfails : t.Fails s finish stage f ↔ t.Fails s finish' stage f ∧ ∀ e, f = .compile e → has e := by
    by_cases hs : stage = .compilation
    · subst hs
      constructor
      · rintro ⟨c, d, kind, e, hg, he, rfl⟩
        refine ⟨⟨c, d, kind, e, hg, ((h c d kind e).1 he).1, rfl⟩, fun e' he' => ?_⟩
        cases he'
        exact ((h c d kind e).1 he).2
      · rintro ⟨⟨c, d, kind, e, hg, he, rfl⟩, hhas⟩
        exact ⟨c, d, kind, e, hg, (h c d kind e).2 ⟨he, hhas e rfl⟩, rfl⟩
    · rw [fails_congr hs finish finish']
      exact ⟨fun hf => ⟨hf, fun e he => absurd he (ne_compile_of_fails hs hf e)⟩, And.left⟩
  unfold Target.FailsFirst
  rw [hearlier, hfails]
  exact and_right_comm

end

theorem plan_error_iff (c : Catalog) (d : Dialect) (f g : Filter) (hfield : g.field = f.field) (negated : Bool)
    (query : String) (e : CompileError) :
    c.plan g = .error e ↔
      c.compile d Filter.tableAlias f negated query = .error e ∧ ∀ entity, e ≠ .unknownLinks entity := by
  rw [Catalog.plan_eq_error_iff, Catalog.compile_eq_error_iff, hfield]
  constructor
  · rintro ⟨hu, rfl⟩
    exact ⟨Or.inl ⟨hu, rfl⟩, nofun⟩
  · rintro ⟨h | ⟨-, rfl⟩, hne⟩
    · exact h
    · exact absurd rfl (hne _)

/-! ## Answers -/

/-- What the filter of a request compares with, by the values given. -/
inductive Selected : List String → Bool → Operand → Prop
  | none : Selected [] false (.one .null)
  | one (word : String) : Selected [word] false (.one (.ofWord word))
  | set (words : List String) (asSet : Bool) (h : asSet = true ∨ 1 < words.length) :
      Selected words asSet (.set (words.map Value.ofWord))

theorem selected_operand (values : List String) (asSet : Bool) : Selected values asSet (operand values asSet) := by
  cases asSet with
  | true =>
    have hset : operand values true = .set (values.map Value.ofWord) := by
      unfold operand
      split <;> first | rfl | contradiction
    rw [hset]
    exact .set values true (Or.inl rfl)
  | false =>
    match values with
    | [] => exact .none
    | [word] => exact .one word
    | first :: second :: rest => exact .set (first :: second :: rest) false (Or.inr (by simp))

section
variable (s : Surroundings) (t : Target) (values : List String) (asSet negated : Bool) (query : String)

theorem answer_compile_eq_ok_iff (text : String) :
    (Request.compile t values asSet negated query).answer s = .ok text ↔ ∃ c d kind fragment, t.Gives s c d kind ∧
      c.compile d Filter.tableAlias ⟨t.field, kind, operand values asSet⟩ negated query = .ok fragment ∧
        text = fragment ++ "\n" := by
  rw [answer_compile, bind_eq_ok_iff]
  simp only [run_eq_ok_iff]
  constructor
  · rintro ⟨fragment, ⟨c, d, kind, hgives, hc⟩, htext⟩
    exact ⟨c, d, kind, fragment, hgives, hc, (Except.ok.inj htext).symm⟩
  · rintro ⟨c, d, kind, fragment, hgives, hc, rfl⟩
    exact ⟨fragment, ⟨c, d, kind, hgives, hc⟩, rfl⟩

theorem answer_compile_eq_error_iff (f : Failure) :
    (Request.compile t values asSet negated query).answer s = .error f ↔ ∃ stage, t.FailsFirst s
      (fun c d kind => c.compile d Filter.tableAlias ⟨t.field, kind, operand values asSet⟩ negated query) stage f := by
  rw [answer_compile, bind_pure_eq_error_iff, run_eq_error_iff]

end

/-- A request to compile is answered with the fragment of the catalog with its settings overridden,
or fails as the first stage that fails, and a request to explain fails with it unless only the link
is missing. -/
theorem answer_iff (s : Surroundings) (t : Target) (values : List String) (asSet negated : Bool) (query : String) :
    ∃ operand, Selected values asSet operand ∧
      (∀ text, (Request.compile t values asSet negated query).answer s = .ok text ↔ ∃ c d kind fragment,
        t.Gives s c d kind ∧ c.compile d Filter.tableAlias ⟨t.field, kind, operand⟩ negated query = .ok fragment ∧
          text = fragment ++ "\n") ∧
      (∀ f, (Request.compile t values asSet negated query).answer s = .error f ↔ ∃ stage,
        t.FailsFirst s (fun c d kind => c.compile d Filter.tableAlias ⟨t.field, kind, operand⟩ negated query) stage f) ∧
      (∀ f, (Request.explain t).answer s = .error f ↔
        (Request.compile t values asSet negated query).answer s = .error f ∧
          ∀ entity, f ≠ .compile (.unknownLinks entity)) ∧
      ∀ name, (t.settings s).get? name =
        (lastWrite? (valueOf? name) (t.settingsLines s)).or (s.vars.get? name) := by
  refine ⟨operand values asSet, selected_operand values asSet, answer_compile_eq_ok_iff s t values asSet negated query,
    answer_compile_eq_error_iff s t values asSet negated query, fun f => ?_,
    fun name => get?_overlay name s.vars (t.settingsLines s)⟩
  rw [answer_compile_eq_error_iff, answer_explain, bind_pure_eq_error_iff, run_eq_error_iff]
  have hlinks : (∀ e, f = .compile e → ∀ entity, e ≠ .unknownLinks entity) ↔
      ∀ entity, f ≠ .compile (.unknownLinks entity) := by
    constructor
    · rintro h entity rfl
      exact h _ rfl entity rfl
    · rintro h e rfl entity rfl
      exact h entity rfl
  rw [← hlinks, ← exists_and_right]
  exact exists_congr fun stage => failsFirst_iff fun c d kind e =>
    plan_error_iff c d ⟨t.field, kind, operand values asSet⟩ ⟨t.field, kind, .one .null⟩ rfl negated query e

example :
    let s : Surroundings := ⟨fun path => if path = "shop.env" then .ok "A=1\n=2" else .ok "{}", [(storeVariable, "x")]⟩
    (Request.compile ⟨"shop.json", "color", "fuzzy", "oracle", some "shop.env"⟩ ["red"] false false "").answer s =
      .error (.environment (.emptyKey 2)) := by
  decide +kernel

end SearchFilter.CommandLine
