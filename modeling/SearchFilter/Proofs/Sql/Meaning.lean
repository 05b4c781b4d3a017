import SearchFilter.Keyed
import SearchFilter.Sql.Syntax

/-!
# What queries mean

The rows a query selects from the tables of a database: its joins are nested loops, its
conditions know a third truth value, and `HAVING` sees the columns selected.
-/

namespace SearchFilter.Sql

/-- A column that a row lacks is null in it; the row without columns is null throughout. -/
abbrev Row := Keyed Value

def Row.value (r : Row) (name : String) : Value :=
  (r.get? name).getD .null

abbrev Tables := String → List Row

abbrev Scope := Keyed Row

/-- How a database compares values, what its other functions give, and which conditions written
as text are true of a row. Null is not the same as anything. -/
structure Engine where
  same : Value → Value → Bool
  same_null : ∀ v, same .null v = false
  same_symm : ∀ {v w}, same v w = true → same w v = true
  same_trans : ∀ {u v w}, same u v = true → same v w = true → same u w = true
  call : String → List Value → Value
  holds : String → Row → Bool

def isTrue (v : Value) : Bool :=
  v = .bool true

def Engine.equal (E : Engine) (v w : Value) : Value :=
  if v = .null ∨ w = .null then .null else .bool (E.same v w)

/-- A false part decides, otherwise a part that is not known. -/
def conjoin (vs : List Value) : Value :=
  if .bool false ∈ vs then .bool false else if vs.all isTrue then .bool true else .null

def firstNonNull : List Value → Value
  | [] => .null
  | v :: vs => if v = .null then firstNonNull vs else v

def Engine.apply (E : Engine) (function : String) (args : List Value) : Value :=
  if function = "IFNULL" ∨ function = "COALESCE" then firstNonNull args else E.call function args

mutual
def Expr.eval (E : Engine) (scope : Scope) : Expr → Value
  | .column (some qualifier) name => Row.value ((scope.get? qualifier).getD []) name
  | .column none name => Row.value (scope.flatMap Prod.snd) name
  | .value v => v
  | .equal left right => E.equal (left.eval E scope) (right.eval E scope)
  | .all parts => conjoin (evals E scope parts)
  | .call function args => E.apply function (evals E scope args)
  | .named e _ => e.eval E scope
  | .raw text => .bool (E.holds text (scope.flatMap Prod.snd))

def evals (E : Engine) (scope : Scope) : List Expr → List Value
  | [] => []
  | e :: es => e.eval E scope :: evals E scope es
end

def Expr.isTrueIn (E : Engine) (scope : Scope) (e : Expr) : Bool :=
  isTrue (e.eval E scope)

def Expr.outputName : Expr → String
  | .named _ label => label
  | .column _ name => name
  | _ => ""

def Table.scopeName (t : Table) : String :=
  t.label.getD t.name

section
variable (E : Engine) (T : Tables)

def Join.matching (j : Join) (scope : Scope) : List Row :=
  (T j.table.name).filter fun r => j.on.isTrueIn E (scope ++ [(j.table.scopeName, r)])

/-- A left join goes on with nulls where no row matches. -/
def Join.extend (j : Join) (scope : Scope) : List Scope :=
  let rows := if j.kind = .left ∧ (j.matching E T scope).isEmpty then [[]] else j.matching E T scope
  rows.map fun r => scope ++ [(j.table.scopeName, r)]

def Select.scopes (s : Select) : List Scope :=
  let start : List Scope :=
    match s.source with
    | none => [[]]
    | some t => (T t.name).map fun r => [(t.scopeName, r)]
  s.joins.foldl (fun scopes j => scopes.flatMap (j.extend E T)) start

def Select.output (s : Select) (scope : Scope) : Row :=
  s.columns.map fun e => (e.outputName, e.eval E scope)

def Select.rows (s : Select) : List Row :=
  let kept := (s.scopes E T).filter fun scope => s.condition.all (Expr.isTrueIn E scope)
  (kept.map (s.output E)).filter fun row => s.having.all (Expr.isTrueIn E [("", row)])

end

/-! ## Conditions -/

section
variable (E : Engine)

theorem Engine.same_null_right (v : Value) : E.same v .null = false := by
  refine Bool.eq_false_iff.2 fun h => ?_
  have hn := E.same_null v
  rw [E.same_symm h] at hn
  cases hn

theorem Engine.same_congr {v w : Value} (h : E.same v w = true) (u : Value) : E.same u v = E.same u w := by
  rw [Bool.eq_iff_iff]
  constructor
  · intro hu
    exact E.same_trans hu h
  · intro hu
    exact E.same_trans hu (E.same_symm h)

theorem Engine.isTrue_equal (v w : Value) : isTrue (E.equal v w) = E.same v w := by
  unfold Engine.equal
  by_cases hv : v = .null
  · subst hv
    rw [if_pos (Or.inl rfl), E.same_null]
    rfl
  · by_cases hw : w = .null
    · subst hw
      rw [if_pos (Or.inr rfl), E.same_null_right]
      rfl
    · rw [if_neg (by simp [hv, hw])]
      cases E.same v w <;> rfl

theorem isTrue_conjoin (vs : List Value) : isTrue (conjoin vs) = vs.all isTrue := by
  unfold conjoin
  by_cases hf : .bool false ∈ vs
  · have hn : vs.all isTrue = false := by
      refine Bool.eq_false_iff.2 fun h => ?_
      cases List.all_eq_true.1 h _ hf
    rw [if_pos hf, hn]
    rfl
  · rw [if_neg hf]
    by_cases ha : vs.all isTrue = true
    · rw [if_pos ha, ha]
      rfl
    · rw [if_neg ha, Bool.eq_false_iff.2 ha]
      rfl

theorem evals_eq_map (scope : Scope) (es : List Expr) : evals E scope es = es.map (Expr.eval E scope) := by
  induction es with
  | nil => rfl
  | cons e es ih => rw [evals, ih, List.map_cons]

theorem isTrueIn_all (scope : Scope) (es : List Expr) :
    Expr.isTrueIn E scope (.all es) = es.all (Expr.isTrueIn E scope) := by
  rw [Expr.isTrueIn, Expr.eval, isTrue_conjoin, evals_eq_map, List.all_map]
  rfl

theorem isTrueIn_equal (scope : Scope) (left right : Expr) :
    Expr.isTrueIn E scope (.equal left right) = E.same (left.eval E scope) (right.eval E scope) := by
  rw [Expr.isTrueIn, Expr.eval, E.isTrue_equal]

theorem isTrueIn_raw (text : String) (row : Row) : Expr.isTrueIn E [("", row)] (.raw text) = E.holds text row := by
  rw [Expr.isTrueIn, Expr.eval]
  simp [isTrue]

theorem apply_ifNull (d : Dialect) (args : List Value) : E.apply d.ifNull args = firstNonNull args := by
  cases d <;> rfl

theorem firstNonNull_pair (v w : Value) : firstNonNull [v, w] = if v = .null then w else v := by
  by_cases hw : w = .null
  · simp [firstNonNull, hw]
  · simp [firstNonNull, hw]

end

/-! ## Joins -/

section
variable (E : Engine) (T : Tables) {j : Join}

theorem Join.extend_inner (h : j.kind = .inner) (scope : Scope) :
    j.extend E T scope = (j.matching E T scope).map fun r => scope ++ [(j.table.scopeName, r)] := by
  simp [Join.extend, h]

/-- A left join on a key adds one row to each. -/
theorem Join.extend_left (h : j.kind = .left) {scope : Scope} {r? : Option Row}
    (hm : j.matching E T scope = r?.toList) :
    j.extend E T scope = [scope ++ [(j.table.scopeName, r?.getD [])]] := by
  cases r? <;> simp [Join.extend, h, hm]

end

theorem rows_setHaving (E : Engine) (T : Tables) {s : Select} (h : s.having = none) (text : String) :
    (s.setHaving (.raw text)).rows E T = (s.rows E T).filter (E.holds text) := by
  have hn : s.rows E T =
      ((s.scopes E T).filter fun scope => s.condition.all (Expr.isTrueIn E scope)).map (s.output E) := by
    rw [Select.rows, h]
    exact List.filter_eq_self.2 fun _ _ => rfl
  rw [hn]
  refine List.filter_congr fun row _ => ?_
  exact isTrueIn_raw E text row

/-! ## Filters on lists -/

theorem filter_flatMap_of_const {α β : Type} {f : α → List β} {p : β → Bool} {q : α → Bool}
    (h : ∀ a, ∀ b ∈ f a, p b = q a) (l : List α) : (l.flatMap f).filter p = (l.filter q).flatMap f := by
  induction l with
  | nil => rfl
  | cons a l ih =>
    rw [List.flatMap_cons, List.filter_append, ih]
    by_cases hq : q a = true
    · have hf : (f a).filter p = f a := List.filter_eq_self.2 fun b hb => (h a b hb).trans hq
      rw [List.filter_cons_of_pos hq, List.flatMap_cons, hf]
    · have hf : (f a).filter p = [] := List.filter_eq_nil_iff.2 fun b hb hp => hq ((h a b hb).symm.trans hp)
      rw [List.filter_cons_of_neg hq, hf]
      rfl

theorem flatMap_eq_map_filter {α β : Type} {f : α → List β} {p : α → Bool} {g : α → β}
    (h : ∀ a, f a = if p a = true then [g a] else []) (l : List α) : l.flatMap f = (l.filter p).map g := by
  induction l with
  | nil => rfl
  | cons a l ih =>
    rw [List.flatMap_cons, ih, h a]
    by_cases hp : p a = true
    · rw [if_pos hp, List.filter_cons_of_pos hp, List.map_cons]
      rfl
    · rw [if_neg hp, List.filter_cons_of_neg hp]
      rfl

theorem filter_eq_toList_find? {α : Type} {p : α → Bool} {l : List α}
    (h : l.Pairwise fun a b => ¬ (p a = true ∧ p b = true)) : l.filter p = (l.find? p).toList := by
  induction l with
  | nil => rfl
  | cons a l ih =>
    obtain ⟨ha, hl⟩ := List.pairwise_cons.1 h
    by_cases hp : p a = true
    · have hn : l.filter p = [] := List.filter_eq_nil_iff.2 fun b hb hpb => ha b hb ⟨hp, hpb⟩
      rw [List.filter_cons_of_pos hp, List.find?_cons_of_pos hp, hn]
      rfl
    · rw [List.filter_cons_of_neg hp, List.find?_cons_of_neg hp, ih hl]

end SearchFilter.Sql
