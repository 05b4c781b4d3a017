import SearchFilter.Proofs.LastWrite
import SearchFilter.Proofs.Sql.RoundTrip

/-!
# Queries built in steps

A query is built from its columns and its source by joins, restrictions and conditions on the
columns selected, in any order. Its text has the joins and the restrictions as they were added and
the last condition on the columns selected. In which shape the restrictions were gathered does not
show, nor how the steps of one kind were mixed with those of another.
-/

namespace SearchFilter.Sql

inductive Step
  | join (j : Join)
  | restrict (e : Expr)
  | having (e : Expr)
  deriving Repr

namespace Step

def join? : Step → Option Join
  | join j => some j
  | _ => none

def restriction? : Step → Option Expr
  | restrict e => some e
  | _ => none

def having? : Step → Option Expr
  | having e => some e
  | _ => none

end Step

def Select.step (s : Select) : Step → Select
  | .join j => s.join j
  | .restrict e => s.restrict e
  | .having e => s.setHaving e

def Select.run (s : Select) (steps : List Step) : Select :=
  steps.foldl Select.step s

/-! ## The query that the steps make -/

def Expr.parts : Expr → List Expr
  | .all es => es
  | e => [e]

/-- The condition that restrictions are gathered in. Of several the first is opened, no other. -/
def gathered? : List Expr → Option Expr
  | [] => none
  | [e] => some e
  | e :: es => some (.all (e.parts ++ es))

def assembled (columns : List Expr) (source : Table) (joins : List Join) (restrictions : List Expr)
    (having : Option Expr) : Select :=
  ⟨columns, some source, joins, gathered? restrictions, having⟩

section
variable (columns : List Expr) (source : Table)

theorem restrict_assembled (joins : List Join) (es : List Expr) (having : Option Expr) (e : Expr) :
    (assembled columns source joins es having).restrict e =
      assembled columns source joins (es ++ [e]) having := by
  match es with
  | [] => rfl
  | [f] => cases f <;> rfl
  | f :: g :: es => simp [assembled, Select.restrict, gathered?]

/-- Each step adds to what it is about and leaves the rest as it was. -/
theorem step_assembled (joins : List Join) (es : List Expr) (having : Option Expr) (step : Step) :
    (assembled columns source joins es having).step step =
      assembled columns source (joins ++ step.join?.toList) (es ++ step.restriction?.toList)
        (step.having?.or having) := by
  cases step with
  | join j => simp [Select.step, Select.join, assembled, Step.join?, Step.restriction?, Step.having?]
  | restrict e => simp [Select.step, restrict_assembled, Step.join?, Step.restriction?, Step.having?]
  | having e => simp [Select.step, Select.setHaving, assembled, Step.join?, Step.restriction?, Step.having?]

theorem run_assembled (steps : List Step) (joins : List Join) (es : List Expr) (having : Option Expr) :
    (assembled columns source joins es having).run steps =
      assembled columns source (joins ++ steps.filterMap Step.join?) (es ++ steps.filterMap Step.restriction?)
        ((steps.filterMap Step.having?).getLast?.or having) := by
  induction steps generalizing joins es having with
  | nil => simp [Select.run]
  | cons step steps ih =>
    show ((assembled columns source joins es having).step step).run steps = _
    rw [step_assembled, ih, filterMap_cons_append Step.join?, filterMap_cons_append Step.restriction?,
      getLast?_filterMap_cons, List.append_assoc, List.append_assoc]

theorem run_ofTable (steps : List Step) :
    (Select.ofTable columns source).run steps =
      assembled columns source (steps.filterMap Step.join?) (steps.filterMap Step.restriction?)
        (steps.filterMap Step.having?).getLast? := by
  have h := run_assembled columns source steps [] [] none
  rwa [List.nil_append, List.nil_append, Option.or_none] at h

end

/-! ## Its text -/

section
variable (d : Dialect)

theorem text_eq_intercalate_parts (e : Expr) : e.text d = " AND ".intercalate (texts d e.parts) := by
  cases e with
  | all es => rfl
  | _ => simp [Expr.parts, texts]

/-- Opening a conjunction does not change how its parts are written, but it must have some. -/
theorem intercalate_parts {e : Expr} (he : e.parts ≠ []) (es : List Expr) :
    " AND ".intercalate (texts d (e.parts ++ es)) = " AND ".intercalate (texts d (e :: es)) := by
  rw [texts_eq_map, List.map_append, ← texts_eq_map, ← texts_eq_map, texts]
  by_cases hes : es = []
  · subst hes
    simp [texts, text_eq_intercalate_parts]
  · have hp : texts d e.parts ≠ [] := by simpa [texts_eq_map] using he
    have hn : texts d es ≠ [] := by simpa [texts_eq_map] using hes
    rw [String.intercalate_append_of_ne_nil hp hn, String.intercalate_cons_of_ne_nil hn, text_eq_intercalate_parts]

def whereText (es : List Expr) : String :=
  if es.isEmpty then "" else " WHERE " ++ " AND ".intercalate (es.map (Expr.text d))

theorem clause_gathered? {es : List Expr} (h : es.head? ≠ some (.all [])) :
    clause " WHERE " ((gathered? es).map (Expr.text d)) = whereText d es := by
  match es with
  | [] => rfl
  | [e] => simp [gathered?, clause, whereText]
  | e :: f :: es =>
    have he : e.parts ≠ [] := by
      cases e with
      | all ps => simpa [Expr.parts] using h
      | _ => simp [Expr.parts]
    show " WHERE " ++ " AND ".intercalate (texts d (e.parts ++ f :: es)) = _
    rw [intercalate_parts d he, texts_eq_map]
    rfl

theorem text_run (columns : List Expr) (source : Table) (steps : List Step)
    (h : (steps.filterMap Step.restriction?).head? ≠ some (.all [])) :
    ((Select.ofTable columns source).run steps).text d =
        "SELECT " ++ ", ".intercalate (columns.map (Expr.text d)) ++ " FROM " ++ source.text d ++
          String.join ((steps.filterMap Step.join?).map fun j => " " ++ j.text d) ++
          whereText d (steps.filterMap Step.restriction?) ++
          clause " HAVING " ((steps.filterMap Step.having?).getLast?.map (Expr.text d)) ∧
      ∀ steps', steps'.filterMap Step.join? = steps.filterMap Step.join? →
        steps'.filterMap Step.restriction? = steps.filterMap Step.restriction? →
        (steps'.filterMap Step.having?).getLast? = (steps.filterMap Step.having?).getLast? →
          ((Select.ofTable columns source).run steps').text d = ((Select.ofTable columns source).run steps).text d := by
  constructor
  · rw [run_ofTable, ← clause_gathered? d h, ← texts_eq_map]
    simp [assembled, Select.text, clause, String.append_assoc]
  · intro steps' hjoins hrestrictions hhaving
    rw [run_ofTable, run_ofTable, hjoins, hrestrictions, hhaving]

end

def mixedSteps : List Step :=
  let inStore (store : Int64) : Expr := .equal (.column (some "m") "store_id") (.value (.int store))
  [.having (.raw "size > 1"), .restrict (.all [inStore 0, .raw "a OR b"]),
    .join ⟨.left, ⟨"values", some "m"⟩, .all [.raw "x", .raw "y"]⟩, .restrict (.all []),
    .having (.raw "size > 2"), .join ⟨.inner, ⟨"index", none⟩, inStore 3⟩, .restrict (.all [.raw "c", .all []])]

def sortedSteps : List Step :=
  (mixedSteps.filterMap Step.join?).map Step.join ++ (mixedSteps.filterMap Step.restriction?).map Step.restrict ++
    [.having (.raw "size > 2")]

theorem text_run_mixedSteps :
    let q : Select := .ofTable [.column none "size"] ⟨"products", some "e"⟩
    (mixedSteps.filterMap Step.restriction?).head? ≠ some (.all []) ∧
      (q.run mixedSteps).text .mysql =
        "SELECT `size` FROM `products` AS `e` LEFT JOIN `values` AS `m` ON x AND y " ++
          "INNER JOIN `index` ON (`m`.`store_id` = 3) " ++
          "WHERE (`m`.`store_id` = 0) AND a OR b AND  AND c AND  HAVING size > 2" ∧
      (q.run sortedSteps).text .mysql = (q.run mixedSteps).text .mysql := by
  intro q
  have hn : (mixedSteps.filterMap Step.restriction?).head? ≠ some (.all []) := by
    intro h
    cases h
  obtain ⟨htext, hsame⟩ := text_run .mysql [.column none "size"] ⟨"products", some "e"⟩ mixedSteps hn
  refine ⟨hn, ?_, hsame sortedSteps rfl rfl rfl⟩
  rw [htext]
  decide +kernel

end SearchFilter.Sql
