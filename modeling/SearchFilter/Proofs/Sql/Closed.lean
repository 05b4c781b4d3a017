import SearchFilter.Proofs.Query.Closed
import SearchFilter.Proofs.Sql.RoundTrip
import SearchFilter.Proofs.Sql.Token

/-!
# Closed queries

Names and values are closed as they are written, whatever text they hold. So a query is closed if
the texts are that are put in it as they stand: the functions it calls and its raw parts.
-/

namespace SearchFilter
open Text Query

/-- Closed by the dialect's own rules: whether there are escapes, and what encloses names. -/
def Dialect.IsClosed (d : Dialect) (s : String) : Prop :=
  Closed (escapes d) d.quote s.toList

instance (d : Dialect) (s : String) : Decidable (d.IsClosed s) :=
  inferInstanceAs (Decidable (Closed _ _ _))

namespace Sql

def isPlainText (s : String) : Bool :=
  s.toList.all fun c => isInert Dialect.mysql.quote c && isInert Dialect.postgres.quote c

theorem isInert_of_isTokenChar (d : Dialect) {c : Char} (h : isTokenChar c = true) : isInert d.quote c = true := by
  simp only [isTokenChar, List.mem_cons, List.not_mem_nil, or_false, decide_eq_true_eq, not_or] at h
  cases d <;> simp [isInert, opensLiteral, Dialect.quote, h]

end Sql

/-! ## Texts put together -/

namespace Dialect.IsClosed

variable {d : Dialect} {s t : String}

theorem of_isPlainText (h : Sql.isPlainText s = true) : d.IsClosed s := by
  simp only [Sql.isPlainText, List.all_eq_true, Bool.and_eq_true] at h
  cases d with
  | mysql => exact closed_of_isInert fun c hc => (h c hc).1
  | postgres => exact closed_of_isInert fun c hc => (h c hc).2

theorem of_word (h : ∀ c ∈ s.toList, isWordChar c = true) : d.IsClosed s :=
  closed_word (escapes d) d h

theorem append (hs : d.IsClosed s) (ht : d.IsClosed t) : d.IsClosed (s ++ t) := by
  rw [IsClosed, String.toList_append]
  exact Closed.append hs ht

theorem brackets (h : d.IsClosed s) : d.IsClosed ("(" ++ s ++ ")") := by
  have htext : ("(" ++ s ++ ")").toList = '(' :: (s.toList ++ [')']) := by simp
  rw [IsClosed, htext]
  exact Closed.brackets h

theorem intercalate {ss : List String} (hs : d.IsClosed s) (h : ∀ t ∈ ss, d.IsClosed t) :
    d.IsClosed (s.intercalate ss) := by
  rw [IsClosed, String.toList_intercalate]
  refine closed_intercalate hs fun x hx => ?_
  obtain ⟨t, ht, rfl⟩ := List.mem_map.1 hx
  exact h t ht

theorem join {ss : List String} (h : ∀ t ∈ ss, d.IsClosed t) : d.IsClosed (String.join ss) := by
  rw [IsClosed, String.toList_join]
  exact .flatMap h

theorem quoteName (d : Dialect) (name : String) : d.IsClosed (d.quoteName name) := by
  rw [IsClosed, Dialect.quoteName, String.toList_ofList]
  exact closed_name (escapes d) d name.toList

theorem quoteValue (d : Dialect) (v : Value) : d.IsClosed (d.quoteValue v) := by
  have token (h : ∀ s, v ≠ .text s) : d.IsClosed (d.quoteValue v) :=
    closed_of_isInert fun c hc => Sql.isInert_of_isTokenChar d ((Sql.isToken_quoteValue d h).2 c hc)
  cases v with
  | text s =>
    rw [IsClosed, toList_quoteValue]
    exact closed_literal d s.toList
  | _ => exact token (by simp)

end Dialect.IsClosed

namespace Sql
open Dialect

/-! ## Expressions -/

mutual
/-- The parts of an expression that are neither quoted nor escaped. -/
def Expr.verbatim : Expr → List String
  | .column _ _ => []
  | .value _ => []
  | .equal left right => left.verbatim ++ right.verbatim
  | .all parts => verbatims parts
  | .call function args => function :: verbatims args
  | .named e _ => e.verbatim
  | .raw text => [text]

def verbatims : List Expr → List String
  | [] => []
  | e :: es => e.verbatim ++ verbatims es
end

mutual
theorem isClosed_text (d : Dialect) (e : Expr) (h : ∀ s ∈ e.verbatim, d.IsClosed s) : d.IsClosed (e.text d) := by
  match e with
  | .column none name => exact .quoteName d name
  | .column (some qualifier) name =>
    exact ((IsClosed.quoteName d qualifier).append (.of_isPlainText (by decide))).append (.quoteName d name)
  | .value v => exact .quoteValue d v
  | .equal left right =>
    simp only [Expr.verbatim, List.forall_mem_append] at h
    have hl := isClosed_text d left h.1
    have hr := isClosed_text d right h.2
    have hb := ((hl.append (.of_isPlainText (s := " = ") (by decide))).append hr).brackets
    simpa only [Expr.text, String.append_assoc] using hb
  | .all parts => exact .intercalate (.of_isPlainText (by decide)) (isClosed_texts d parts h)
  | .call function args =>
    simp only [Expr.verbatim, List.forall_mem_cons] at h
    have hargs := IsClosed.intercalate (.of_isPlainText (s := ", ") (by decide)) (isClosed_texts d args h.2)
    simpa only [Expr.text, String.append_assoc] using h.1.append hargs.brackets
  | .named e label =>
    exact ((isClosed_text d e h).append (.of_isPlainText (by decide))).append (.quoteName d label)
  | .raw text => exact h text (by simp [Expr.verbatim])

theorem isClosed_texts (d : Dialect) (es : List Expr) (h : ∀ s ∈ verbatims es, d.IsClosed s) :
    ∀ t ∈ texts d es, d.IsClosed t := by
  match es with
  | [] => simp [texts]
  | e :: es =>
    simp only [verbatims, List.forall_mem_append] at h
    simp only [texts, List.forall_mem_cons]
    exact ⟨isClosed_text d e h.1, isClosed_texts d es h.2⟩
end

/-! ## Queries -/

def Select.verbatim (s : Select) : List String :=
  verbatims s.columns ++ s.joins.flatMap (·.on.verbatim) ++ s.condition.toList.flatMap Expr.verbatim ++
    s.having.toList.flatMap Expr.verbatim

section
variable (d : Dialect)

theorem isClosed_text_table (t : Table) : d.IsClosed (t.text d) := by
  rw [Table.text]
  split
  · exact .quoteName d t.name
  · exact ((IsClosed.quoteName d t.name).append (.of_isPlainText (by decide))).append (.quoteName d _)

theorem isClosed_text_join {j : Join} (h : ∀ s ∈ j.on.verbatim, d.IsClosed s) : d.IsClosed (j.text d) := by
  have hkind : d.IsClosed j.kind.text := .of_isPlainText (by cases j.kind <;> decide)
  have htable := (hkind.append (.of_isPlainText (s := " ") (by decide))).append (isClosed_text_table d j.table)
  exact (htable.append (.of_isPlainText (by decide))).append (isClosed_text d j.on h)

variable {d}

theorem isClosed_clause {before : String} (hb : isPlainText before = true) {text : Option String}
    (h : ∀ s ∈ text, d.IsClosed s) : d.IsClosed (clause before text) := by
  cases text with
  | none => exact .of_isPlainText (s := "") (by decide)
  | some s => exact (IsClosed.of_isPlainText hb).append (h s rfl)

theorem isClosed_condition {before : String} (hb : isPlainText before = true) {condition : Option Expr}
    (h : ∀ s ∈ condition.toList.flatMap Expr.verbatim, d.IsClosed s) :
    d.IsClosed (clause before (condition.map (Expr.text d))) := by
  refine isClosed_clause hb fun s hs => ?_
  obtain ⟨e, he, rfl⟩ := Option.map_eq_some_iff.1 hs
  exact isClosed_text d e fun t ht => h t (List.mem_flatMap.2 ⟨e, Option.mem_toList.2 he, ht⟩)

theorem isClosed_text_select {s : Select} (h : ∀ t ∈ s.verbatim, d.IsClosed t) : d.IsClosed (s.text d) := by
  simp only [Select.verbatim, List.forall_mem_append] at h
  obtain ⟨⟨⟨hcolumns, hjoins⟩, hcondition⟩, hhaving⟩ := h
  have h₀ : d.IsClosed ("SELECT " ++ ", ".intercalate (texts d s.columns)) :=
    .append (.of_isPlainText (by decide)) (.intercalate (.of_isPlainText (by decide)) (isClosed_texts d s.columns hcolumns))
  have h₁ : d.IsClosed (clause " FROM " (s.source.map (Table.text d))) := by
    refine isClosed_clause (by decide) fun t ht => ?_
    obtain ⟨table, -, rfl⟩ := Option.map_eq_some_iff.1 ht
    exact isClosed_text_table d table
  have h₂ : d.IsClosed (String.join (s.joins.map fun j => " " ++ j.text d)) := by
    refine .join fun t ht => ?_
    obtain ⟨j, hj, rfl⟩ := List.mem_map.1 ht
    exact .append (.of_isPlainText (by decide))
      (isClosed_text_join d fun r hr => hjoins r (List.mem_flatMap.2 ⟨j, hj, hr⟩))
  have h₃ : d.IsClosed (clause " WHERE " (s.condition.map (Expr.text d))) :=
    isClosed_condition (by decide) hcondition
  have h₄ : d.IsClosed (clause " HAVING " (s.having.map (Expr.text d))) :=
    isClosed_condition (by decide) hhaving
  exact (((h₀.append h₁).append h₂).append h₃).append h₄

end

end Sql

end SearchFilter
