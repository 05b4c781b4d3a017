import SearchFilter.Fragment.Compile
import SearchFilter.Proofs.Sql.RoundTrip

/-!
# Sub-selects read back

The fragment of a filter on values outside the search query is a query in brackets with a
condition of the caller in it or around it. Reading it gives that query and that condition and
nothing else, whatever names the catalog has.
-/

namespace SearchFilter.Fragment
open Sql

/-- Where the condition of the caller stands: in the query or around it. -/
inductive Restriction
  | having (condition : String)
  | outer (condition : String)
  deriving DecidableEq, Repr

structure Membership where
  among : Select
  restriction : Restriction
  deriving Repr

def bracketed (query : String) : String := "(" ++ query ++ ")"

namespace Membership

def select (m : Membership) : Select :=
  match m.restriction with
  | .having condition => m.among.setHaving (.raw (bracketed condition))
  | .outer _ => m.among

def around (m : Membership) : Option String :=
  match m.restriction with
  | .having _ => none
  | .outer condition => some (bracketed condition)

def text (d : Dialect) (m : Membership) : String :=
  "search_index.entity_id IN (SELECT entity_id FROM (" ++ m.select.text d ++ ") AS filter" ++
    clause " WHERE " m.around ++ ")"

end Membership

/-- The condition is what stands between a bracket and the end of the fragment, not read further. -/
inductive ReadsMembership (d : Dialect) : Membership → List Char → Prop
  | having {q : Select} {condition : String} {cs : List Char} :
      Behind "search_index.entity_id IN (SELECT entity_id FROM (" (ReadsHead d) q cs
        (" HAVING (".toList ++ condition.toList ++ ")) AS filter)".toList) →
      ReadsMembership d ⟨q, .having condition⟩ cs
  | outer {q : Select} {condition : String} {cs : List Char} :
      Behind "search_index.entity_id IN (SELECT entity_id FROM (" (ReadsHead d) q cs
        (") AS filter WHERE (".toList ++ condition.toList ++ "))".toList) →
      ReadsMembership d ⟨q, .outer condition⟩ cs

theorem between_inj {before behind : List Char} {s t : String}
    (h : before ++ s.toList ++ behind = before ++ t.toList ++ behind) : s = t := by
  rw [List.append_assoc, List.append_assoc] at h
  exact String.toList_inj.1 (List.append_cancel_right (List.append_cancel_left h))

theorem ReadsMembership.unique {d : Dialect} {m n : Membership} {cs : List Char} (hm : ReadsMembership d m cs)
    (hn : ReadsMembership d n cs) : m = n := by
  cases hm with
  | having h =>
    cases hn with
    | having k =>
      obtain ⟨rfl, he⟩ := Behind.unique ReadsHead.unique h k
      rw [between_inj he]
    | outer k =>
      obtain ⟨-, he⟩ := Behind.unique ReadsHead.unique h k
      exact absurd he (by simp)
  | outer h =>
    cases hn with
    | having k =>
      obtain ⟨-, he⟩ := Behind.unique ReadsHead.unique h k
      exact absurd he (by simp)
    | outer k =>
      obtain ⟨rfl, he⟩ := Behind.unique ReadsHead.unique h k
      rw [between_inj he]

def restriction (d : Dialect) (query : String) : Restriction :=
  match d with
  | .mysql => .having query
  | .postgres => .outer query

section
variable (d : Dialect) (s : Select) (query : String)

theorem select_restriction : Membership.select ⟨s, restriction d query⟩ =
    if d.havingSeesAliases then s.setHaving (.raw (bracketed query)) else s := by
  cases d <;> rfl

theorem around_restriction : Membership.around ⟨s, restriction d query⟩ =
    if d.havingSeesAliases then none else some (bracketed query) := by
  cases d <;> rfl

theorem amongEntities_eq : amongEntities d s query = Membership.text d ⟨s, restriction d query⟩ := by
  unfold amongEntities Membership.text
  rw [select_restriction, around_restriction, ← String.toList_inj]
  by_cases hd : d.havingSeesAliases = true
  · simp only [hd, if_true, clause]
    simp [bracketed]
  · simp only [hd, clause]
    simp [bracketed]

end

section
variable (d : Dialect) {s : Select} (hs : s.isPlain = true) (hn : s.having = none) (query : String)

theorem toList_text_setHaving (e : Expr) (hn : s.having = none) :
    ((s.setHaving e).text d).toList = (s.text d).toList ++ (" HAVING ".toList ++ (e.text d).toList) := by
  simp [Select.text, Select.setHaving, clause, hn]

include hs hn

theorem amongEntities_reads : ReadsMembership d ⟨s, restriction d query⟩ (amongEntities d s query).toList := by
  cases d with
  | mysql =>
    have h := readsHead_text .mysql hs hn
      (continues_of_mem " HAVING " (by decide) ('(' :: (query.toList ++ ")) AS filter)".toList)))
    have hm := ReadsMembership.having (behind_append "search_index.entity_id IN (SELECT entity_id FROM (" h)
    simpa [amongEntities, Dialect.havingSeesAliases, toList_text_setHaving _ _ hn, Expr.text, restriction] using hm
  | postgres =>
    have h := readsHead_text .postgres hs hn
      (continues_of_mem ")" (by decide) (" AS filter WHERE (".toList ++ query.toList ++ "))".toList))
    have hm := ReadsMembership.outer (behind_append "search_index.entity_id IN (SELECT entity_id FROM (" h)
    simpa [amongEntities, Dialect.havingSeesAliases, restriction] using hm

theorem reads_amongEntities_iff (m : Membership) :
    ReadsMembership d m (amongEntities d s query).toList ↔ m = ⟨s, restriction d query⟩ := by
  have h := amongEntities_reads d hs hn query
  constructor
  · intro hm
    exact hm.unique h
  · rintro rfl
    exact h

end

/-! ## The fragments of filters -/

/-- What a sub-select is to be for a catalog: the products of the catalog, one row for each value
of the attribute that counts in the store of the catalog. -/
def subselect? (c : Catalog) (d : Dialect) (links : Links) (field : String) : Plan → Option Select
  | .indexedRange a =>
    some
      { columns := [.column (some "e") "entity_id", .named (.column (some "main_table") "value") field]
        source := some ⟨c.tablePrefix ++ "catalog_product_entity", some "e"⟩
        joins :=
          [⟨.inner,
            ⟨c.tablePrefix ++
              (if a.storage = .decimal then "catalog_product_index_eav_decimal" else "catalog_product_index_eav"),
              some "main_table"⟩,
            .equal (.column (some "main_table") links.identifierField) (.column (some "e") links.identifierField)⟩]
        condition := some (.all
          [.equal (.column (some "main_table") "attribute_id") (.value (.int a.id)),
            .equal (.column (some "main_table") "store_id") (.value (.int c.store))])
        having := none }
  | .storedValue a =>
    some
      { columns :=
          [.column (some "e") "entity_id",
            .named (.call d.ifNull [.column (some "current_store") "value", .column (some "main_table") "value"]) field]
        source := some ⟨c.tablePrefix ++ "catalog_product_entity", some "e"⟩
        joins :=
          [⟨.inner, ⟨c.tablePrefix ++ a.valueTable, some "main_table"⟩,
            .equal (.column (some "main_table") links.linkField) (.column (some "e") links.linkField)⟩,
          ⟨.left, ⟨c.tablePrefix ++ a.valueTable, some "current_store"⟩, .all
            [.equal (.column (some "current_store") "attribute_id") (.column (some "main_table") "attribute_id"),
              .equal (.column (some "current_store") "store_id") (.value (.int c.store)),
              .equal (.column (some "current_store") links.linkField)
                (.column (some "main_table") links.linkField)]⟩]
        condition := some (.all
          [.equal (.column (some "main_table") "attribute_id") (.value (.int a.id)),
            .equal (.column (some "main_table") "store_id") (.value (.int 0))])
        having := none }
  | _ => none

theorem subselect?_isPlain {c : Catalog} {d : Dialect} {links : Links} {field : String} {p : Plan} {s : Select}
    (h : subselect? c d links field p = some s) : s.isPlain = true ∧ s.having = none := by
  cases p with
  | indexedRange a =>
    cases h
    exact ⟨rfl, rfl⟩
  | storedValue a =>
    cases h
    cases d <;> exact ⟨rfl, rfl⟩
  | _ => cases h

section
variable {c : Catalog} {f : Filter} {p : Plan} {links : Links} (hp : c.plan f = .ok p)
  (hl : c.links? productEntity = some links) (d : Dialect)
include hp hl

theorem compile_of_subselect? {s : Select} (hs : subselect? c d links f.field p = some s)
    (aliasOf : Filter → String) (negated : Bool) (query : String) :
    c.compile d aliasOf f negated query = .ok (amongEntities d s query) := by
  have hlinks : c.findLinks productEntity = .ok links := by rw [Catalog.findLinks, hl]
  rw [Catalog.compile, hp]
  cases p with
  | indexedRange a =>
    cases hs
    show (c.findLinks productEntity >>= _) = _
    rw [hlinks]
    rfl
  | storedValue a =>
    cases hs
    show (c.findLinks productEntity >>= _) = _
    rw [hlinks]
    rfl
  | _ => cases hs

theorem compile_reads_subselect {s : Select} (hs : subselect? c d links f.field p = some s)
    (aliasOf : Filter → String) (negated : Bool) (query : String) :
    ∃ text, c.compile d aliasOf f negated query = .ok text ∧
      ∀ m, ReadsMembership d m text.toList ↔ m = ⟨s, restriction d query⟩ := by
  obtain ⟨hplain, hn⟩ := subselect?_isPlain hs
  refine ⟨amongEntities d s query, compile_of_subselect? hp hl d hs aliasOf negated query, ?_⟩
  exact reads_amongEntities_iff d hplain hn query

end

def quotedNames : Catalog where
  tablePrefix := "m` AS `e"
  store := 3
  entities := [(productEntity, ⟨"row`.`id", "id` = `id"⟩)]
  attributes := [⟨"tag", 77, .varchar, .text, none⟩, ⟨"size", 78, .decimal, .text, none⟩]
  flags := []

theorem compile_reads_subselect_quotedNames :
    let f : Filter := ⟨"tag", .term, .one .null⟩
    let p : Plan := .storedValue ⟨"tag", 77, .varchar, .text, none⟩
    let links : Links := ⟨"row`.`id", "id` = `id"⟩
    quotedNames.plan f = .ok p ∧ quotedNames.links? productEntity = some links ∧
      ∃ s text, subselect? quotedNames .mysql links "tag" p = some s ∧
        quotedNames.compile .mysql Filter.tableAlias f false "`tag` IN (')', '`')" = .ok text ∧
        ∀ m, ReadsMembership .mysql m text.toList ↔ m = ⟨s, .having "`tag` IN (')', '`')"⟩ := by
  intro f p links
  have hp : quotedNames.plan f = .ok p := by rfl
  have hl : quotedNames.links? productEntity = some links := by rfl
  obtain ⟨text, ht, hm⟩ := compile_reads_subselect hp hl .mysql rfl Filter.tableAlias false "`tag` IN (')', '`')"
  exact ⟨hp, hl, _, text, rfl, ht, hm⟩

end SearchFilter.Fragment
