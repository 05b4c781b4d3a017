import SearchFilter.Proofs.Fragment.Failure
import SearchFilter.Proofs.Query.Parts
import SearchFilter.Proofs.Sql.RoundTrip

/-!
# Columns of the entity table

A condition on a static attribute is anchored at the alias of the entity table. A quoted reference
becomes the quoted path of alias and code, which is the column of that name in the table of that
alias as long as neither name has a dot in it (`compile_quotedReference_iff`).
-/

namespace SearchFilter
open Text Query Sql

/-! ## Quoted references -/

namespace Fragment

def IsQuotedReference (d : Dialect) (name before behind query : String) : Prop :=
  ReadsBetween d (.name name.toList true) before behind query ∧
    before.toList.getLast? ≠ some '.' ∧ behind.toList.head? ≠ some '.'

theorem anchor_quotedReference {d : Dialect} {column before behind query : String}
    (h : IsQuotedReference d column before behind query) (replacement : String) :
    anchor d column replacement query =
      anchor d column replacement before ++ d.quotePath replacement ++ anchor d column replacement behind := by
  obtain ⟨hread, hbefore, hbehind⟩ := h
  have hbeside : ¬ (before.toList.getLast? = some '.' ∨ behind.toList.head? = some '.') := not_or.2 ⟨hbefore, hbehind⟩
  rw [anchor_of_readsBetween hread rfl column replacement, Token.rewritten, if_neg hbeside]
  simp

end Fragment

namespace Catalog
open Fragment

theorem compile_entityColumn {c : Catalog} {f : Filter} {a : Attribute} (h : c.plan f = .ok (.entityColumn a))
    (d : Dialect) (aliasOf : Filter → String) (negated : Bool) (query : String) :
    c.compile d aliasOf f negated query = .ok (anchor d a.code (aliasOf f ++ "." ++ a.code) query) :=
  c.compile_of_plan d aliasOf f negated query h

/-- What stands before and behind a quoted reference to a static attribute is compiled as if it stood alone.
Between the two there is the quoted path of alias and code, and this is the column of the table exactly if
neither of them has a dot in it. -/
theorem compile_quotedReference_iff {c : Catalog} {f : Filter} {a : Attribute}
    (hp : c.plan f = .ok (.entityColumn a)) {d : Dialect} {before behind query : String}
    (h : IsQuotedReference d a.code before behind query) (aliasOf : Filter → String) (negated : Bool) :
    ∃ left right : String,
      c.compile d aliasOf f negated before = .ok left ∧ c.compile d aliasOf f negated behind = .ok right ∧
      c.compile d aliasOf f negated query = .ok (left ++ d.quotePath (aliasOf f ++ "." ++ a.code) ++ right) ∧
      (c.compile d aliasOf f negated query =
          .ok (left ++ (d.quoteName (aliasOf f) ++ "." ++ d.quoteName a.code) ++ right) ↔
        '.' ∉ (aliasOf f).toList ∧ '.' ∉ a.code.toList) ∧
      (ReadsExpr d (.column (some (aliasOf f)) a.code) (d.quotePath (aliasOf f ++ "." ++ a.code)).toList [] ↔
        '.' ∉ (aliasOf f).toList ∧ '.' ∉ a.code.toList) := by
  have hquery := compile_entityColumn hp d aliasOf negated query
  rw [anchor_quotedReference h] at hquery
  refine ⟨_, _, compile_entityColumn hp d aliasOf negated before, compile_entityColumn hp d aliasOf negated behind,
    hquery, ?_, ?_⟩
  · rw [hquery, ← quotePath_join_iff, Except.ok.injEq, String.append_left_inj, String.append_right_inj]
  · rw [readsExpr_qualified_iff, String.toList_inj, quotePath_join_iff]

/-- A reference between a comparison of another table's column and one that is cut off. -/
theorem compile_quotedReference_sku :
    let sku : Attribute := ⟨"sku", 74, .static, .text, none⟩
    let c := Catalog.empty.putAttribute sku
    let f : Filter := ⟨"sku", .term, .one .null⟩
    c.plan f = .ok (.entityColumn sku) ∧
      IsQuotedReference .mysql "sku" "x.sku = 1 OR " " = 'a" "x.sku = 1 OR `sku` = 'a" ∧
      ∃ left right : String,
        c.compile .mysql (fun _ => "e") f false "x.sku = 1 OR " = .ok left ∧
        c.compile .mysql (fun _ => "e") f false " = 'a" = .ok right ∧
        c.compile .mysql (fun _ => "e") f false "x.sku = 1 OR `sku` = 'a" =
          .ok (left ++ Dialect.mysql.quotePath ("e" ++ "." ++ "sku") ++ right) ∧
        (c.compile .mysql (fun _ => "e") f false "x.sku = 1 OR `sku` = 'a" =
            .ok (left ++ (Dialect.mysql.quoteName "e" ++ "." ++ Dialect.mysql.quoteName "sku") ++ right) ↔
          '.' ∉ "e".toList ∧ '.' ∉ "sku".toList) ∧
        (ReadsExpr .mysql (.column (some "e") "sku") (Dialect.mysql.quotePath ("e" ++ "." ++ "sku")).toList [] ↔
          '.' ∉ "e".toList ∧ '.' ∉ "sku".toList) := by
  intro sku c f
  have hp : c.plan f = .ok (.entityColumn sku) := by rfl
  have href : IsQuotedReference .mysql "sku" "x.sku = 1 OR " " = 'a" "x.sku = 1 OR `sku` = 'a" :=
    ⟨show tokens _ _ = _ by decide +kernel, by decide, by decide⟩
  exact ⟨hp, href, compile_quotedReference_iff hp href (fun _ => "e") false⟩

/-- A code with a dot in it is taken apart, and what stands there is no column of the table. -/
theorem compile_dottedReference_ne :
    let a : Attribute := ⟨"a.b", 1, .static, .text, none⟩
    let c := Catalog.empty.putAttribute a
    let f : Filter := ⟨"a.b", .term, .one (.int 1)⟩
    c.plan f = .ok (.entityColumn a) ∧ IsQuotedReference .mysql a.code "" " = 1" "`a.b` = 1" ∧
      c.compile .mysql (fun _ => "t") f false "`a.b` = 1" = .ok "`t`.`a`.`b` = 1" ∧
      c.compile .mysql (fun _ => "t") f false "`a.b` = 1" ≠
        .ok (Dialect.mysql.quoteName "t" ++ "." ++ Dialect.mysql.quoteName a.code ++ " = 1") := by
  intro a c f
  have hp : c.plan f = .ok (.entityColumn a) := by rfl
  have hanchor : anchor .mysql a.code "t.a.b" "`a.b` = 1" = "`t`.`a`.`b` = 1" := by decide +kernel
  have hok : c.compile .mysql (fun _ => "t") f false "`a.b` = 1" = .ok "`t`.`a`.`b` = 1" := by
    rw [compile_entityColumn hp]
    exact congrArg Except.ok hanchor
  refine ⟨hp, ⟨show tokens _ _ = _ by decide +kernel, by decide, by decide⟩, hok, ?_⟩
  rw [hok]
  intro h
  exact absurd (Except.ok.inj h) (by decide +kernel)

end Catalog

end SearchFilter
