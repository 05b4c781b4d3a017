import SearchFilter.Proofs.Sql.Literal
import SearchFilter.Sql.Text

/-!
# Reading queries

Which query a text is, read from left to right: names by the rule of the dialect for quoted
names, literals by its rule for literals, and lists for as long as they go on. Nothing can be
read in two ways (`ReadsHead.unique`).
-/

namespace SearchFilter.Sql
open SearchFilter.Text SearchFilter.Query

/-- What is read, the text it is read from, and the text left behind it. -/
abbrev Reading (α : Type) := α → List Char → List Char → Prop

def Unique {α : Type} (read : Reading α) : Prop :=
  ∀ ⦃a b : α⦄ ⦃cs r s : List Char⦄, read a cs r → read b cs s → a = b ∧ r = s

/-! ## Words, names and texts -/

def isWordPart (c : Char) : Bool :=
  isWordChar c || c = '-'

inductive ReadsName (d : Dialect) : Reading String
  | mk {name : String} {cs rest : List Char} :
      unquote d.quote cs = ⟨name.toList, true, rest⟩ → ReadsName d name (d.quote :: cs) rest

inductive ReadsText (d : Dialect) : Reading String
  | mk {s : String} {cs rest : List Char} :
      textBody d cs = ⟨s.toList, true, rest⟩ → ReadsText d s ('\'' :: cs) rest

def ReadsWord : Reading (List Char) := fun word cs rest =>
  word ≠ [] ∧ word = cs.takeWhile isWordPart ∧ rest = cs.dropWhile isWordPart

theorem enclosed_inj {e : Enclosed} {a b : String} {r s : List Char} (h : e = ⟨a.toList, true, r⟩)
    (k : e = ⟨b.toList, true, s⟩) : a = b ∧ r = s := by
  rw [h] at k
  simp only [Enclosed.mk.injEq, true_and] at k
  exact ⟨String.toList_inj.1 k.1, k.2⟩

theorem ReadsName.unique {d : Dialect} : Unique (ReadsName d) := by
  intro a b cs r s h k
  cases h with
  | mk h =>
    cases k with
    | mk k => exact enclosed_inj h k

theorem ReadsText.unique {d : Dialect} : Unique (ReadsText d) := by
  intro a b cs r s h k
  cases h with
  | mk h =>
    cases k with
    | mk k => exact enclosed_inj h k

theorem ReadsWord.unique : Unique ReadsWord := by
  intro a b cs r s h k
  exact ⟨h.2.1.trans k.2.1.symm, h.2.2.trans k.2.2.symm⟩

/-! ## Expressions -/

mutual
inductive ReadsExpr (d : Dialect) : Expr → List Char → List Char → Prop
  | bare {name : String} {cs rest : List Char} :
      ReadsName d name cs rest → rest.head? ≠ some '.' → ReadsExpr d (.column none name) cs rest
  | qualified {qualifier name : String} {cs mid rest : List Char} :
      ReadsName d qualifier cs ('.' :: mid) → ReadsName d name mid rest →
      ReadsExpr d (.column (some qualifier) name) cs rest
  | text {s : String} {cs rest : List Char} : ReadsText d s cs rest → ReadsExpr d (.value (.text s)) cs rest
  | int {word cs rest : List Char} {n : Int64} :
      ReadsWord word cs rest → rest.head? ≠ some '(' → Numeral.readInt64? word = some n →
      ReadsExpr d (.value (.int n)) cs rest
  | null {cs rest : List Char} :
      ReadsWord "NULL".toList cs rest → rest.head? ≠ some '(' → ReadsExpr d (.value .null) cs rest
  | equal {left right : Expr} {cs mid rest : List Char} :
      ReadsExpr d left cs (' ' :: '=' :: ' ' :: mid) → ReadsExpr d right mid (')' :: rest) →
      ReadsExpr d (.equal left right) ('(' :: cs) rest
  | call {function : String} {args : List Expr} {cs mid rest : List Char} :
      ReadsWord function.toList cs ('(' :: mid) → ReadsArgs d args mid rest →
      ReadsExpr d (.call function args) cs rest

inductive ReadsArgs (d : Dialect) : List Expr → List Char → List Char → Prop
  | nil {rest : List Char} : ReadsArgs d [] (')' :: rest) rest
  | cons {e : Expr} {es : List Expr} {cs mid rest : List Char} :
      ReadsExpr d e cs mid → ReadsMoreArgs d es mid rest → ReadsArgs d (e :: es) cs rest

inductive ReadsMoreArgs (d : Dialect) : List Expr → List Char → List Char → Prop
  | nil {rest : List Char} : ReadsMoreArgs d [] (')' :: rest) rest
  | cons {e : Expr} {es : List Expr} {cs mid rest : List Char} :
      ReadsExpr d e cs mid → ReadsMoreArgs d es mid rest → ReadsMoreArgs d (e :: es) (',' :: ' ' :: cs) rest
end

/-! ## Lists and clauses -/

def Behind (keyword : String) {α : Type} (read : Reading α) : Reading α := fun a cs rest =>
  ∃ mid, cs = keyword.toList ++ mid ∧ read a mid rest

inductive Optional {α : Type} (read : Reading α) : Reading (Option α)
  | none {cs : List Char} : (¬ ∃ a r, read a cs r) → Optional read none cs cs
  | some {a : α} {cs rest : List Char} : read a cs rest → Optional read (some a) cs rest

inductive Many {α : Type} (read : Reading α) : Reading (List α)
  | nil {cs : List Char} : (¬ ∃ a r, read a cs r) → Many read [] cs cs
  | cons {a : α} {as : List α} {cs mid rest : List Char} :
      read a cs mid → Many read as mid rest → Many read (a :: as) cs rest

inductive Separated (separator : String) {α : Type} (read : Reading α) : Reading (List α)
  | nil {cs : List Char} : (¬ ∃ a r, read a cs r) → Separated separator read [] cs cs
  | cons {a : α} {as : List α} {cs mid rest : List Char} :
      read a cs mid → Many (Behind separator read) as mid rest → Separated separator read (a :: as) cs rest

/-! ## Queries -/

def ReadsLabel (d : Dialect) : Reading (Option String) :=
  Optional (Behind " AS " (ReadsName d))

def withLabel (e : Expr) : Option String → Expr
  | none => e
  | some label => .named e label

inductive ReadsColumn (d : Dialect) : Reading Expr
  | mk {e : Expr} {label : Option String} {cs mid rest : List Char} :
      ReadsExpr d e cs mid → ReadsLabel d label mid rest → ReadsColumn d (withLabel e label) cs rest

inductive ReadsTable (d : Dialect) : Reading Table
  | mk {name : String} {label : Option String} {cs mid rest : List Char} :
      ReadsName d name cs mid → ReadsLabel d label mid rest → ReadsTable d ⟨name, label⟩ cs rest

def conjunction (e : Expr) : List Expr → Expr
  | [] => e
  | es => .all (e :: es)

inductive ReadsCondition (d : Dialect) : Reading Expr
  | mk {e : Expr} {es : List Expr} {cs mid rest : List Char} :
      ReadsExpr d e cs mid → Many (Behind " AND " (ReadsExpr d)) es mid rest →
      ReadsCondition d (conjunction e es) cs rest

def joinKeyword : JoinKind → String
  | .inner => " INNER JOIN "
  | .left => " LEFT JOIN "

inductive ReadsJoin (d : Dialect) : Reading Join
  | mk {kind : JoinKind} {table : Table} {on : Expr} {cs mid rest : List Char} :
      Behind (joinKeyword kind) (ReadsTable d) table cs mid → Behind " ON " (ReadsCondition d) on mid rest →
      ReadsJoin d ⟨kind, table, on⟩ cs rest

inductive ReadsHead (d : Dialect) : Reading Select
  | mk {columns : List Expr} {source : Option Table} {joins : List Join} {condition : Option Expr}
      {cs cs₁ cs₂ cs₃ rest : List Char} :
      Behind "SELECT " (Separated ", " (ReadsColumn d)) columns cs cs₁ →
      Optional (Behind " FROM " (ReadsTable d)) source cs₁ cs₂ → Many (ReadsJoin d) joins cs₂ cs₃ →
      Optional (Behind " WHERE " (ReadsCondition d)) condition cs₃ rest →
      ReadsHead d ⟨columns, source, joins, condition, none⟩ cs rest

/-! ## Nothing is read in two ways -/

inductive Lead
  | quote
  | apostrophe
  | bracket
  | word

def leadOf (d : Dialect) (c : Char) : Option Lead :=
  if c = d.quote then some .quote
  else if c = '\'' then some .apostrophe
  else if c = '(' then some .bracket
  else if isWordPart c then some .word
  else none

def Expr.lead : Expr → Option Lead
  | .column _ _ => some .quote
  | .value (.text _) => some .apostrophe
  | .equal _ _ => some .bracket
  | .value _ => some .word
  | .call _ _ => some .word
  | _ => none

theorem leadOf_of_isWordPart (d : Dialect) {c : Char} (h : isWordPart c = true) : leadOf d c = some .word := by
  have hq : c ≠ d.quote := by
    rintro rfl
    revert h
    cases d <;> decide
  have ha : c ≠ '\'' := by rintro rfl; exact absurd h (by decide)
  have hb : c ≠ '(' := by rintro rfl; exact absurd h (by decide)
  rw [leadOf, if_neg hq, if_neg ha, if_neg hb, if_pos h]

theorem ReadsName.lead {d : Dialect} {name : String} {cs rest : List Char} (h : ReadsName d name cs rest) :
    cs.head?.bind (leadOf d) = some .quote := by
  cases h
  simp [leadOf]

theorem ReadsText.lead {d : Dialect} {s : String} {cs rest : List Char} (h : ReadsText d s cs rest) :
    cs.head?.bind (leadOf d) = some .apostrophe := by
  cases h
  cases d <;> rfl

theorem ReadsWord.lead (d : Dialect) {word cs rest : List Char} (h : ReadsWord word cs rest) :
    cs.head?.bind (leadOf d) = some .word := by
  obtain ⟨hn, rfl, -⟩ := h
  cases cs with
  | nil => exact absurd rfl hn
  | cons c cs =>
    by_cases hc : isWordPart c = true
    · exact leadOf_of_isWordPart d hc
    · exact absurd (List.takeWhile_cons_of_neg hc) hn

theorem ReadsExpr.lead {d : Dialect} {e : Expr} {cs rest : List Char} (h : ReadsExpr d e cs rest) :
    cs.head?.bind (leadOf d) = e.lead := by
  cases h with
  | bare h _ => exact h.lead
  | qualified h _ => exact h.lead
  | text h => exact h.lead
  | int h _ _ => exact h.lead d
  | null h _ => exact h.lead d
  | equal _ _ => cases d <;> rfl
  | call h _ => exact h.lead d

theorem leadOf_bracket (d : Dialect) : leadOf d ')' = none := by
  cases d <;> rfl

theorem leadOf_space (d : Dialect) : leadOf d ' ' = none := by
  cases d <;> rfl

theorem ReadsExpr.starts {d : Dialect} {e : Expr} {cs rest : List Char} (h : ReadsExpr d e cs rest) :
    cs.head?.bind (leadOf d) ≠ none := by
  rw [h.lead]
  intro hl
  cases h <;> cases hl

mutual
theorem ReadsExpr.unique {d : Dialect} {a b : Expr} {cs r s : List Char} (h : ReadsExpr d a cs r)
    (k : ReadsExpr d b cs s) : a = b ∧ r = s := by
  have hl : a.lead = b.lead := h.lead.symm.trans k.lead
  match h with
  | .bare hn hd =>
    cases k with
    | bare kn _ =>
      obtain ⟨rfl, rfl⟩ := hn.unique kn
      exact ⟨rfl, rfl⟩
    | qualified kq _ =>
      obtain ⟨-, rfl⟩ := hn.unique kq
      exact absurd rfl hd
    | _ => cases hl
  | .qualified hq hn =>
    cases k with
    | bare kn kd =>
      obtain ⟨-, rfl⟩ := hq.unique kn
      exact absurd rfl kd
    | qualified kq kn =>
      obtain ⟨rfl, hm⟩ := hq.unique kq
      cases hm
      obtain ⟨rfl, rfl⟩ := hn.unique kn
      exact ⟨rfl, rfl⟩
    | _ => cases hl
  | .text ht =>
    cases k with
    | text kt =>
      obtain ⟨rfl, rfl⟩ := ht.unique kt
      exact ⟨rfl, rfl⟩
    | _ => cases hl
  | .int hw hb hi =>
    cases k with
    | int kw _ ki =>
      obtain ⟨rfl, rfl⟩ := hw.unique kw
      rw [hi] at ki
      cases ki
      exact ⟨rfl, rfl⟩
    | null kw _ =>
      obtain ⟨rfl, -⟩ := hw.unique kw
      cases hi
    | call kw _ =>
      obtain ⟨-, rfl⟩ := hw.unique kw
      exact absurd rfl hb
    | _ => cases hl
  | .null hw hb =>
    cases k with
    | int kw _ ki =>
      obtain ⟨rfl, -⟩ := hw.unique kw
      cases ki
    | null kw _ => exact ⟨rfl, (hw.unique kw).2⟩
    | call kw _ =>
      obtain ⟨-, rfl⟩ := hw.unique kw
      exact absurd rfl hb
    | _ => cases hl
  | .equal hl' hr =>
    cases k with
    | equal kl kr =>
      obtain ⟨rfl, hm⟩ := hl'.unique kl
      cases hm
      obtain ⟨rfl, hm⟩ := hr.unique kr
      cases hm
      exact ⟨rfl, rfl⟩
    | _ => cases hl
  | .call hw ha =>
    cases k with
    | int kw kb _ =>
      obtain ⟨-, rfl⟩ := hw.unique kw
      exact absurd rfl kb
    | null kw kb =>
      obtain ⟨-, rfl⟩ := hw.unique kw
      exact absurd rfl kb
    | call kw ka =>
      obtain ⟨hf, hm⟩ := hw.unique kw
      cases hm
      obtain ⟨rfl, rfl⟩ := ha.unique ka
      rw [String.toList_inj.1 hf]
      exact ⟨rfl, rfl⟩
    | _ => cases hl

theorem ReadsArgs.unique {d : Dialect} {a b : List Expr} {cs r s : List Char} (h : ReadsArgs d a cs r)
    (k : ReadsArgs d b cs s) : a = b ∧ r = s := by
  match h with
  | .nil =>
    cases k with
    | nil => exact ⟨rfl, rfl⟩
    | cons ke _ => exact absurd (leadOf_bracket d) ke.starts
  | .cons he hs =>
    cases k with
    | nil => exact absurd (leadOf_bracket d) he.starts
    | cons ke ks =>
      obtain ⟨rfl, rfl⟩ := he.unique ke
      obtain ⟨rfl, rfl⟩ := hs.unique ks
      exact ⟨rfl, rfl⟩

theorem ReadsMoreArgs.unique {d : Dialect} {a b : List Expr} {cs r s : List Char} (h : ReadsMoreArgs d a cs r)
    (k : ReadsMoreArgs d b cs s) : a = b ∧ r = s := by
  match h with
  | .nil =>
    cases k with
    | nil => exact ⟨rfl, rfl⟩
  | .cons he hs =>
    cases k with
    | cons ke ks =>
      obtain ⟨rfl, rfl⟩ := he.unique ke
      obtain ⟨rfl, rfl⟩ := hs.unique ks
      exact ⟨rfl, rfl⟩
end

section
variable {α : Type} {read : Reading α} (hu : Unique read)
include hu

theorem Behind.unique {keyword : String} : Unique (Behind keyword read) := by
  intro a b cs r s h k
  obtain ⟨mid, rfl, h⟩ := h
  obtain ⟨mid', he, k⟩ := k
  rw [List.append_cancel_left he] at h
  exact hu h k

theorem Optional.unique : Unique (Optional read) := by
  intro a b cs r s h k
  cases h with
  | none hn =>
    cases k with
    | none _ => exact ⟨rfl, rfl⟩
    | some k => exact absurd ⟨_, _, k⟩ hn
  | some h =>
    cases k with
    | none hn => exact absurd ⟨_, _, h⟩ hn
    | some k =>
      obtain ⟨rfl, rfl⟩ := hu h k
      exact ⟨rfl, rfl⟩

theorem Many.unique : Unique (Many read) := by
  intro a b cs r s h k
  induction h generalizing b with
  | nil hn =>
    cases k with
    | nil _ => exact ⟨rfl, rfl⟩
    | cons k _ => exact absurd ⟨_, _, k⟩ hn
  | cons h _ ih =>
    cases k with
    | nil hn => exact absurd ⟨_, _, h⟩ hn
    | cons k ks =>
      obtain ⟨rfl, rfl⟩ := hu h k
      obtain ⟨rfl, rfl⟩ := ih ks
      exact ⟨rfl, rfl⟩

theorem Separated.unique {separator : String} : Unique (Separated separator read) := by
  intro a b cs r s h k
  cases h with
  | nil hn =>
    cases k with
    | nil _ => exact ⟨rfl, rfl⟩
    | cons k _ => exact absurd ⟨_, _, k⟩ hn
  | cons h hs =>
    cases k with
    | nil hn => exact absurd ⟨_, _, h⟩ hn
    | cons k ks =>
      obtain ⟨rfl, rfl⟩ := hu h k
      obtain ⟨rfl, rfl⟩ := Many.unique (Behind.unique hu) hs ks
      exact ⟨rfl, rfl⟩

end

section
variable {d : Dialect}

theorem ReadsExpr.isUnique : Unique (ReadsExpr d) := fun _ _ _ _ _ h k => h.unique k

theorem ReadsLabel.unique : Unique (ReadsLabel d) := Optional.unique (Behind.unique ReadsName.unique)

theorem ReadsColumn.unique : Unique (ReadsColumn d) := by
  intro a b cs r s h k
  cases h with
  | mk he hl =>
    cases k with
    | mk ke kl =>
      obtain ⟨rfl, rfl⟩ := he.unique ke
      obtain ⟨rfl, rfl⟩ := ReadsLabel.unique hl kl
      exact ⟨rfl, rfl⟩

theorem ReadsTable.unique : Unique (ReadsTable d) := by
  intro a b cs r s h k
  cases h with
  | mk hn hl =>
    cases k with
    | mk kn kl =>
      obtain ⟨rfl, rfl⟩ := hn.unique kn
      obtain ⟨rfl, rfl⟩ := ReadsLabel.unique hl kl
      exact ⟨rfl, rfl⟩

theorem ReadsCondition.unique : Unique (ReadsCondition d) := by
  intro a b cs r s h k
  cases h with
  | mk he hs =>
    cases k with
    | mk ke ks =>
      obtain ⟨rfl, rfl⟩ := he.unique ke
      obtain ⟨rfl, rfl⟩ := Many.unique (Behind.unique ReadsExpr.isUnique) hs ks
      exact ⟨rfl, rfl⟩

theorem joinKeyword_eq {i j : JoinKind} {cs ds : List Char}
    (h : (joinKeyword i).toList ++ cs = (joinKeyword j).toList ++ ds) : i = j := by
  cases i <;> cases j <;> first | rfl | exact absurd h (by simp [joinKeyword])

theorem ReadsJoin.unique : Unique (ReadsJoin d) := by
  intro a b cs r s h k
  cases h with
  | @mk i _ _ _ _ _ ht hc =>
    cases k with
    | @mk j _ _ _ _ _ kt kc =>
      have hij : i = j := by
        obtain ⟨_, rfl, -⟩ := ht
        obtain ⟨_, he, -⟩ := kt
        exact joinKeyword_eq he
      subst hij
      obtain ⟨rfl, rfl⟩ := Behind.unique ReadsTable.unique ht kt
      obtain ⟨rfl, rfl⟩ := Behind.unique ReadsCondition.unique hc kc
      exact ⟨rfl, rfl⟩

theorem ReadsHead.unique : Unique (ReadsHead d) := by
  intro a b cs r s h k
  cases h with
  | mk h₁ h₂ h₃ h₄ =>
    cases k with
    | mk k₁ k₂ k₃ k₄ =>
      obtain ⟨rfl, rfl⟩ := Behind.unique (Separated.unique ReadsColumn.unique) h₁ k₁
      obtain ⟨rfl, rfl⟩ := Optional.unique (Behind.unique ReadsTable.unique) h₂ k₂
      obtain ⟨rfl, rfl⟩ := Many.unique ReadsJoin.unique h₃ k₃
      obtain ⟨rfl, rfl⟩ := Optional.unique (Behind.unique ReadsCondition.unique) h₄ k₄
      exact ⟨rfl, rfl⟩

end

end SearchFilter.Sql
