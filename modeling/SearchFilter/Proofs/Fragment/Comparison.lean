import SearchFilter.Proofs.Fragment.Failure
import SearchFilter.Proofs.Sql.RoundTrip
import SearchFilter.Proofs.Sql.Token

/-!
# Comparisons with terms read back

The fragment of a filter on options compares the value column of a joined table with the members
of the operand. Reading it gives these members, each text as it was, whatever quotes, commas and
brackets there are in them.
-/

namespace SearchFilter.Fragment
open SearchFilter.Query Sql

/-- A member of a comparison: the text of a literal, or a token as it stands. -/
inductive Member
  | text (s : String)
  | token (chars : List Char)
  deriving DecidableEq, Repr

inductive Members
  | one (m : Member)
  | set (ms : List Member)
  deriving DecidableEq, Repr

/-- `inStock` says whether the products must be in stock. -/
structure Comparison where
  tableAlias : String
  negated : Bool
  members : Members
  inStock : Bool
  deriving DecidableEq, Repr

def operator (isSet negated : Bool) : String :=
  if isSet then if negated then "NOT IN (" else "IN (" else if negated then "!= " else "= "

/-! ## Reading -/

def ReadsToken : Reading (List Char) := fun token cs rest =>
  token ≠ [] ∧ token = cs.takeWhile isTokenChar ∧ rest = cs.dropWhile isTokenChar

inductive ReadsMember (d : Dialect) : Reading Member
  | text {s : String} {cs rest : List Char} : ReadsText d s cs rest → ReadsMember d (.text s) cs rest
  | token {token cs rest : List Char} : ReadsToken token cs rest → ReadsMember d (.token token) cs rest

inductive ReadsMembers (d : Dialect) : Bool → Reading Members
  | one {negated : Bool} {m : Member} {cs rest : List Char} :
      Behind (operator false negated) (ReadsMember d) m cs rest → ReadsMembers d negated (.one m) cs rest
  | set {negated : Bool} {ms : List Member} {cs rest : List Char} :
      Behind (operator true negated) (Separated "," (ReadsMember d)) ms cs (')' :: rest) →
      ReadsMembers d negated (.set ms) cs rest

inductive ReadsComparison (d : Dialect) : Comparison → List Char → Prop
  | mk {tableAlias : String} {negated inStock : Bool} {members : Members} {text cs rest : List Char} :
      (∀ c ∈ tableAlias.toList, isWordChar c = true) → text = tableAlias.toList ++ (".value ".toList ++ cs) →
      ReadsMembers d negated members cs rest →
      rest = (if inStock then " AND " ++ tableAlias ++ "_stock.stock_status = 1" else "").toList →
      ReadsComparison d ⟨tableAlias, negated, members, inStock⟩ text

/-! ## Nothing is read in two ways -/

theorem ReadsToken.unique : Unique ReadsToken := by
  intro a b cs r s h k
  exact ⟨h.2.1.trans k.2.1.symm, h.2.2.trans k.2.2.symm⟩

theorem ReadsToken.head? {token cs rest : List Char} (h : ReadsToken token cs rest) :
    ∃ c ∈ cs.head?, isTokenChar c = true := by
  obtain ⟨hn, rfl, -⟩ := h
  cases cs with
  | nil => exact absurd rfl hn
  | cons c cs =>
    refine ⟨c, rfl, Classical.byContradiction fun hc => hn ?_⟩
    exact List.takeWhile_cons_of_neg hc

theorem not_readsToken_text {d : Dialect} {s : String} {token cs r rest : List Char} (ht : ReadsText d s cs r) :
    ¬ ReadsToken token cs rest := by
  intro h
  obtain ⟨c, hc, hk⟩ := h.head?
  cases ht
  cases hc
  exact absurd hk (by decide)

section
variable {d : Dialect}

theorem ReadsMember.unique : Unique (ReadsMember d) := by
  intro a b cs r s h k
  cases h with
  | text h =>
    cases k with
    | text k =>
      obtain ⟨rfl, rfl⟩ := h.unique k
      exact ⟨rfl, rfl⟩
    | token k => exact absurd k (not_readsToken_text h)
  | token h =>
    cases k with
    | text k => exact absurd h (not_readsToken_text k)
    | token k =>
      obtain ⟨rfl, rfl⟩ := h.unique k
      exact ⟨rfl, rfl⟩

theorem operator_inj {isSet isSet' negated negated' : Bool} {cs ds : List Char}
    (h : (operator isSet negated).toList ++ cs = (operator isSet' negated').toList ++ ds) :
    isSet = isSet' ∧ negated = negated' := by
  cases isSet <;> cases isSet' <;> cases negated <;> cases negated' <;>
    first | exact ⟨rfl, rfl⟩ | exact absurd h (by simp [operator])

theorem Behind.operator_inj {α β : Type} {read : Reading α} {read' : Reading β} {a : α} {b : β}
    {isSet isSet' negated negated' : Bool} {cs r s : List Char} (h : Behind (operator isSet negated) read a cs r)
    (k : Behind (operator isSet' negated') read' b cs s) : isSet = isSet' ∧ negated = negated' := by
  obtain ⟨_, rfl, -⟩ := h
  obtain ⟨_, he, -⟩ := k
  exact Fragment.operator_inj he

theorem ReadsMembers.unique {negated negated' : Bool} {a b : Members} {cs r s : List Char}
    (h : ReadsMembers d negated a cs r) (k : ReadsMembers d negated' b cs s) :
    negated = negated' ∧ a = b ∧ r = s := by
  cases h with
  | one h =>
    cases k with
    | one k =>
      obtain ⟨-, rfl⟩ := Behind.operator_inj h k
      obtain ⟨rfl, rfl⟩ := Behind.unique ReadsMember.unique h k
      exact ⟨rfl, rfl, rfl⟩
    | set k => cases (Behind.operator_inj h k).1
  | set h =>
    cases k with
    | one k => cases (Behind.operator_inj h k).1
    | set k =>
      obtain ⟨-, rfl⟩ := Behind.operator_inj h k
      obtain ⟨rfl, he⟩ := Behind.unique (Separated.unique ReadsMember.unique) h k
      exact ⟨rfl, rfl, (List.cons.inj he).2⟩

/-- The dot behind the alias is where its word ends. -/
theorem alias_inj {a b : String} {cs ds : List Char} (ha : ∀ c ∈ a.toList, isWordChar c = true)
    (hb : ∀ c ∈ b.toList, isWordChar c = true)
    (h : a.toList ++ (".value ".toList ++ cs) = b.toList ++ (".value ".toList ++ ds)) : a = b ∧ cs = ds := by
  have hw : ∀ {s : String} (es : List Char), (∀ c ∈ s.toList, isWordChar c = true) →
      (s.toList ++ (".value ".toList ++ es)).takeWhile isWordChar = s.toList := by
    intro s es hs
    rw [List.takeWhile_append_of_pos hs]
    exact List.append_right_eq_self.2 (List.takeWhile_cons_of_neg (by decide))
  have hab : a.toList = b.toList := by rw [← hw cs ha, h, hw ds hb]
  rw [hab] at h
  exact ⟨String.toList_inj.1 hab, List.append_cancel_left (List.append_cancel_left h)⟩

theorem ReadsComparison.unique {r s : Comparison} {text : List Char} (h : ReadsComparison d r text)
    (k : ReadsComparison d s text) : r = s := by
  cases h with
  | @mk _ _ inStock _ _ _ _ ha ht hm hr =>
    cases k with
    | @mk _ _ inStock' _ _ _ _ ka kt km kr =>
      obtain ⟨rfl, rfl⟩ := alias_inj ha ka (ht.symm.trans kt)
      obtain ⟨rfl, rfl, rfl⟩ := hm.unique km
      obtain rfl : inStock = inStock' := by
        rw [hr] at kr
        cases inStock <;> cases inStock' <;> first | rfl | exact absurd kr (by simp)
      rfl

end

/-! ## Reading what was written -/

def Member.ofValue (d : Dialect) : Value → Member
  | .text s => .text s
  | v => .token (d.quoteValue v).toList

def Members.ofOperand (d : Dialect) : Operand → Members
  | .one v => .one (.ofValue d v)
  | .set vs => .set (vs.map (Member.ofValue d))

def Member.written (d : Dialect) : Member → String
  | .text s => d.quoteValue (.text s)
  | .token chars => String.ofList chars

section
variable (d : Dialect) {rest : List Char}

theorem written_ofValue (v : Value) : (Member.ofValue d v).written d = d.quoteValue v := by
  cases v with
  | text s => rfl
  | _ => exact String.ofList_toList

theorem readsToken {token : List Char} (ht : IsToken token) (hr : ∀ c ∈ rest.head?, isTokenChar c = false) :
    ReadsToken token (token ++ rest) rest :=
  ⟨ht.1, run_append ht.2 hr⟩

theorem readsMember_written (v : Value) (hr : Continues exprEnd rest) :
    ReadsMember d (.ofValue d v) (((Member.ofValue d v).written d).toList ++ rest) rest := by
  rw [written_ofValue]
  have token (h : ∀ s, v ≠ .text s) : ReadsMember d (.token (d.quoteValue v).toList)
      ((d.quoteValue v).toList ++ rest) rest :=
    .token (readsToken (isToken_quoteValue d h) (hr.head?_not isTokenChar (by decide)))
  cases v with
  | text s => exact .text (readsText_quoteValue d s (hr.head?_ne (by decide)))
  | _ => exact token (by simp)

theorem not_readsMember_bracket {m : Member} {r : List Char} : ¬ ReadsMember d m (')' :: rest) r := by
  intro h
  cases h with
  | text h => cases h
  | token h =>
    obtain ⟨c, hc, ht⟩ := h.head?
    cases hc
    exact absurd ht (by decide)

theorem readsSet_written (vs : List Value) (rest : List Char) :
    Separated "," (ReadsMember d) (vs.map (Member.ofValue d))
      ((",".intercalate (vs.map d.quoteValue)).toList ++ ')' :: rest) (')' :: rest) := by
  have hr : Continues exprEnd (')' :: rest) := continues_of_mem ")" (by decide) rest
  have hw : vs.map d.quoteValue = (vs.map (Member.ofValue d)).map (Member.written d) := by
    simp [Function.comp_def, written_ofValue]
  rw [hw]
  cases vs with
  | nil => exact .nil fun ⟨_, _, h⟩ => not_readsMember_bracket d h
  | cons v vs =>
    have hread : ∀ m ∈ vs.map (Member.ofValue d), ∀ r, Continues exprEnd r →
        ReadsMember d m ((m.written d).toList ++ r) r := by
      intro m hm r hr'
      obtain ⟨w, -, rfl⟩ := List.mem_map.1 hm
      exact readsMember_written d w hr'
    obtain ⟨hc, hm⟩ := Many.of_separated (by decide : "," ∈ exprEnd) hr (by simp) hread
    rw [List.map_cons, List.map_cons, toList_intercalate_cons, List.flatMap_map, List.append_assoc]
    exact .cons (readsMember_written d v hc) hm

theorem readsMembers_comparison (negated : Bool) (operand : Operand) (hr : Continues exprEnd rest) :
    ReadsMembers d negated (.ofOperand d operand) ((comparison d negated operand).toList ++ rest) rest := by
  cases operand with
  | one v =>
    have h := behind_append (operator false negated) (readsMember_written d v hr)
    rw [written_ofValue] at h
    simpa [comparison, operator, Members.ofOperand] using ReadsMembers.one h
  | set vs =>
    have h := behind_append (operator true negated) (readsSet_written d vs rest)
    simpa [comparison, operator, Members.ofOperand] using ReadsMembers.set h

theorem readsComparison_terms {tableAlias : String} (ha : ∀ c ∈ tableAlias.toList, isWordChar c = true)
    (operand : Operand) (negated stocked : Bool) :
    ReadsComparison d ⟨tableAlias, negated, .ofOperand d operand, stocked⟩
      (if stocked then andInStock (terms d tableAlias operand negated) tableAlias
        else terms d tableAlias operand negated).toList := by
  have hd : (Value.int inStock).display = "1" := by decide
  cases stocked with
  | true =>
    have hr := continues_of_mem " " (by decide : " " ∈ exprEnd)
      ("AND ".toList ++ (tableAlias.toList ++ "_stock.stock_status = 1".toList))
    refine .mk ha ?_ (readsMembers_comparison d negated operand hr) ?_
    · simp [andInStock, terms, stockAlias, stockSuffix, hd]
    · simp
  | false =>
    have hr : Continues exprEnd [] := Or.inl rfl
    refine .mk ha ?_ (readsMembers_comparison d negated operand hr) rfl
    simp [terms]

end

section
variable {c : Catalog} {f : Filter} {a : Attribute} (hp : c.plan f = .ok (.chosenOption a))
  {aliasOf : Filter → String} (ha : ∀ x ∈ (aliasOf f).toList, isWordChar x = true)
include hp ha

/-- The fragment of a filter on options is read in exactly one way: the value column of the table
that the filter is joined as, the operator, the members in their order, and that the products be
in stock unless the catalog shows those that are not. -/
theorem chosenOption_reads_comparison (d : Dialect) (negated : Bool) (query : String) :
    ∃ text, c.compile d aliasOf f negated query = .ok text ∧
      ∀ r, ReadsComparison d r text.toList ↔
        r = ⟨aliasOf f, negated, .ofOperand d f.operand, decide (c.flags.get? showOutOfStock ≠ some true)⟩ := by
  have hstock : c.hidesOutOfStock = decide (c.flags.get? showOutOfStock ≠ some true) := by
    rw [Catalog.hidesOutOfStock, Catalog.flag]
    cases c.flags.get? showOutOfStock with
    | none => rfl
    | some b => cases b <;> rfl
  rw [← hstock]
  have h := readsComparison_terms d ha f.operand negated c.hidesOutOfStock
  refine ⟨_, c.compile_of_plan d aliasOf f negated query hp, fun r => ⟨fun hr => hr.unique h, ?_⟩⟩
  rintro rfl
  exact h

end

/-- Members that try to end their literals and the list, where products out of stock are hidden. -/
theorem chosenOption_reads_comparison_quotes :
    let c := Catalog.empty.putAttribute ⟨"color", 93, .int, .multiselect, none⟩
    let f : Filter := ⟨"color", .term, .set [.text "a','b", .text "\\') OR (", .int (-5), .null]⟩
    c.plan f = .ok (.chosenOption ⟨"color", 93, .int, .multiselect, none⟩) ∧
      (∀ x ∈ f.tableAlias.toList, isWordChar x = true) ∧
      ∃ text, c.compile .mysql Filter.tableAlias f true "" = .ok text ∧
        ∀ r, ReadsComparison .mysql r text.toList ↔
          r = ⟨"color_filter", true,
            .set [.text "a','b", .text "\\') OR (", .token "-5".toList, .token "NULL".toList], true⟩ := by
  intro c f
  have hp : c.plan f = .ok (.chosenOption ⟨"color", 93, .int, .multiselect, none⟩) := by rfl
  have ha : ∀ x ∈ f.tableAlias.toList, isWordChar x = true := List.all_eq_true.1 (by decide)
  have hr : (⟨f.tableAlias, true, .ofOperand .mysql f.operand,
      decide (c.flags.get? showOutOfStock ≠ some true)⟩ : Comparison) =
      ⟨"color_filter", true,
        .set [.text "a','b", .text "\\') OR (", .token "-5".toList, .token "NULL".toList], true⟩ := by
    decide +kernel
  refine ⟨hp, ha, ?_⟩
  rw [← hr]
  exact chosenOption_reads_comparison hp ha .mysql true ""

end SearchFilter.Fragment
