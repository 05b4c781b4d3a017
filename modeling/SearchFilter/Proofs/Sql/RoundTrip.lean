import SearchFilter.Proofs.Query.Path
import SearchFilter.Proofs.Sql.Reading

/-!
# Reading what was written

A query made of names, values, equalities and calls reads back from its text, whatever names and
texts there are in it, as long as what follows cannot be taken for a part of it.
-/

namespace SearchFilter.Sql
open SearchFilter.Text SearchFilter.Query

mutual
def Expr.isPlain : Expr → Bool
  | .column _ _ => true
  | .value (.int _) => true
  | .value (.text _) => true
  | .value .null => true
  | .equal left right => left.isPlain && right.isPlain
  | .call function args => function.toList ≠ [] && function.toList.all isWordChar && arePlain args
  | _ => false

def arePlain : List Expr → Bool
  | [] => true
  | e :: es => e.isPlain && arePlain es
end

def Expr.isColumn : Expr → Bool
  | .named e _ => e.isPlain
  | e => e.isPlain

def Expr.isCondition : Expr → Bool
  | .all (e :: f :: es) => arePlain (e :: f :: es)
  | e => e.isPlain

def Select.isPlain (s : Select) : Bool :=
  s.columns.all Expr.isColumn && s.joins.all (fun j => j.on.isCondition) && s.condition.all Expr.isCondition

/-! ## How a text goes on -/

def Continues (words : List String) (rest : List Char) : Prop :=
  rest = [] ∨ ∃ word ∈ words, word.toList <+: rest

/-- No text begins both with this word and with one of the others. -/
def apart (words : List String) (word : String) : Bool :=
  word.toList ≠ [] && words.all fun w => !w.toList.isPrefixOf word.toList && !word.toList.isPrefixOf w.toList

def refines (words others : List String) : Bool :=
  words.all fun w => others.any fun o => o.toList.isPrefixOf w.toList

theorem Continues.not_prefix {words : List String} {rest : List Char} (h : Continues words rest) {word : String}
    (ha : apart words word = true) : ¬ word.toList <+: rest := by
  intro hp
  simp only [apart, Bool.and_eq_true, decide_eq_true_eq, List.all_eq_true, Bool.not_eq_true',
    Bool.eq_false_iff, ne_eq, List.isPrefixOf_iff_prefix] at ha
  obtain ⟨hn, hw⟩ := ha
  rcases h with rfl | ⟨w, hm, hwp⟩
  · exact hn (List.prefix_nil.1 hp)
  · rcases List.prefix_or_prefix_of_prefix hwp hp with hl | hr
    · exact (hw w hm).1 hl
    · exact (hw w hm).2 hr

theorem Continues.mono {words others : List String} {rest : List Char} (h : Continues words rest)
    (hr : refines words others = true) : Continues others rest := by
  rcases h with rfl | ⟨w, hm, hp⟩
  · exact Or.inl rfl
  · simp only [refines, List.all_eq_true, List.any_eq_true, List.isPrefixOf_iff_prefix] at hr
    obtain ⟨o, ho, hop⟩ := hr w hm
    exact Or.inr ⟨o, ho, hop.trans hp⟩

theorem continues_of_mem {words : List String} (word : String) (h : word ∈ words) (cs : List Char) :
    Continues words (word.toList ++ cs) :=
  Or.inr ⟨word, h, List.prefix_append _ _⟩

theorem Continues.cons {words : List String} {rest : List Char} (h : Continues words rest) (word : String) :
    Continues (word :: words) rest := by
  rcases h with rfl | ⟨w, hm, hp⟩
  · exact Or.inl rfl
  · exact Or.inr ⟨w, List.mem_cons_of_mem word hm, hp⟩

def exprEnd : List String := [" ", ",", ")"]

theorem Continues.head?_ne {rest : List Char} (h : Continues exprEnd rest) {c : Char}
    (hc : c ≠ ' ' ∧ c ≠ ',' ∧ c ≠ ')') : rest.head? ≠ some c := by
  intro hr
  rcases h with rfl | ⟨w, hm, hp⟩
  · cases hr
  · obtain ⟨cs, rfl⟩ := hp
    simp only [exprEnd, List.mem_cons, List.not_mem_nil, or_false] at hm
    rcases hm with rfl | rfl | rfl
    · exact hc.1 (Option.some.inj hr).symm
    · exact hc.2.1 (Option.some.inj hr).symm
    · exact hc.2.2 (Option.some.inj hr).symm

/-! ## Names, texts and words -/

section
variable (d : Dialect) {rest : List Char}

theorem readsName_iff (name : String) (cs : List Char) :
    ReadsName d name cs rest ↔ cs = (d.quoteName name).toList ++ rest ∧ rest.head? ≠ some d.quote := by
  constructor
  · intro h
    cases h with
    | mk h => exact (unquote_eq_iff d name _ rest).1 h
  · intro ⟨htext, hrest⟩
    rw [toList_quoteName, List.cons_append] at htext
    rw [htext]
    refine .mk ((unquote_eq_iff d name _ rest).2 ⟨?_, hrest⟩)
    rw [toList_quoteName, List.cons_append]

theorem readsName_quoteName (name : String) (hr : rest.head? ≠ some d.quote) :
    ReadsName d name ((d.quoteName name).toList ++ rest) rest :=
  (readsName_iff d name _).2 ⟨rfl, hr⟩

theorem readsText_quoteValue (s : String) (hr : rest.head? ≠ some '\'') :
    ReadsText d s ((d.quoteValue (.text s)).toList ++ rest) rest := by
  rw [toList_quoteValue, List.cons_append, List.append_assoc]
  exact .mk (textBody_written d s.toList hr)

theorem readsWord {word : List Char} (hn : word ≠ []) (hw : ∀ c ∈ word, isWordPart c = true)
    (hr : ∀ c ∈ rest.head?, isWordPart c = false) : ReadsWord word (word ++ rest) rest :=
  ⟨hn, run_append hw hr⟩

theorem Continues.head?_not (h : Continues exprEnd rest) (p : Char → Bool)
    (hp : p ' ' = false ∧ p ',' = false ∧ p ')' = false) : ∀ c ∈ rest.head?, p c = false := by
  intro c hc
  refine Bool.eq_false_iff.2 fun ht => h.head?_ne ⟨?_, ?_, ?_⟩ hc
  · rintro rfl; rw [hp.1] at ht; cases ht
  · rintro rfl; rw [hp.2.1] at ht; cases ht
  · rintro rfl; rw [hp.2.2] at ht; cases ht

theorem Continues.not_wordPart (h : Continues exprEnd rest) : ∀ c ∈ rest.head?, isWordPart c = false :=
  h.head?_not isWordPart (by decide)

theorem Continues.not_quote (h : Continues exprEnd rest) : rest.head? ≠ some d.quote :=
  h.head?_ne (by cases d <;> decide)

theorem isWordPart_of_isDigit {c : Char} (h : c.isDigit = true) : isWordPart c = true := by
  have hn : c.toNat < 0x80 := by
    have h₁ := (Char.isDigit_iff_toNat.1 h).2
    have h₂ : '9'.toNat = 57 := rfl
    omega
  simp [isWordPart, isWordChar, isAlphanumeric_ascii hn, Char.isAlphanum, h]

/-! ## Expressions -/

/-- What a qualified column alone is read from. -/
theorem readsExpr_qualified_iff (qualifier name : String) (cs : List Char) :
    ReadsExpr d (.column (some qualifier) name) cs [] ↔
      cs = (d.quoteName qualifier ++ "." ++ d.quoteName name).toList := by
  constructor
  · intro h
    cases h with
    | qualified hq hn =>
      obtain ⟨rfl, -⟩ := (readsName_iff d qualifier _).1 hq
      obtain ⟨rfl, -⟩ := (readsName_iff d name _).1 hn
      simp
  · intro h
    have hdot : ('.' :: (d.quoteName name).toList).head? ≠ some d.quote := fun he =>
      dot_ne_quote d (Option.some.inj he)
    have hq : ReadsName d qualifier cs ('.' :: (d.quoteName name).toList) :=
      (readsName_iff d qualifier _).2 ⟨by simp [h], hdot⟩
    have hn : ReadsName d name (d.quoteName name).toList [] :=
      (readsName_iff d name _).2 ⟨by simp, by simp⟩
    exact .qualified hq hn

theorem toList_intercalate_cons (separator s : String) (ss : List String) :
    (separator.intercalate (s :: ss)).toList = s.toList ++ ss.flatMap fun t => separator.toList ++ t.toList := by
  induction ss generalizing s with
  | nil => simp
  | cons t ss ih => simp [ih, List.append_assoc]

theorem toList_quoteValue_int (n : Int64) : (d.quoteValue (.int n)).toList = (Numeral.ofInt n.toInt).text := by
  show (String.ofList (Numeral.ofInt n.toInt).text).toList = _
  rw [String.toList_ofList]

/-- An argument of a call is followed by a comma or by the bracket. -/
theorem continues_texts (es : List Expr) (rest : List Char) :
    Continues exprEnd (((texts d es).flatMap fun t => ", ".toList ++ t.toList) ++ ')' :: rest) := by
  cases es with
  | nil => exact continues_of_mem ")" (by decide) rest
  | cons e es =>
    rw [texts, List.flatMap_cons, List.append_assoc, List.append_assoc]
    exact continues_of_mem "," (by decide) (' ' :: _)

theorem texts_eq_map (es : List Expr) : texts d es = es.map (Expr.text d) := by
  induction es with
  | nil => rfl
  | cons e es ih => rw [texts, ih, List.map_cons]

mutual
theorem readsExpr_text (e : Expr) (he : e.isPlain = true) {rest : List Char} (hr : Continues exprEnd rest) :
    ReadsExpr d e ((e.text d).toList ++ rest) rest := by
  match e with
  | .column none name =>
    exact .bare (readsName_quoteName d name (hr.not_quote d)) (hr.head?_ne (by decide))
  | .column (some qualifier) name =>
    simp only [Expr.text, String.toList_append, List.append_assoc]
    refine .qualified (readsName_quoteName d qualifier ?_) (readsName_quoteName d name (hr.not_quote d))
    exact fun h => dot_ne_quote d (Option.some.inj h)
  | .value (.int n) =>
    rw [Expr.text, toList_quoteValue_int]
    have hw : ∀ c ∈ (Numeral.ofInt n.toInt).text, isWordPart c = true := by
      intro c hc
      rcases Numeral.mem_text_ofInt hc with rfl | hc
      · decide
      · exact isWordPart_of_isDigit hc
    exact .int (readsWord (Numeral.text_ofInt_ne_nil n.toInt) hw hr.not_wordPart) (hr.head?_ne (by decide))
      (Numeral.readInt64?_ofInt n)
  | .value (.text s) => exact .text (readsText_quoteValue d s (hr.head?_ne (by decide)))
  | .value .null =>
    have hw : "NULL".toList.all isWordPart = true := by decide
    exact .null (readsWord (by decide) (List.all_eq_true.1 hw) hr.not_wordPart) (hr.head?_ne (by decide))
  | .equal left right =>
    simp only [Expr.isPlain, Bool.and_eq_true] at he
    simp only [Expr.text, String.toList_append, List.append_assoc]
    refine .equal (readsExpr_text left he.1 ?_) (readsExpr_text right he.2 ?_)
    · exact continues_of_mem " " (by decide) _
    · exact continues_of_mem ")" (by decide) _
  | .call function args =>
    simp only [Expr.isPlain, Bool.and_eq_true, decide_eq_true_eq, List.all_eq_true] at he
    simp only [Expr.text, String.toList_append, List.append_assoc]
    refine .call (readsWord he.1.1 (fun c hc => ?_) ?_) (readsArgs_texts args he.2 rest)
    · simp [isWordPart, he.1.2 c hc]
    · intro c hc
      cases hc
      decide

theorem readsArgs_texts (es : List Expr) (he : arePlain es = true) (rest : List Char) :
    ReadsArgs d es ((", ".intercalate (texts d es)).toList ++ ')' :: rest) rest := by
  match es with
  | [] => exact .nil
  | e :: es =>
    simp only [arePlain, Bool.and_eq_true] at he
    rw [texts, toList_intercalate_cons, List.append_assoc]
    exact .cons (readsExpr_text e he.1 (continues_texts d es rest)) (readsMoreArgs_texts es he.2 rest)

theorem readsMoreArgs_texts (es : List Expr) (he : arePlain es = true) (rest : List Char) :
    ReadsMoreArgs d es (((texts d es).flatMap fun t => ", ".toList ++ t.toList) ++ ')' :: rest) rest := by
  match es with
  | [] => exact .nil
  | e :: es =>
    simp only [arePlain, Bool.and_eq_true] at he
    rw [texts, List.flatMap_cons, List.append_assoc, List.append_assoc]
    exact .cons (readsExpr_text e he.1 (continues_texts d es rest)) (readsMoreArgs_texts es he.2 rest)
end

end

/-! ## Lists and clauses -/

theorem behind_append (keyword : String) {α : Type} {read : Reading α} {a : α} {cs rest : List Char}
    (h : read a cs rest) : Behind keyword read a (keyword.toList ++ cs) rest :=
  ⟨cs, rfl, h⟩

theorem not_behind {keyword : String} {α : Type} {read : Reading α} {cs : List Char}
    (h : ¬ keyword.toList <+: cs) : ¬ ∃ a r, Behind keyword read a cs r := by
  rintro ⟨a, r, mid, rfl, -⟩
  exact h (List.prefix_append _ _)

section
variable {α : Type} {read : Reading α} {words : List String} {rest : List Char}

theorem Many.of_flatMap {text : α → List Char} {as : List α} (hr : Continues words rest)
    (hend : ¬ ∃ a r, read a rest r) (htext : ∀ a ∈ as, ∀ r, Continues words (text a ++ r))
    (hread : ∀ a ∈ as, ∀ r, Continues words r → read a (text a ++ r) r) :
    Continues words (as.flatMap text ++ rest) ∧ Many read as (as.flatMap text ++ rest) rest := by
  induction as with
  | nil => exact ⟨hr, .nil hend⟩
  | cons a as ih =>
    obtain ⟨hc, hm⟩ := ih (fun b hb => htext b (List.mem_cons_of_mem a hb))
      (fun b hb => hread b (List.mem_cons_of_mem a hb))
    rw [List.flatMap_cons, List.append_assoc]
    exact ⟨htext a List.mem_cons_self _, .cons (hread a List.mem_cons_self _ hc) hm⟩

theorem Many.of_separated {separator : String} {text : α → String} {as : List α} (hs : separator ∈ words)
    (hr : Continues words rest) (hend : ¬ separator.toList <+: rest)
    (hread : ∀ a ∈ as, ∀ r, Continues words r → read a ((text a).toList ++ r) r) :
    Continues words ((as.flatMap fun a => separator.toList ++ (text a).toList) ++ rest) ∧
      Many (Behind separator read) as ((as.flatMap fun a => separator.toList ++ (text a).toList) ++ rest) rest := by
  refine Many.of_flatMap hr (not_behind hend) ?_ ?_
  · intro a _ r
    rw [List.append_assoc]
    exact continues_of_mem separator hs _
  · intro a ha r hr'
    rw [List.append_assoc]
    exact behind_append separator (hread a ha r hr')

theorem Optional.of_clause {keyword : String} {text : α → String} {a? : Option α} (hend : ¬ keyword.toList <+: rest)
    (hread : ∀ a ∈ a?, read a ((text a).toList ++ rest) rest) :
    Optional (Behind keyword read) a? ((clause keyword (a?.map text)).toList ++ rest) rest := by
  cases a? with
  | none => exact .none (not_behind hend)
  | some a =>
    rw [Option.map_some, clause, String.toList_append, List.append_assoc]
    exact .some (behind_append keyword (hread a rfl))

theorem continues_clause (keyword : String) (text? : Option String) (hr : Continues words rest) :
    Continues (keyword :: words) ((clause keyword text?).toList ++ rest) := by
  cases text? with
  | none => exact hr.cons keyword
  | some text =>
    rw [clause, String.toList_append, List.append_assoc]
    exact continues_of_mem keyword List.mem_cons_self _

end

/-! ## Queries -/

def partEnd : List String :=
  [", ", " FROM ", " INNER JOIN ", " LEFT JOIN ", " ON ", " WHERE ", " HAVING ", ")"]

def headEnd : List String := [" HAVING ", ")"]

section
variable (d : Dialect) {rest : List Char}

theorem readsLabel_clause (label : Option String) (hr : Continues partEnd rest) :
    ReadsLabel d label ((clause " AS " (label.map d.quoteName)).toList ++ rest) rest :=
  Optional.of_clause (hr.not_prefix (by decide)) fun name _ =>
    readsName_quoteName d name ((hr.mono (by decide)).not_quote d)

theorem continues_label (label : Option String) (hr : Continues partEnd rest) :
    Continues exprEnd ((clause " AS " (label.map d.quoteName)).toList ++ rest) :=
  (continues_clause " AS " _ hr).mono (by decide)

theorem readsColumn_text {e : Expr} (he : e.isColumn = true) (hr : Continues partEnd rest) :
    ReadsColumn d e ((e.text d).toList ++ rest) rest := by
  by_cases hn : ∃ f label, e = .named f label
  · obtain ⟨f, label, rfl⟩ := hn
    have hf : f.isPlain = true := he
    have hl := readsLabel_clause d (some label) hr
    have hc := continues_label d (some label) hr
    have h := ReadsColumn.mk (readsExpr_text d f hf hc) hl
    simpa [Expr.text, clause, withLabel] using h
  · have hp : e.isPlain = true := by
      cases e with
      | named f label => exact absurd ⟨f, label, rfl⟩ hn
      | _ => exact he
    exact ReadsColumn.mk (readsExpr_text d e hp (continues_label d none hr)) (readsLabel_clause d none hr)

theorem readsTable_text (t : Table) (hr : Continues partEnd rest) :
    ReadsTable d t ((t.text d).toList ++ rest) rest := by
  obtain ⟨name, label⟩ := t
  have ht : (Table.text d ⟨name, label⟩).toList =
      (d.quoteName name).toList ++ (clause " AS " (label.map d.quoteName)).toList := by
    cases label with
    | none => simp [Table.text, clause]
    | some label => simp [Table.text, clause]
  rw [ht, List.append_assoc]
  exact .mk (readsName_quoteName d name ((continues_label d label hr).not_quote d)) (readsLabel_clause d label hr)

theorem Continues.head?_bind (hr : Continues [" ", ")"] rest) : rest.head?.bind (leadOf d) = none := by
  rcases hr with rfl | ⟨w, hm, ⟨cs, rfl⟩⟩
  · rfl
  · simp only [List.mem_cons, List.not_mem_nil, or_false] at hm
    rcases hm with rfl | rfl
    · exact leadOf_space d
    · exact leadOf_bracket d

theorem isPlain_of_mem {es : List Expr} (h : arePlain es = true) : ∀ e ∈ es, e.isPlain = true := by
  induction es with
  | nil => intro e he; cases he
  | cons f es ih =>
    simp only [arePlain, Bool.and_eq_true] at h
    intro e he
    rcases List.mem_cons.1 he with rfl | he
    · exact h.1
    · exact ih h.2 e he

theorem readsConjunction_texts {e : Expr} {es : List Expr} (h : arePlain (e :: es) = true)
    (hr : Continues partEnd rest) :
    ReadsCondition d (conjunction e es) ((" AND ".intercalate (texts d (e :: es))).toList ++ rest) rest := by
  have hes := isPlain_of_mem h
  obtain ⟨hc, hm⟩ := Many.of_separated (List.mem_cons_self : " AND " ∈ " AND " :: partEnd) (hr.cons " AND ")
    (hr.not_prefix (by decide)) fun f (hf : f ∈ es) r hr' =>
      readsExpr_text d f (hes f (List.mem_cons_of_mem e hf)) (hr'.mono (by decide))
  rw [texts, toList_intercalate_cons, texts_eq_map, List.flatMap_map, List.append_assoc]
  exact .mk (readsExpr_text d e (hes e List.mem_cons_self) (hc.mono (by decide))) hm

theorem readsCondition_text {e : Expr} (he : e.isCondition = true) (hr : Continues partEnd rest) :
    ReadsCondition d e ((e.text d).toList ++ rest) rest := by
  by_cases hn : ∃ f g es, e = .all (f :: g :: es)
  · obtain ⟨f, g, es, rfl⟩ := hn
    exact readsConjunction_texts d he hr
  · have hp : arePlain [e] = true := by
      unfold Expr.isCondition at he
      split at he
      · rename_i f g es
        exact absurd ⟨f, g, es, rfl⟩ hn
      · simp [arePlain, he]
    have h := readsConjunction_texts d hp hr
    simpa [texts, conjunction] using h

theorem toList_text_join (j : Join) : (" " ++ j.text d).toList =
    (joinKeyword j.kind).toList ++ ((j.table.text d).toList ++ (" ON ".toList ++ (j.on.text d).toList)) := by
  obtain ⟨kind, table, on⟩ := j
  cases kind <;> simp [Join.text, JoinKind.text, joinKeyword]

theorem readsJoin_text {j : Join} (hj : j.on.isCondition = true) (hr : Continues partEnd rest) :
    ReadsJoin d j ((" " ++ j.text d).toList ++ rest) rest := by
  rw [toList_text_join, List.append_assoc, List.append_assoc, List.append_assoc]
  refine .mk (behind_append _ (readsTable_text d j.table ?_)) (behind_append " ON " (readsCondition_text d hj hr))
  exact continues_of_mem " ON " (by decide) _

theorem readsJoins_texts {joins : List Join} (hj : ∀ j ∈ joins, j.on.isCondition = true)
    (hr : Continues (" WHERE " :: headEnd) rest) :
    Continues (" INNER JOIN " :: " LEFT JOIN " :: " WHERE " :: headEnd)
        ((String.join (joins.map fun j => " " ++ j.text d)).toList ++ rest) ∧
      Many (ReadsJoin d) joins ((String.join (joins.map fun j => " " ++ j.text d)).toList ++ rest) rest := by
  rw [String.toList_join, List.flatMap_map]
  refine Many.of_flatMap (hr.mono (by decide)) ?_ ?_ ?_
  · rintro ⟨j, r, h⟩
    cases h with
    | @mk kind _ _ _ _ _ ht _ =>
      cases kind with
      | inner => exact not_behind (hr.not_prefix (by decide)) ⟨_, _, ht⟩
      | left => exact not_behind (hr.not_prefix (by decide)) ⟨_, _, ht⟩
  · intro j _ r
    rw [toList_text_join, List.append_assoc]
    refine continues_of_mem _ ?_ _
    cases j.kind <;> decide
  · intro j hm r hr'
    exact readsJoin_text d (hj j hm) (hr'.mono (by decide))

theorem readsColumns_texts {columns : List Expr} (hc : ∀ e ∈ columns, e.isColumn = true)
    (hr : Continues (" FROM " :: " INNER JOIN " :: " LEFT JOIN " :: " WHERE " :: headEnd) rest) :
    Separated ", " (ReadsColumn d) columns ((", ".intercalate (texts d columns)).toList ++ rest) rest := by
  cases columns with
  | nil =>
    refine .nil ?_
    rintro ⟨e, r, h⟩
    cases h with
    | mk he _ => exact he.starts (Continues.head?_bind d (hr.mono (by decide)))
  | cons e es =>
    have hp : Continues partEnd rest := hr.mono (by decide)
    obtain ⟨hcs, hm⟩ := Many.of_separated (by decide : ", " ∈ partEnd) hp (hr.not_prefix (by decide))
      fun f (hf : f ∈ es) r hr' => readsColumn_text d (hc f (List.mem_cons_of_mem e hf)) hr'
    rw [texts, toList_intercalate_cons, texts_eq_map, List.flatMap_map, List.append_assoc]
    exact .cons (readsColumn_text d (hc e List.mem_cons_self) hcs) hm

theorem readsHead_text {s : Select} (hs : s.isPlain = true) (hn : s.having = none) (hr : Continues headEnd rest) :
    ReadsHead d s ((s.text d).toList ++ rest) rest := by
  obtain ⟨columns, source, joins, condition, having⟩ := s
  obtain rfl : having = none := hn
  simp only [Select.isPlain, Bool.and_eq_true, List.all_eq_true, Option.all_eq_true] at hs
  obtain ⟨⟨hcolumns, hjoins⟩, hcondition⟩ := hs
  -- each clause is read before what the clauses behind it make of the rest
  have hr₃ := continues_clause " WHERE " (condition.map (Expr.text d)) hr
  have h₃ : Optional (Behind " WHERE " (ReadsCondition d)) condition _ rest :=
    Optional.of_clause (hr.not_prefix (by decide)) fun e he =>
      readsCondition_text d (hcondition e he) (hr.mono (by decide))
  obtain ⟨hr₂, h₂⟩ := readsJoins_texts d hjoins hr₃
  have hr₁ := continues_clause " FROM " (source.map (Table.text d)) hr₂
  have h₁ : Optional (Behind " FROM " (ReadsTable d)) source _ _ :=
    Optional.of_clause (hr₂.not_prefix (by decide)) fun t _ => readsTable_text d t (hr₂.mono (by decide))
  have h₀ := behind_append "SELECT " (readsColumns_texts d hcolumns hr₁)
  simpa [Select.text, clause] using ReadsHead.mk h₀ h₁ h₂ h₃

end

end SearchFilter.Sql
