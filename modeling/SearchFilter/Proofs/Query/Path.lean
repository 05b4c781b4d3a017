import SearchFilter.Proofs.Query.Fitting

/-!
# Quoted names and paths read back

Writing a name and reading a quoted name are inverse to each other, and a path is read as its names
with one dot between each two (`tokens_quotePath`). A dot in a name is not told from the dots between
the names (`quotePath_join_iff`).
-/

namespace SearchFilter.Query
open SearchFilter.Text

variable (d : Dialect)

theorem readable_dot : Readable d (.symbol '.') :=
  .lexeme (.symbol (by cases d <;> decide) (dot_ne_quote d) (by decide))

/-! ## Names -/

theorem toList_quoteName (name : String) :
    (d.quoteName name).toList = d.quote :: (double d.quote name.toList ++ [d.quote]) := by
  rw [Dialect.quoteName, String.toList_ofList, enclose]

/-- What is read from a quote on to a closing one is the quoted form of the name, and the next character is
no quote. -/
theorem unquote_eq_iff (name : String) (cs rest : List Char) :
    unquote d.quote cs = ⟨name.toList, true, rest⟩ ↔
      d.quote :: cs = (d.quoteName name).toList ++ rest ∧ rest.head? ≠ some d.quote := by
  constructor
  · intro h
    have htext := unquote_text d.quote cs
    have hrest : (unquote d.quote cs).closed = true → (unquote d.quote cs).rest.head? ≠ some d.quote :=
      head?_unquote_rest
    rw [h] at htext hrest
    refine ⟨?_, hrest rfl⟩
    rw [toList_quoteName, List.cons_append, List.append_assoc]
    exact congrArg (d.quote :: ·) htext.symm
  · intro ⟨htext, hrest⟩
    rw [toList_quoteName, List.cons_append, List.cons_eq_cons, List.append_assoc] at htext
    rw [htext.2]
    exact unquote_double d.quote name.toList rest hrest

/-! ## Paths -/

def pathTokens (parts : List (List Char)) : List Token :=
  (parts.map fun part => Token.name part true).intersperse (.symbol '.')

@[simp] theorem pathTokens_singleton (part : List Char) : pathTokens [part] = [.name part true] := rfl

@[simp] theorem pathTokens_cons_cons (part next : List Char) (parts : List (List Char)) :
    pathTokens (part :: next :: parts) = .name part true :: .symbol '.' :: pathTokens (next :: parts) := rfl

theorem pathTokens_inj : ∀ {ps qs : List (List Char)}, pathTokens ps = pathTokens qs → ps = qs
  | [], [], _ => rfl
  | [p], [q], h => by simpa using h
  | p :: p' :: ps, q :: q' :: qs, h => by
    simp only [pathTokens_cons_cons, List.cons.injEq, Token.name.injEq, true_and, and_true] at h
    rw [h.1, pathTokens_inj h.2]
  | [], [_], h => by simp [pathTokens] at h
  | [], _ :: _ :: _, h => by simp [pathTokens] at h
  | [_], [], h => by simp [pathTokens] at h
  | _ :: _ :: _, [], h => by simp [pathTokens] at h
  | [_], _ :: _ :: _, h => by simp at h
  | _ :: _ :: _, [_], h => by simp at h

theorem textOf_pathTokens (parts : List (List Char)) :
    textOf d.quote (pathTokens parts) = ['.'].intercalate (parts.map (enclose d.quote)) := by
  induction parts with
  | nil => rfl
  | cons part parts ih =>
    cases parts with
    | nil => simp [textOf, Token.text, enclose, closing]
    | cons next parts =>
      rw [pathTokens_cons_cons, textOf_cons, textOf_cons, ih]
      simp [Token.text, enclose, closing]

theorem getLast?_intercalate_enclose (quote : Char) : ∀ {parts : List (List Char)}, parts ≠ [] →
    (['.'].intercalate (parts.map (enclose quote))).getLast? = some quote
  | [], h => absurd rfl h
  | [part], _ => by
    rw [List.map_singleton, List.intercalate_singleton, enclose, ← List.cons_append, List.getLast?_concat]
  | part :: next :: parts, _ => by
    have ih := getLast?_intercalate_enclose quote (List.cons_ne_nil next parts)
    rw [List.map_cons, List.map_cons, List.intercalate_cons_cons, List.getLast?_append, ← List.map_cons, ih]
    rfl

theorem getLast?_quotePath (path : String) : (d.quotePath path).toList.getLast? = some d.quote := by
  rw [Dialect.quotePath, String.toList_ofList]
  exact getLast?_intercalate_enclose d.quote (List.splitOn_ne_nil _ _)

theorem fitting_pathTokens (parts : List (List Char)) : Fitting d (pathTokens parts) := by
  induction parts with
  | nil => trivial
  | cons part parts ih =>
    cases parts with
    | nil => exact ⟨.lexeme (.name part), by simp [textOf, Token.EndsBefore], trivial⟩
    | cons next parts =>
      refine ⟨.lexeme (.name part), ?_, readable_dot d, trivial, ih⟩
      rw [textOf_cons]
      exact fun h => dot_ne_quote d (Option.some.inj h)

theorem tokens_quotePath (path : String) :
    tokens d.quote (d.quotePath path).toList = pathTokens (path.toList.splitOn '.') := by
  rw [Dialect.quotePath, String.toList_ofList, ← textOf_pathTokens, tokens_textOf (fitting_pathTokens d _)]

theorem quotePath_of_not_mem {path : String} (h : '.' ∉ path.toList) : d.quotePath path = d.quoteName path := by
  rw [Dialect.quotePath, List.splitOn_eq_singleton h, Dialect.quoteName, List.map_singleton,
    List.intercalate_singleton]

theorem splitOn_eq_singleton_iff {cs : List Char} : cs.splitOn '.' = [cs] ↔ '.' ∉ cs := by
  constructor
  · intro h hm
    obtain ⟨us, vs, rfl⟩ := List.append_of_mem hm
    rw [List.splitOn_append_cons_self] at h
    rcases List.append_eq_singleton_iff.1 h with ⟨hus, -⟩ | ⟨-, hvs⟩
    · exact List.splitOn_ne_nil '.' us hus
    · exact List.splitOn_ne_nil '.' vs hvs
  · intro h
    exact List.splitOn_eq_singleton h

theorem splitOn_append_eq_pair_iff {a b : List Char} :
    (a ++ '.' :: b).splitOn '.' = [a, b] ↔ '.' ∉ a ∧ '.' ∉ b := by
  rw [List.splitOn_append_cons_self, ← splitOn_eq_singleton_iff, ← splitOn_eq_singleton_iff]
  constructor
  · intro h
    obtain ⟨x, xs, hx⟩ := List.exists_cons_of_ne_nil (List.splitOn_ne_nil '.' a)
    obtain ⟨y, ys, hy⟩ := List.exists_cons_of_ne_nil (List.splitOn_ne_nil '.' b)
    rw [hx, hy] at h ⊢
    cases xs with
    | nil => simpa using h
    | cons x' xs => simp at h
  · intro ⟨ha, hb⟩
    rw [ha, hb]
    rfl

/-- A path made of two names is the two quoted names if no name has a dot in it. -/
theorem quotePath_join_iff (qualifier name : String) :
    d.quotePath (qualifier ++ "." ++ name) = d.quoteName qualifier ++ "." ++ d.quoteName name ↔
      '.' ∉ qualifier.toList ∧ '.' ∉ name.toList := by
  have hpair : (d.quoteName qualifier ++ "." ++ d.quoteName name).toList =
      textOf d.quote (pathTokens [qualifier.toList, name.toList]) := by
    rw [textOf_pathTokens]
    simp [Dialect.quoteName]
  have hpath : (d.quotePath (qualifier ++ "." ++ name)).toList =
      textOf d.quote (pathTokens ((qualifier.toList ++ '.' :: name.toList).splitOn '.')) := by
    rw [textOf_pathTokens, Dialect.quotePath, String.toList_ofList]
    simp
  rw [← splitOn_append_eq_pair_iff, ← String.toList_inj, hpair, hpath]
  constructor
  · intro h
    have htokens := congrArg (tokens d.quote) h
    rw [tokens_textOf (fitting_pathTokens d _), tokens_textOf (fitting_pathTokens d _)] at htokens
    exact pathTokens_inj htokens
  · intro h
    rw [h]

/-! ## Read back -/

/-- A closed quoted name is read from a text exactly if the text begins with the quoted form of the name, and
what is left over is what follows there. A path is read as the parts between its dots, one after the other. -/
theorem quoteName_reads_back (d : Dialect) :
    (∀ (name : String) (cs rest : List Char),
      unquote d.quote cs = ⟨name.toList, true, rest⟩ ↔
        d.quote :: cs = (d.quoteName name).toList ++ rest ∧ rest.head? ≠ some d.quote) ∧
      ∀ path : String, tokens d.quote (d.quotePath path).toList = pathTokens (path.toList.splitOn '.') :=
  ⟨unquote_eq_iff d, tokens_quotePath d⟩

example : tokens '`' (Dialect.mysql.quotePath ".a`.").toList =
    [.name [] true, .symbol '.', .name ['a', '`'] true, .symbol '.', .name [] true] := by
  decide +kernel

end SearchFilter.Query
