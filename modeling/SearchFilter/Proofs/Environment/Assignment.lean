import SearchFilter.Proofs.Environment.File

/-!
# What the lines assign

A line is cut at its first `=` into a key and a value, which may stand in quotes. After the lines
of a file a variable has the value that the last line with its key gave it, up to the first line
that is wrong.
-/

namespace SearchFilter.Environment
open Text

/-! ## Values -/

def valueQuotes : List Char := ['"', '\'']

/-- The text without one pair of equal quotes around it, if it has them. -/
def Bare (text value : List Char) : Prop :=
  (∃ quote ∈ valueQuotes, text = quote :: (value ++ [quote])) ∨
    value = text ∧ ∀ quote ∈ valueQuotes, ∀ inner, text ≠ quote :: (inner ++ [quote])

theorem between?_eq_some_iff {quote : Char} {text value : List Char} :
    between? quote text = some value ↔ text = quote :: (value ++ [quote]) := by
  cases text with
  | nil => simp [between?]
  | cons c cs =>
    rw [between?, List.cons.injEq]
    by_cases hc : c = quote ∧ cs.getLast? = some quote
    · obtain ⟨inner, hinner⟩ := List.getLast?_eq_some_iff.1 hc.2
      simp [hc.1, hinner]
    · rw [if_neg hc]
      apply iff_of_false nofun
      intro ⟨hq, hcs⟩
      exact hc ⟨hq, by simp [hcs]⟩

theorem Bare.unique {text v w : List Char} (hv : Bare text v) (hw : Bare text w) : v = w := by
  rcases hv with ⟨q, hq, rfl⟩ | ⟨rfl, hv⟩
  · rcases hw with ⟨r, -, hr⟩ | ⟨-, hw⟩
    · obtain ⟨rfl, hcs⟩ := List.cons.inj hr
      exact List.append_cancel_right hcs
    · exact absurd rfl (hw q hq v)
  · rcases hw with ⟨r, hr, htext⟩ | ⟨rfl, -⟩
    · exact absurd htext (hv r hr w)
    · rfl

theorem bare_bareValue (cs : List Char) : Bare (trim cs) (bareValue cs) := by
  show Bare (trim cs) (((between? '"' (trim cs)).or (between? '\'' (trim cs))).getD (trim cs))
  generalize trim cs = text
  cases hd : between? '"' text with
  | some value => exact Or.inl ⟨'"', by decide, between?_eq_some_iff.1 hd⟩
  | none =>
    cases hs : between? '\'' text with
    | some value => exact Or.inl ⟨'\'', by decide, between?_eq_some_iff.1 hs⟩
    | none =>
      refine Or.inr ⟨rfl, ?_⟩
      intro quote hq inner htext
      have hb := between?_eq_some_iff.2 htext
      simp only [valueQuotes, List.mem_cons, List.not_mem_nil, or_false] at hq
      rcases hq with rfl | rfl
      · cases hd.symm.trans hb
      · cases hs.symm.trans hb

theorem bareValue_eq_iff (cs value : List Char) : bareValue cs = value ↔ Bare (trim cs) value := by
  constructor
  · intro h
    rw [← h]
    exact bare_bareValue cs
  · intro h
    exact (bare_bareValue cs).unique h

/-! ## Assignments -/

def Assigns (cs : List Char) (key value : String) : Prop :=
  Speaks cs ∧ ∃ before after, trim cs = before ++ '=' :: after ∧ '=' ∉ before ∧ before ≠ [] ∧
    key.toList = trim before ∧ Bare (trim after) value.toList

theorem cut_append {before after : List Char} (h : '=' ∉ before) :
    (before ++ '=' :: after).takeWhile (· ≠ '=') = before ∧
      ((before ++ '=' :: after).dropWhile (· ≠ '=')).drop 1 = after := by
  have hp : ∀ c ∈ before, decide (c ≠ '=') = true := by
    intro c hc
    apply decide_eq_true
    intro he
    exact h (he ▸ hc)
  rw [List.takeWhile_append_of_pos hp, List.dropWhile_append_of_pos hp]
  simp

/-- What stands before the first `=` and what stands behind it. -/
theorem cut_at_equals_iff {line before after : List Char} :
    line = before ++ '=' :: after ∧ '=' ∉ before ↔
      '=' ∈ line ∧ line.takeWhile (· ≠ '=') = before ∧ (line.dropWhile (· ≠ '=')).drop 1 = after := by
  constructor
  · intro ⟨hline, hb⟩
    rw [hline]
    exact ⟨by simp, cut_append hb⟩
  · intro ⟨hm, hbefore, hafter⟩
    obtain ⟨as, bs, hline, has⟩ := List.eq_append_cons_of_mem hm
    rw [hline, (cut_append has).1] at hbefore
    rw [hline, (cut_append has).2] at hafter
    rw [← hbefore, ← hafter]
    exact ⟨hline, has⟩

theorem assigned?_eq_some_iff {cs : List Char} {key value : String} :
    (Line.read cs).assigned? = some (key, value) ↔ Assigns cs key value := by
  rcases read_cases cs with ⟨hs, hr⟩ | ⟨-, hk, hr⟩ | ⟨-, hm, hr⟩ | ⟨hs, hm, hk, hr⟩
  · rw [hr]
    exact iff_of_false nofun fun h => hs h.1
  · rw [hr]
    apply iff_of_false nofun
    intro ⟨_, before, after, hline, hb, hne, _⟩
    obtain ⟨c, rest, rfl⟩ := List.exists_cons_of_ne_nil hne
    rw [hline] at hk
    cases hk
    exact hb List.mem_cons_self
  · rw [hr]
    apply iff_of_false nofun
    intro ⟨_, before, after, hline, _⟩
    exact hm (by simp [hline])
  · rw [hr]
    constructor
    · intro h
      cases h
      obtain ⟨hline, hb⟩ := cut_at_equals_iff.2 ⟨hm, rfl, rfl⟩
      refine ⟨hs, _, _, hline, hb, ?_, String.toList_ofList, ?_⟩
      · intro hnil
        rw [hnil] at hline
        exact hk (by rw [hline]; rfl)
      · rw [String.toList_ofList]
        exact bare_bareValue _
    · intro ⟨_, before, after, hline, hb, _, hkey, hvalue⟩
      obtain ⟨-, hbefore, hafter⟩ := cut_at_equals_iff.1 ⟨hline, hb⟩
      rw [Line.assigned?, hbefore, hafter, (bareValue_eq_iff after _).2 hvalue, ← hkey, String.ofList_toList,
        String.ofList_toList]

theorem valueOf?_eq_some_iff {name value : String} {cs : List Char} :
    valueOf? name cs = some value ↔ Assigns cs name value := by
  rw [← assigned?_eq_some_iff, valueOf?]
  cases (Line.read cs).assigned? with
  | none => simp
  | some entry =>
    obtain ⟨key, value'⟩ := entry
    by_cases hk : key = name
    · simp [hk]
    · simp [hk]

theorem valueOf?_eq_none_iff {name : String} {cs : List Char} :
    valueOf? name cs = none ↔ ∀ value, ¬ Assigns cs name value := by
  rw [Option.eq_none_iff_forall_ne_some]
  constructor
  · intro h value ha
    exact h value (valueOf?_eq_some_iff.2 ha)
  · intro h value hv
    exact h value (valueOf?_eq_some_iff.1 hv)

/-! ## The variables afterwards -/

def LastAssigned (lines : List (List Char)) (name value : String) : Prop :=
  ∃ earlier cs later, lines = earlier ++ cs :: later ∧ Assigns cs name value ∧
    ∀ other ∈ later, ∀ value', ¬ Assigns other name value'

def Overlaid (start vars : Keyed String) (lines : List (List Char)) : Prop :=
  ∀ name value, vars.get? name = some value ↔
    LastAssigned lines name value ∨
      start.get? name = some value ∧ ∀ cs ∈ lines, ∀ value', ¬ Assigns cs name value'

theorem lastWrite?_valueOf?_iff {lines : List (List Char)} {name value : String} :
    lastWrite? (valueOf? name) lines = some value ↔ LastAssigned lines name value := by
  rw [lastWrite?_eq_some_iff, LastAssigned]
  simp only [valueOf?_eq_some_iff, valueOf?_eq_none_iff]

theorem overlaid_overlay (start : Keyed String) (lines : List (List Char)) :
    Overlaid start (overlay start lines) lines := by
  intro name value
  rw [get?_overlay, Option.or_eq_some_iff, lastWrite?_valueOf?_iff, lastWrite?_eq_none_iff]
  simp only [valueOf?_eq_none_iff, and_comm]

/-- The first line that is wrong ends the reading with an error that has its number, and the
variables are those at the start with the assignments of the lines before it over them. Without
such a line all lines count. -/
theorem load_outcome (start : Keyed String) (content : String) :
    (∃ before cs, FirstWrong (lines content) before cs ∧
        (load start content).2 = some (mistake (before.length + 1) cs) ∧
        Overlaid start (load start content).1 before) ∨
      (∀ cs ∈ lines content, ¬ IsWrong cs) ∧ (load start content).2 = none ∧
        Overlaid start (load start content).1 (lines content) := by
  rcases good_or_firstWrong (lines content) with hgood | ⟨before, cs, hfirst⟩
  · rw [load_of_good start hgood]
    exact Or.inr ⟨hgood, rfl, overlaid_overlay start _⟩
  · rw [load_of_firstWrong start hfirst]
    exact Or.inl ⟨before, cs, hfirst, rfl, overlaid_overlay start before⟩

example : load [("A", "0"), ("B", "1")] "# A=2\r\n\n A = '3' \r\nA=\"4=\n=5\nB=6" =
    ([("A", "\"4="), ("B", "1")], some (.emptyKey 5)) := by
  decide +kernel

end SearchFilter.Environment
