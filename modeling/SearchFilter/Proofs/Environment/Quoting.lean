import SearchFilter.Proofs.Environment.Assignment

/-!
# Values in quotes

A variable can be given any value on one line: written in quotes of either kind it is read back as
it is, whatever quotes, comment signs and white space it has in it. So a file with such a line for
each of some variables gives them these values.
-/

namespace SearchFilter.Environment
open Text

/-! ## Trimming -/

def IsTrimmed (cs : List Char) : Prop :=
  (∀ c ∈ cs.head?, isBlank c = false) ∧ ∀ c ∈ cs.getLast?, isBlank c = false

theorem dropWhile_of_head {p : Char → Bool} {cs : List Char} (h : ∀ c ∈ cs.head?, p c = false) :
    cs.dropWhile p = cs := by
  cases cs with
  | nil => rfl
  | cons c cs => simp [h c rfl]

theorem trim_append_of_blank {cs blank : List Char} (hn : cs ≠ []) (h : IsTrimmed cs)
    (hb : ∀ c ∈ blank, isBlank c = true) : trim (cs ++ blank) = cs := by
  have hfirst : (cs ++ blank).dropWhile isBlank = cs ++ blank := by
    apply dropWhile_of_head
    rw [List.head?_append_of_ne_nil cs hn]
    exact h.1
  have hlast : (blank.reverse ++ cs.reverse).dropWhile isBlank = cs.reverse := by
    have hr : ∀ c ∈ blank.reverse, isBlank c = true := fun c hc => hb c (List.mem_reverse.1 hc)
    rw [List.dropWhile_append_of_pos hr]
    apply dropWhile_of_head
    rw [List.head?_reverse]
    exact h.2
  rw [trim, hfirst, List.reverse_append, hlast, List.reverse_reverse]

theorem trim_of_isTrimmed {cs : List Char} (hn : cs ≠ []) (h : IsTrimmed cs) : trim cs = cs := by
  simpa using trim_append_of_blank hn h (List.forall_mem_nil _)

/-! ## Lines with quotes -/

structure IsKey (cs : List Char) : Prop where
  ne_nil : cs ≠ []
  trimmed : IsTrimmed cs
  not_comment : cs.head? ≠ some '#'
  no_equals : '=' ∉ cs
  one_line : '\n' ∉ cs

structure Entry where
  key : String
  value : String
  quote : Char
  isKey : IsKey key.toList
  one_line : '\n' ∉ value.toList
  quote_mem : quote ∈ valueQuotes

namespace Entry
variable (e : Entry)

def quoted : List Char := e.quote :: (e.value.toList ++ [e.quote])

def line : List Char := e.key.toList ++ '=' :: e.quoted

def valueOf? (name : String) : Option String :=
  if e.key = name then some e.value else none

theorem quote_cases : e.quote = '"' ∨ e.quote = '\'' := by
  simpa [valueQuotes] using e.quote_mem

theorem isBlank_quote : isBlank e.quote = false := by
  rcases e.quote_cases with h | h
  · rw [h]
    decide
  · rw [h]
    decide

theorem last_not_blank {cs : List Char} (h : cs.getLast? = some e.quote) : ∀ c ∈ cs.getLast?, isBlank c = false := by
  rw [h]
  intro c hc
  cases hc
  exact e.isBlank_quote

theorem getLast?_quoted : e.quoted.getLast? = some e.quote := by
  rw [quoted, ← List.cons_append, List.getLast?_concat]

theorem isTrimmed_quoted : IsTrimmed e.quoted := by
  refine ⟨?_, e.last_not_blank e.getLast?_quoted⟩
  intro c hc
  cases hc
  exact e.isBlank_quote

theorem line_ne_nil : e.line ≠ [] := by
  simp [line]

theorem head?_line : e.line.head? = e.key.toList.head? :=
  List.head?_append_of_ne_nil _ e.isKey.ne_nil

theorem isTrimmed_line : IsTrimmed e.line := by
  have hlast : e.line.getLast? = some e.quote := by
    simp [line, List.getLast?_append, List.getLast?_cons, getLast?_quoted]
  refine ⟨?_, e.last_not_blank hlast⟩
  rw [head?_line]
  exact e.isKey.trimmed.1

theorem newline_not_mem_line : '\n' ∉ e.line := by
  intro h
  simp only [line, quoted, List.mem_append, List.mem_cons, List.not_mem_nil, or_false] at h
  have hq : '\n' ≠ e.quote := by
    rcases e.quote_cases with hq | hq <;> simp [hq]
  rcases h with h | h | h | h | h
  · exact e.isKey.one_line h
  · exact absurd h (by decide)
  · exact hq h
  · exact e.one_line h
  · exact hq h

/-- The line gives the variable its value, also with white space behind it. -/
theorem assigns_line {blank : List Char} (hb : ∀ c ∈ blank, isBlank c = true) :
    Assigns (e.line ++ blank) e.key e.value := by
  have htrim : trim (e.line ++ blank) = e.line := trim_append_of_blank e.line_ne_nil e.isTrimmed_line hb
  have hspeaks : Speaks (e.line ++ blank) := by
    rw [Speaks, htrim, head?_line]
    exact ⟨e.line_ne_nil, e.isKey.not_comment⟩
  refine ⟨hspeaks, e.key.toList, e.quoted, htrim, e.isKey.no_equals, e.isKey.ne_nil, ?_, ?_⟩
  · rw [trim_of_isTrimmed e.isKey.ne_nil e.isKey.trimmed]
  · rw [trim_of_isTrimmed (by simp [quoted]) e.isTrimmed_quoted]
    exact Or.inl ⟨e.quote, e.quote_mem, rfl⟩

end Entry

/-! ## Files of such lines -/

def lineEnds : List String := ["\n", "\r\n"]

/-- What stands before the line feed is left to the line. -/
theorem eq_blank_append_of_mem_lineEnds {lineEnd : String} (h : lineEnd ∈ lineEnds) :
    ∃ blank, lineEnd.toList = blank ++ ['\n'] ∧ (∀ c ∈ blank, isBlank c = true) ∧ '\n' ∉ blank := by
  simp only [lineEnds, List.mem_cons, List.not_mem_nil, or_false] at h
  rcases h with h | h
  · exact ⟨[], by rw [h]; rfl, List.forall_mem_nil _, List.not_mem_nil⟩
  · exact ⟨['\r'], by rw [h]; rfl, List.forall_mem_singleton.2 rfl, by simp⟩

/-- A content with a line for each entry. The last line need not be ended. -/
inductive Written : List Entry → List Char → Prop
  | nil : Written [] []
  | last (e : Entry) : Written [e] e.line
  | cons (e : Entry) {lineEnd : String} {es : List Entry} {cs : List Char} :
      lineEnd ∈ lineEnds → Written es cs → Written (e :: es) (e.line ++ lineEnd.toList ++ cs)

theorem Assigns.not_isWrong {cs : List Char} {key value : String} (h : Assigns cs key value) : ¬ IsWrong cs := by
  obtain ⟨-, before, after, hline, hb, hn, -⟩ := h
  intro ⟨_, hwrong⟩
  rw [hline] at hwrong
  rcases hwrong with hhead | hmem
  · rw [List.head?_append_of_ne_nil _ hn] at hhead
    exact hb (List.mem_of_mem_head? hhead)
  · exact hmem (by simp)

/-- The lines of `cs` assign what the entries say, in this order, and none of them is wrong. -/
def Carries (es : List Entry) (ls : List (List Char)) : Prop :=
  (∀ l ∈ ls, ¬ IsWrong l) ∧ (ls.filterMap fun l => (Line.read l).assigned?) = es.map fun e => (e.key, e.value)

theorem carries_nil : Carries [] [[]] := by
  constructor
  · intro l hl
    rw [List.mem_singleton.1 hl]
    decide
  · rfl

theorem Carries.cons {es : List Entry} {ls : List (List Char)} (h : Carries es ls) (e : Entry) {blank : List Char}
    (hb : ∀ c ∈ blank, isBlank c = true) : Carries (e :: es) ((e.line ++ blank) :: ls) := by
  have ha := e.assigns_line hb
  constructor
  · exact List.forall_mem_cons.2 ⟨ha.not_isWrong, h.1⟩
  · rw [filterMap_cons_append, assigned?_eq_some_iff.2 ha, h.2]
    rfl

theorem Written.carries {es : List Entry} {cs : List Char} (h : Written es cs) : Carries es (cs.splitOn '\n') := by
  induction h with
  | nil => exact carries_nil
  | last e =>
    rw [List.splitOn_eq_singleton e.newline_not_mem_line]
    have hnone : Carries [] [] := ⟨List.forall_mem_nil _, rfl⟩
    simpa using hnone.cons e (List.forall_mem_nil _)
  | @cons e lineEnd es cs hend _ ih =>
    obtain ⟨blank, hsplit, hblank, hn⟩ := eq_blank_append_of_mem_lineEnds hend
    have hline : '\n' ∉ e.line ++ blank := by
      rw [List.mem_append]
      exact not_or.2 ⟨e.newline_not_mem_line, hn⟩
    have hcontent : e.line ++ lineEnd.toList ++ cs = (e.line ++ blank) ++ '\n' :: cs := by
      rw [hsplit]
      simp
    rw [hcontent, List.splitOn_append_cons_self_of_not_mem hline]
    exact ih.cons e hblank

section
variable {es : List Entry} {content : String} (h : Written es content.toList) (start : Keyed String)
include h

theorem load_error_of_written : (load start content).2 = none := by
  rw [load_of_good start h.carries.1]

theorem get?_of_written (name : String) :
    (load start content).1.get? name = (lastWrite? (Entry.valueOf? · name) es).or (start.get? name) := by
  have hwrites : (lines content).filterMap (valueOf? name) = es.filterMap (Entry.valueOf? · name) := by
    have hmap := congrArg (List.filterMap fun entry : String × String => if entry.1 = name then some entry.2 else none)
      h.carries.2
    rw [List.filterMap_filterMap, List.filterMap_map] at hmap
    exact hmap
  rw [load_of_good start h.carries.1, get?_overlay, lastWrite?, hwrites, lastWrite?]

/-- A file with a line for each entry is read without an error, and then each variable has the
value of its last entry, and one without an entry the value that it had. -/
theorem load_written :
    (load start content).2 = none ∧
      (∀ earlier e later, es = earlier ++ e :: later → (∀ other ∈ later, other.key ≠ e.key) →
        (load start content).1.get? e.key = some e.value) ∧
      ∀ name, (∀ e ∈ es, e.key ≠ name) → (load start content).1.get? name = start.get? name := by
  refine ⟨load_error_of_written h start, ?_, ?_⟩
  · intro earlier e later hes hlater
    have hlast : lastWrite? (Entry.valueOf? · e.key) es = some e.value :=
      lastWrite?_eq_some_iff.2 ⟨earlier, e, later, hes, if_pos rfl, fun other ho => if_neg (hlater other ho)⟩
    rw [get?_of_written h start, hlast]
    rfl
  · intro name hname
    have hnone : lastWrite? (Entry.valueOf? · name) es = none :=
      lastWrite?_eq_none_iff.2 fun e he => if_neg (hname e he)
    rw [get?_of_written h start, hnone]
    rfl

end

theorem isKey_color : IsKey "COLOR".toList where
  ne_nil := by decide
  trimmed := ⟨by rintro c ⟨⟩; rfl, by rintro c ⟨⟩; rfl⟩
  not_comment := by decide
  no_equals := by decide
  one_line := by decide

theorem isKey_odd : IsKey "'a # b".toList where
  ne_nil := by decide
  trimmed := ⟨by rintro c ⟨⟩; rfl, by rintro c ⟨⟩; rfl⟩
  not_comment := by decide
  no_equals := by decide
  one_line := by decide

def quoteAlone : Entry := ⟨"COLOR", "'", '\'', isKey_color, by decide, by decide⟩
def oddSigns : Entry := ⟨"'a # b", "\t# =\\\"\r", '"', isKey_odd, by decide, by decide⟩
def quotedTwice : Entry := ⟨"COLOR", "'x'", '\'', isKey_color, by decide, by decide⟩

def oddContent : String := "COLOR='''\r\n'a # b=\"\t# =\\\"\r\"\nCOLOR=''x''\r\n"

theorem load_written_odd :
    let start : Keyed String := [("COLOR", "0"), ("Z", "9")]
    Written [quoteAlone, oddSigns, quotedTwice] oddContent.toList ∧ (load start oddContent).2 = none ∧
      (load start oddContent).1.get? "COLOR" = some "'x'" ∧
      (load start oddContent).1.get? "'a # b" = some "\t# =\\\"\r" ∧ (load start oddContent).1.get? "Z" = some "9" := by
  intro start
  have hw : Written [quoteAlone, oddSigns, quotedTwice] oddContent.toList := by
    have hlast := Written.cons quotedTwice (by decide : "\r\n" ∈ lineEnds) .nil
    have hodd := Written.cons oddSigns (by decide : "\n" ∈ lineEnds) hlast
    exact Written.cons quoteAlone (by decide : "\r\n" ∈ lineEnds) hodd
  obtain ⟨hnone, hlast, hother⟩ := load_written hw start
  refine ⟨hw, hnone, ?_, ?_, ?_⟩
  · exact hlast [quoteAlone, oddSigns] quotedTwice [] rfl (List.forall_mem_nil _)
  · apply hlast [quoteAlone] oddSigns [quotedTwice] rfl
    decide
  · rw [hother "Z" (by decide)]
    decide

end SearchFilter.Environment
