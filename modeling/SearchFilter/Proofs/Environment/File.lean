import Mathlib.Data.List.DropRight
import SearchFilter.Environment
import SearchFilter.Proofs.LastWrite

/-!
# Files of settings

The lines of a file are read in order up to the first that is wrong. A variable then has the value
that the lines read gave it last, or the one it had before.
-/

namespace SearchFilter.Environment
open Text

/-! ## White space -/

theorem trim_eq_rdropWhile (cs : List Char) : trim cs = (cs.dropWhile isBlank).rdropWhile isBlank := rfl

theorem head_trim {c : Char} {cs rest : List Char} (h : trim cs = c :: rest) : isBlank c = false := by
  obtain ⟨behind, hbehind⟩ := List.rdropWhile_prefix isBlank (cs.dropWhile isBlank)
  rw [← trim_eq_rdropWhile, h] at hbehind
  have hhead := List.head?_dropWhile_not isBlank cs
  rw [← hbehind] at hhead
  exact hhead

theorem trim_cons_ne_nil {c : Char} (hc : isBlank c = false) (cs : List Char) : trim (c :: cs) ≠ [] := by
  intro h
  rw [trim_eq_rdropWhile, List.dropWhile_cons_of_neg (by simp [hc]), List.rdropWhile_eq_nil_iff] at h
  rw [h c List.mem_cons_self] at hc
  cases hc

/-! ## One line -/

/-- The line is neither without text nor a comment. -/
def Speaks (cs : List Char) : Prop :=
  trim cs ≠ [] ∧ (trim cs).head? ≠ some '#'

def IsWrong (cs : List Char) : Prop :=
  Speaks cs ∧ ((trim cs).head? = some '=' ∨ '=' ∉ trim cs)

instance (cs : List Char) : Decidable (IsWrong cs) :=
  inferInstanceAs (Decidable ((_ ∧ _) ∧ (_ ∨ _)))

def mistake (number : Nat) (cs : List Char) : Error :=
  if (trim cs).head? = some '=' then .emptyKey number else .malformed number

def Line.assigned? : Line → Option (String × String)
  | assignment key value => some (String.ofList key, String.ofList value)
  | _ => none

theorem key_eq_nil_iff {cs : List Char} (h : trim cs ≠ []) :
    trim ((trim cs).takeWhile (· ≠ '=')) = [] ↔ (trim cs).head? = some '=' := by
  obtain ⟨c, rest, hc⟩ := List.exists_cons_of_ne_nil h
  have hblank := head_trim hc
  rw [hc]
  by_cases he : c = '='
  · simp [he]
  · rw [List.takeWhile_cons_of_pos (by simpa using he)]
    exact iff_of_false (trim_cons_ne_nil hblank _) (by simpa using he)

/-- The four things that a line can be. -/
theorem read_cases (cs : List Char) :
    (¬ Speaks cs ∧ Line.read cs = .blank) ∨ (Speaks cs ∧ (trim cs).head? = some '=' ∧ Line.read cs = .emptyKey) ∨
      (Speaks cs ∧ '=' ∉ trim cs ∧ Line.read cs = .malformed) ∨
      Speaks cs ∧ '=' ∈ trim cs ∧ (trim cs).head? ≠ some '=' ∧
        Line.read cs = .assignment (trim ((trim cs).takeWhile (· ≠ '=')))
          (bareValue (((trim cs).dropWhile (· ≠ '=')).drop 1)) := by
  unfold Line.read
  by_cases hs : trim cs = [] ∨ (trim cs).head? = some '#'
  · simp only [if_pos hs]
    exact Or.inl ⟨fun h => hs.elim h.1 h.2, trivial⟩
  · have h : Speaks cs := not_or.1 hs
    simp only [if_neg hs]
    by_cases hm : '=' ∈ trim cs
    · simp only [if_pos hm, key_eq_nil_iff h.1]
      by_cases hk : (trim cs).head? = some '='
      · exact Or.inr (Or.inl ⟨h, hk, if_pos hk⟩)
      · exact Or.inr (Or.inr (Or.inr ⟨h, hm, hk, if_neg hk⟩))
    · exact Or.inr (Or.inr (Or.inl ⟨h, hm, if_neg hm⟩))

/-! ## All lines -/

def lines (content : String) : List (List Char) :=
  content.toList.splitOn '\n'

def assign (vars : Keyed String) (cs : List Char) : Keyed String :=
  (Line.read cs).assigned?.elim vars fun (key, value) => vars.put key value

/-- The variables with the assignments of the lines over them, in order. -/
def overlay (vars : Keyed String) (lines : List (List Char)) : Keyed String :=
  lines.foldl assign vars

def valueOf? (name : String) (cs : List Char) : Option String :=
  (Line.read cs).assigned?.bind fun (key, value) => if key = name then some value else none

theorem get?_assign (name : String) (vars : Keyed String) (cs : List Char) :
    (assign vars cs).get? name = (valueOf? name cs).elim (vars.get? name) some := by
  unfold assign valueOf?
  cases (Line.read cs).assigned? with
  | none => rfl
  | some entry =>
    obtain ⟨key, value⟩ := entry
    by_cases h : key = name
    · simp [h]
    · simp [h, Keyed.get?_put_of_ne value vars (Ne.symm h)]

theorem get?_overlay (name : String) (vars : Keyed String) (lines : List (List Char)) :
    (overlay vars lines).get? name = (lastWrite? (valueOf? name) lines).or (vars.get? name) := by
  have h := foldl_lastWrite (·.get? name) (get?_assign name) vars lines
  rw [overlay, h]
  cases lastWrite? (valueOf? name) lines <;> rfl

/-- Reading goes on behind a line that is not wrong. -/
theorem loadLines_cons_good {cs : List Char} (h : ¬ IsWrong cs) (vars : Keyed String) (number : Nat)
    (rest : List (List Char)) : loadLines vars number (cs :: rest) = loadLines (assign vars cs) (number + 1) rest := by
  rw [loadLines, assign]
  rcases read_cases cs with ⟨-, hr⟩ | ⟨hs, hk, -⟩ | ⟨hs, hm, -⟩ | ⟨-, -, -, hr⟩
  · rw [hr]
    rfl
  · exact absurd ⟨hs, Or.inl hk⟩ h
  · exact absurd ⟨hs, Or.inr hm⟩ h
  · rw [hr]
    rfl

theorem loadLines_cons_wrong {cs : List Char} (h : IsWrong cs) (vars : Keyed String) (number : Nat)
    (rest : List (List Char)) : loadLines vars number (cs :: rest) = (vars, some (mistake number cs)) := by
  rw [loadLines, mistake]
  rcases read_cases cs with ⟨hs, -⟩ | ⟨-, hk, hr⟩ | ⟨-, hm, hr⟩ | ⟨-, hm, hk, -⟩
  · exact absurd h.1 hs
  · rw [hr, if_pos hk]
  · have hk : (trim cs).head? ≠ some '=' := fun hk => hm (List.mem_of_mem_head? hk)
    rw [hr, if_neg hk]
  · exact absurd h.2 (not_or.2 ⟨hk, not_not.2 hm⟩)

theorem loadLines_append_good {before : List (List Char)} (h : ∀ cs ∈ before, ¬ IsWrong cs) (vars : Keyed String)
    (number : Nat) (rest : List (List Char)) :
    loadLines vars number (before ++ rest) = loadLines (overlay vars before) (number + before.length) rest := by
  induction before generalizing vars number with
  | nil => rfl
  | cons cs before ih =>
    have hnumber : number + 1 + before.length = number + (cs :: before).length := by
      rw [List.length_cons]
      omega
    rw [List.cons_append, loadLines_cons_good (h cs List.mem_cons_self),
      ih (fun good hg => h good (List.mem_cons_of_mem _ hg)), hnumber]
    rfl

def FirstWrong (lines before : List (List Char)) (cs : List Char) : Prop :=
  ∃ after, lines = before ++ cs :: after ∧ (∀ good ∈ before, ¬ IsWrong good) ∧ IsWrong cs

theorem good_or_firstWrong (ls : List (List Char)) :
    (∀ cs ∈ ls, ¬ IsWrong cs) ∨ ∃ before cs, FirstWrong ls before cs := by
  cases hfind : ls.find? (IsWrong ·) with
  | none => exact Or.inl (by simpa using hfind)
  | some cs =>
    obtain ⟨hwrong, before, after, hsplit, hgood⟩ := List.find?_eq_some_iff_append.1 hfind
    exact Or.inr ⟨before, cs, after, hsplit, by simpa using hgood, by simpa using hwrong⟩

section
variable (vars : Keyed String) {content : String}

theorem load_of_good (h : ∀ cs ∈ lines content, ¬ IsWrong cs) :
    load vars content = (overlay vars (lines content), none) := by
  have hload := loadLines_append_good h vars 1 []
  rw [List.append_nil] at hload
  exact hload

/-- The first line that is wrong ends the reading. -/
theorem load_of_firstWrong {before : List (List Char)} {cs : List Char} (h : FirstWrong (lines content) before cs) :
    load vars content = (overlay vars before, some (mistake (before.length + 1) cs)) := by
  obtain ⟨after, hsplit, hgood, hwrong⟩ := h
  show loadLines vars 1 (lines content) = _
  rw [hsplit, loadLines_append_good hgood, loadLines_cons_wrong hwrong, Nat.add_comm 1]

theorem load_error_iff (e : Error) :
    (load vars content).2 = some e ↔
      ∃ before cs, FirstWrong (lines content) before cs ∧ e = mistake (before.length + 1) cs := by
  constructor
  · intro h
    rcases good_or_firstWrong (lines content) with hgood | ⟨before, cs, hfirst⟩
    · rw [load_of_good vars hgood] at h
      cases h
    · rw [load_of_firstWrong vars hfirst] at h
      exact ⟨before, cs, hfirst, (Option.some.inj h).symm⟩
  · rintro ⟨before, cs, hfirst, rfl⟩
    rw [load_of_firstWrong vars hfirst]

theorem load_eq_none_iff : (load vars content).2 = none ↔ ∀ cs ∈ lines content, ¬ IsWrong cs := by
  constructor
  · intro h
    rcases good_or_firstWrong (lines content) with hgood | ⟨before, cs, hfirst⟩
    · exact hgood
    · rw [load_of_firstWrong vars hfirst] at h
      cases h
  · intro hgood
    rw [load_of_good vars hgood]

end

end SearchFilter.Environment
