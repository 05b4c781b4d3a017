import SearchFilter.CommandLine.Report
import SearchFilter.Proofs.CommandLine.Answer

/-!
# What failures say

A report is one line, since all that comes from outside stands in quotes in it (`isLine_report`).
The message of a failure tells the stage that failed (`FailsFirst.stage_eq_of_message_eq`).
-/

namespace SearchFilter

/-! ## One line -/

def IsLine (s : String) : Prop := '\n' ∉ s.toList

theorem isLine_append (s t : String) : IsLine (s ++ t) ↔ IsLine s ∧ IsLine t := by
  unfold IsLine
  rw [String.toList_append, List.mem_append, not_or]

theorem newline_not_mem_toDigits {base : Nat} (hb : 1 < base) (n : Nat) : '\n' ∉ Nat.toDigits base n := by
  induction n using Nat.strong_induction_on with
  | _ n ih =>
    rw [Nat.toDigits_eq_if hb]
    split
    · simp
    · have hdiv := ih (n / base) (Nat.div_lt_self (by omega) hb)
      simp [hdiv]

theorem isLine_repr (n : Nat) : IsLine n.repr := by
  unfold IsLine
  rw [Nat.repr, String.toList_ofList]
  exact newline_not_mem_toDigits (by decide) n

theorem newline_not_mem_shown (c : Char) : '\n' ∉ shown c := by
  unfold shown
  split
  case h_7 hc _ =>
    have hdigits := @newline_not_mem_toDigits 16 (by decide) c.toNat
    split
    · simp [hdigits]
    · simpa using Ne.symm hc
  all_goals decide

theorem isLine_inQuotes (s : String) : IsLine (inQuotes s) := by
  have hbody : IsLine (String.ofList (s.toList.flatMap shown)) := by
    unfold IsLine
    rw [String.toList_ofList, List.mem_flatMap]
    rintro ⟨c, -, hc⟩
    exact newline_not_mem_shown c hc
  rw [inQuotes, isLine_append, isLine_append]
  exact ⟨⟨by simp [IsLine], hbody⟩, by simp [IsLine]⟩

theorem isLine_systemFailure (code : Nat) {kind : String} (reason : String) (h : IsLine kind) :
    IsLine (systemFailure code kind reason) := by
  unfold systemFailure
  simp only [isLine_append, isLine_inQuotes, isLine_repr, h]
  simp [IsLine]

theorem isLine_readFailure (failure : ReadFailure) : IsLine failure.report := by
  unfold ReadFailure.report
  split
  · exact isLine_systemFailure _ _ (by simp [IsLine])
  · exact isLine_systemFailure _ _ (by simp [IsLine])
  · simp only [isLine_append, isLine_inQuotes]
    simp [IsLine]
  · simp only [isLine_append, isLine_inQuotes]
    simp [IsLine]

theorem isLine_compileError (e : CompileError) : IsLine e.report := by
  unfold CompileError.report
  split <;> simp only [isLine_append, isLine_inQuotes] <;> simp [IsLine]

namespace CommandLine

theorem isLine_refusal (refusal : Refusal) : IsLine refusal.report := by
  unfold Refusal.report
  simp only [isLine_append, isLine_inQuotes, isLine_repr]
  simp [IsLine]

/-- No text from outside breaks the line of a report. -/
theorem isLine_report (failure : Failure) (refusal : Refusal) : IsLine (failure.report refusal) := by
  unfold Failure.report
  split <;> simp only [isLine_append, isLine_inQuotes, isLine_readFailure, isLine_compileError, isLine_refusal] <;>
    simp [IsLine]

example :
    (Failure.compile (.unknownAttribute "co\nlor" productEntity)).report =
      "Compile(AttributeNotFound \x7b entity: \"catalog_product\", field: \"co\\nlor\" \x7d)" := by
  decide +kernel

/-! ## The stage -/

def Failure.stage : Failure → Stage
  | .catalogFile _ => .catalogFile
  | .catalogJson => .catalogJson
  | .environment (.unreadable _ _) => .settingsFile
  | .environment (.emptyKey _) => .settingsFile
  | .environment (.malformed _) => .settingsFile
  | .environment (.badStore _) => .settings
  | .environment (.badFlag _) => .settings
  | .argument (.dialect _) => .dialect
  | .argument (.filterKind _) => .kind
  | .compile _ => .compilation

def Stage.beginnings : Stage → List String
  | catalogFile => ["Failed to read the catalog file: "]
  | catalogJson => ["Failed to deserialize the catalog file as JSON: "]
  | settingsFile => ["Configuration error: " ++ "Failed to read env file ",
      "Configuration error: " ++ "Invalid env file: empty key at line ",
      "Configuration error: " ++ "Invalid env file: malformed line "]
  | settings => ["Configuration error: " ++ Environment.storeVariable,
      "Configuration error: " ++ Environment.showOutOfStockVariable]
  | dialect => ["Invalid argument: " ++ "Unsupported SQL dialect: "]
  | kind => ["Invalid argument: " ++ "Unknown filter type: "]
  | compilation => ["Failed to compile the filter: "]

theorem Stage.eq_of_prefix (a b : Stage) : ∀ x ∈ a.beginnings, ∀ y ∈ b.beginnings, x.toList <+: y.toList → a = b := by
  cases a <;> cases b <;> simp [beginnings, Environment.storeVariable, Environment.showOutOfStockVariable]

theorem exists_message_eq (failure : Failure) (refusal : Refusal) :
    ∃ beginning ∈ failure.stage.beginnings, ∃ rest, failure.message refusal = beginning ++ rest := by
  unfold Failure.message
  cases failure with
  | catalogFile reason => exact ⟨_, .head _, _, rfl⟩
  | catalogJson => exact ⟨_, .head _, _, rfl⟩
  | environment e =>
    unfold Environment.Error.message Environment.Error.reason
    cases e with
    | unreadable path reason =>
      refine ⟨_, .head _, path ++ ": " ++ reason.message, ?_⟩
      simp only [String.append_assoc]
    | emptyKey line =>
      refine ⟨_, .tail _ (.head _), line.repr, ?_⟩
      simp only [String.append_assoc]
    | malformed line =>
      refine ⟨_, .tail _ (.tail _ (.head _)), line.repr ++ " (expected KEY=VALUE)", ?_⟩
      simp only [String.append_assoc]
    | badStore raw =>
      refine ⟨_, .head _, " must be an integer, got '" ++ raw ++ "'", ?_⟩
      simp only [String.append_assoc]
    | badFlag raw =>
      refine ⟨_, .tail _ (.head _), " must be a boolean, got '" ++ raw ++ "'", ?_⟩
      simp only [String.append_assoc]
  | argument e =>
    unfold UnknownName.message
    cases e with
    | filterKind name =>
      refine ⟨_, .head _, Text.lower name, ?_⟩
      simp only [String.append_assoc]
    | dialect name =>
      refine ⟨_, .head _, Text.lower name, ?_⟩
      simp only [String.append_assoc]
  | compile e => exact ⟨_, .head _, _, rfl⟩

theorem stage_eq_of_message_eq {f g : Failure} {refusal refusal' : Refusal}
    (h : f.message refusal = g.message refusal') : f.stage = g.stage := by
  obtain ⟨x, hx, rest, hf⟩ := exists_message_eq f refusal
  obtain ⟨y, hy, rest', hg⟩ := exists_message_eq g refusal'
  have htexts : x.toList ++ rest.toList = y.toList ++ rest'.toList := by
    rw [← String.toList_append, ← String.toList_append, ← hf, h, hg]
  rcases List.prefix_or_prefix_of_prefix ⟨rest.toList, htexts⟩ (List.prefix_append y.toList _) with hp | hp
  · exact Stage.eq_of_prefix _ _ x hx y hy hp
  · exact (Stage.eq_of_prefix _ _ y hy x hx hp).symm

section
variable {s s' : Surroundings} {t t' : Target} {α β : Type} {finish : Target.Finish α} {finish' : Target.Finish β}
  {stage stage' : Stage} {f f' : Failure}

theorem Target.Fails.stage_eq (h : t.Fails s finish stage f) : f.stage = stage := by
  cases stage with
  | catalogFile =>
    obtain ⟨reason, -, rfl⟩ := h
    rfl
  | catalogJson =>
    obtain ⟨source, -, -, rfl⟩ := h
    rfl
  | settingsFile =>
    obtain ⟨path, -, ⟨reason, -, rfl⟩ | ⟨content, before, cs, -, -, rfl⟩⟩ := h
    · rfl
    · unfold Environment.mistake
      split <;> rfl
  | settings =>
    obtain ⟨raw, -, rfl⟩ | ⟨-, raw, -, rfl⟩ := h <;> rfl
  | dialect =>
    obtain ⟨-, rfl⟩ := h
    rfl
  | kind =>
    obtain ⟨-, rfl⟩ := h
    rfl
  | compilation =>
    obtain ⟨c, d, kind, e, -, -, rfl⟩ := h
    rfl

/-- Requests that fail with one message fail at one stage. -/
theorem Target.FailsFirst.stage_eq_of_message_eq {refusal refusal' : Refusal} (h : t.FailsFirst s finish stage f)
    (h' : t'.FailsFirst s' finish' stage' f') (hm : f.message refusal = f'.message refusal') : stage = stage' := by
  rw [← h.1.stage_eq, ← h'.1.stage_eq]
  exact CommandLine.stage_eq_of_message_eq hm

end

end CommandLine

end SearchFilter
