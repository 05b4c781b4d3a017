import SearchFilter.CommandLine.Request
import SearchFilter.Proofs.CommandLine.Answer

/-!
# Command lines

The arguments of a command are its options, each spelled in one or in two words. Every list of
options in which only values come more than once is read, however it is spelled, and nothing else.
What is read is answered as the request for these options (`answer_of_spelled`).
-/

namespace SearchFilter.CommandLine

/-! ## Words -/

def IsValue (word : String) : Prop :=
  word = "-" ∨ word.toList.head? ≠ some '-'

/-- An option in one word, its value behind `=` if it is attached. -/
def longText (name : String) : Option String → String
  | none => "--" ++ name
  | some value => "--" ++ name ++ "=" ++ value

namespace Argument

theorem takeWhile_ne {cs : List Char} (h : '=' ∉ cs) (rest : List Char) (hr : rest.head? = some '=' ∨ rest = []) :
    (cs ++ rest).takeWhile (· ≠ '=') = cs ∧ (cs ++ rest).dropWhile (· ≠ '=') = rest := by
  have hcs : ∀ c ∈ cs, decide (c ≠ '=') = true := by
    intro c hc
    simpa using fun he : c = '=' => h (he ▸ hc)
  rw [List.takeWhile_append_of_pos hcs, List.dropWhile_append_of_pos hcs]
  cases rest with
  | nil => simp
  | cons c rest =>
    obtain rfl : c = '=' := by simpa using hr
    simp

theorem ofString_longText {name : String} (hn : name ≠ "") (he : '=' ∉ name.toList) (attached : Option String) :
    ofString (longText name attached) = .long name attached := by
  obtain ⟨c, cs, hc⟩ := List.exists_cons_of_ne_nil (mt String.toList_eq_nil_iff.1 hn)
  cases attached with
  | none =>
    have htext : (longText name none).toList = '-' :: '-' :: c :: cs := by simp [longText, hc]
    have hsplit := takeWhile_ne he [] (Or.inr rfl)
    rw [List.append_nil, hc] at hsplit
    rw [ofString, htext]
    simp only [hsplit]
    rw [← hc, String.ofList_toList]
  | some value =>
    have htext : (longText name (some value)).toList = '-' :: '-' :: (c :: cs ++ '=' :: value.toList) := by
      simp [longText, hc]
    have hsplit := takeWhile_ne he ('=' :: value.toList) (Or.inl rfl)
    rw [hc] at hsplit
    rw [ofString, htext]
    simp only [List.cons_append] at hsplit ⊢
    simp only [hsplit]
    rw [← hc, String.ofList_toList, String.ofList_toList]

theorem eq_of_ofString_long {arg name : String} {attached : Option String} (h : ofString arg = .long name attached) :
    arg = longText name attached := by
  rw [← String.toList_inj]
  unfold ofString at h
  split at h
  · cases h
  · rename_i cs _ harg
    have hsplit := List.takeWhile_append_dropWhile (p := (· ≠ '=')) (l := cs)
    dsimp only at h
    split at h
    · rename_i hd
      cases h
      rw [hd, List.append_nil] at hsplit
      simp only [harg, longText, String.toList_append, String.toList_ofList]
      exact congrArg (['-', '-'] ++ ·) hsplit.symm
    · rename_i c value hd
      cases h
      have hc := List.head?_dropWhile_not (· ≠ '=') cs
      rw [hd] at hc hsplit
      obtain rfl : c = '=' := by simpa using hc
      simp only [harg, longText, String.toList_append, String.toList_ofList, List.append_assoc]
      exact congrArg (['-', '-'] ++ ·) hsplit.symm
  · cases h
  · cases h

theorem eq_of_ofString_endOfOptions {arg : String} (h : ofString arg = .endOfOptions) : arg = "--" := by
  rw [← String.toList_inj]
  unfold ofString at h
  split at h
  · rename_i harg
    exact harg
  · dsimp only at h
    split at h <;> cases h
  · cases h
  · cases h

theorem ofString_eq_word_iff (word : String) : ofString word = .word ↔ IsValue word := by
  have hdash : word = "-" ↔ word.toList = ['-'] := String.toList_inj.symm
  unfold IsValue ofString
  rw [hdash]
  generalize word.toList = cs
  split
  · simp
  · dsimp only
    split <;> simp
  · simp
  · -- no dash in front of another character
    rename_i hshort
    refine iff_of_true rfl ?_
    cases cs with
    | nil => simp
    | cons c cs =>
      cases cs with
      | nil => simpa using Decidable.em (c = '-')
      | cons d cs => exact Or.inr fun hc => hshort d cs (by rw [Option.some.inj hc])

end Argument

/-! ## Options -/

section
variable (option? : String → Option OptionKind)

/-- The words that the options are spelled in. A mark may stand behind the last of them. -/
inductive Spelled : List String → Given → Prop
  | nil : Spelled [] []
  | mark : Spelled ["--"] []
  | flag {name words g} (hk : option? name = some .flag) (h : Spelled words g) :
      Spelled (longText name none :: words) ((name, "") :: g)
  | attached {name value kind words g} (hk : option? name = some kind) (hv : kind ≠ .flag) (h : Spelled words g) :
      Spelled (longText name (some value) :: words) ((name, value) :: g)
  | apart {name value kind words g} (hk : option? name = some kind) (hv : kind ≠ .flag) (hw : IsValue value)
      (h : Spelled words g) : Spelled (longText name none :: value :: words) ((name, value) :: g)

def NoRepeats (g : Given) : Prop :=
  g.Pairwise fun a b => a.1 = b.1 → option? a.1 = some .values

def Named : Prop :=
  ∀ name kind, option? name = some kind → name ≠ "" ∧ '=' ∉ name.toList

end

section
variable {option? : String → Option OptionKind} {kind : OptionKind} {name value : String} {g h : Given}

theorem add?_eq_some_iff (hk : option? name = some kind) (hg : NoRepeats option? g) (g' : Given) :
    g.add? kind name value = some g' ↔ g' = g ++ [(name, value)] ∧ NoRepeats option? (g ++ [(name, value)]) := by
  have hrepeats : NoRepeats option? (g ++ [(name, value)]) ↔ ¬ (kind ≠ .values ∧ g.any (·.1 = name) = true) := by
    unfold NoRepeats at hg ⊢
    rw [List.pairwise_append]
    simp only [hg, true_and, List.pairwise_singleton, List.mem_singleton, forall_eq, List.any_eq_true, decide_eq_true_eq]
    constructor
    · rintro h ⟨hv, a, ha, rfl⟩
      exact hv (Option.some.inj (hk.symm.trans (h a ha rfl)))
    · rintro h a ha rfl
      refine Decidable.byContradiction fun hv => h ⟨fun he => hv (hk.trans (congrArg some he)), a, ha, rfl⟩
  unfold Given.add?
  rw [hrepeats]
  split
  · rename_i hc
    exact iff_of_false (Option.some_ne_none g').symm fun h => h.2 hc
  · rename_i hc
    exact ⟨fun h => ⟨(Option.some.inj h).symm, hc⟩, fun h => congrArg some h.1.symm⟩

theorem add?_of_noRepeats (hk : option? name = some kind) (hg : NoRepeats option? (g ++ (name, value) :: h)) :
    g.add? kind name value = some (g ++ [(name, value)]) := by
  have hprefix : NoRepeats option? (g ++ [(name, value)]) := by
    rw [List.append_cons] at hg
    exact List.Pairwise.sublist (List.sublist_append_left _ h) hg
  have hg' : NoRepeats option? g := List.Pairwise.sublist (List.sublist_append_left g _) hprefix
  exact (add?_eq_some_iff hk hg' _).2 ⟨rfl, hprefix⟩

/-- Options are read from the words they are spelled in. -/
theorem readOptions_of_spelled (hn : Named option?) {words : List String} (hs : Spelled option? words h)
    (hg : NoRepeats option? (g ++ h)) : readOptions option? g words = .ok (g ++ h) := by
  induction hs generalizing g with
  | nil => rw [List.append_nil, readOptions]
  | mark => rw [List.append_nil]; rfl
  | @flag name words h hk hs ih =>
    obtain ⟨hne, he⟩ := hn name _ hk
    have hadd := add?_of_noRepeats hk hg
    rw [List.append_cons] at hg ⊢
    rw [readOptions, Argument.ofString_longText hne he]
    simp only [hk, hadd, Stop.unless]
    exact ih hg
  | @attached name value kind words h hk hv hs ih =>
    obtain ⟨hne, he⟩ := hn name _ hk
    have hadd := add?_of_noRepeats hk hg
    rw [List.append_cons] at hg ⊢
    rw [readOptions, Argument.ofString_longText hne he]
    cases kind with
    | flag => exact absurd rfl hv
    | _ =>
      simp only [hk, hadd, Stop.unless]
      exact ih hg
  | @apart name value kind words h hk hv hw hs ih =>
    obtain ⟨hne, he⟩ := hn name _ hk
    have hadd := add?_of_noRepeats hk hg
    rw [List.append_cons] at hg ⊢
    rw [readOptions, Argument.ofString_longText hne he]
    cases kind with
    | flag => exact absurd rfl hv
    | _ =>
      simp only [hk, hadd, Stop.unless, if_pos ((Argument.ofString_eq_word_iff value).2 hw)]
      exact ih hg

theorem spelled_of_step {words : List String} {g' : Given} (hk : option? name = some kind) (hg : NoRepeats option? g)
    (ih : ∀ g₁, NoRepeats option? g₁ → readOptions option? g₁ words = .ok g' →
      ∃ h, Spelled option? words h ∧ g' = g₁ ++ h ∧ NoRepeats option? g')
    (hr : (do readOptions option? (← Stop.unless (g.add? kind name value)) words) = .ok g') :
    ∃ h, Spelled option? words h ∧ g' = g ++ (name, value) :: h ∧ NoRepeats option? g' := by
  cases hadd : g.add? kind name value with
  | none =>
    rw [hadd] at hr
    cases hr
  | some g₁ =>
    rw [hadd] at hr
    obtain ⟨rfl, hg₁⟩ := (add?_eq_some_iff hk hg g₁).1 hadd
    obtain ⟨h, hs, hg', hn⟩ := ih _ hg₁ hr
    exact ⟨h, hs, hg'.trans (List.append_cons g (name, value) h).symm, hn⟩

/-- Words that are read are the spelling of what is read. -/
theorem spelled_of_readOptions {words : List String} {g' : Given} (hg : NoRepeats option? g)
    (hr : readOptions option? g words = .ok g') :
    ∃ h, Spelled option? words h ∧ g' = g ++ h ∧ NoRepeats option? g' := by
  fun_induction readOptions option? g words with
  | case1 g =>
    cases hr
    exact ⟨[], .nil, (List.append_nil g').symm, hg⟩
  | case3 g arg harg =>
    cases hr
    rw [Argument.eq_of_ofString_endOfOptions harg]
    exact ⟨[], .mark, (List.append_nil g').symm, hg⟩
  | case8 g arg words name hk harg ih =>
    obtain ⟨h, hs, hg', hn⟩ := spelled_of_step hk hg ih hr
    rw [Argument.eq_of_ofString_long harg]
    exact ⟨_, .flag hk hs, hg', hn⟩
  | case10 g arg words name kind value hv hk harg ih =>
    obtain ⟨h, hs, hg', hn⟩ := spelled_of_step hk hg ih hr
    rw [Argument.eq_of_ofString_long harg]
    exact ⟨_, .attached hk hv hs, hg', hn⟩
  | case12 g arg name kind hv hk value words hw harg ih =>
    obtain ⟨h, hs, hg', hn⟩ := spelled_of_step hk hg ih hr
    rw [Argument.eq_of_ofString_long harg]
    exact ⟨_, .apart hk hv ((Argument.ofString_eq_word_iff value).1 hw) hs, hg', hn⟩
  | _ => cases hr

theorem readOptions_eq_ok_iff (hn : Named option?) (words : List String) (g : Given) :
    readOptions option? [] words = .ok g ↔ Spelled option? words g ∧ NoRepeats option? g := by
  constructor
  · intro hr
    obtain ⟨h, hs, rfl, hg⟩ := spelled_of_readOptions List.Pairwise.nil hr
    exact ⟨hs, hg⟩
  · rintro ⟨hs, hg⟩
    exact readOptions_of_spelled hn hs hg

end

/-! ## Requests -/

theorem named_targetOption? : Named targetOption? := by
  intro name kind h
  unfold targetOption? at h
  split at h
  · rename_i hmem
    have hnames : ∀ name ∈ ["catalog", "field", "type", "dialect", "env-file"], name ≠ "" ∧ '=' ∉ name.toList := by
      decide
    exact hnames name hmem
  · cases h

theorem named_compileOption? : Named compileOption? := by
  intro name kind h
  unfold compileOption? at h
  split at h
  · rename_i hv
    rw [hv]
    decide
  · split at h
    · rename_i hq
      rw [hq]
      decide
    · split at h
      · rename_i hf
        rcases hf with rfl | rfl <;> decide
      · exact named_targetOption? name kind h

theorem compileRequest_eq_ok_iff (words : List String) (t : Target) (values : List String) (asSet negated : Bool)
    (query : String) :
    compileRequest words = .ok (.compile t values asSet negated query) ↔ ∃ g, Spelled compileOption? words g ∧
      NoRepeats compileOption? g ∧ g.target? = some t ∧ values = g.all "value" ∧ asSet = g.has "set" ∧
      negated = g.has "negate" ∧ query = (g.get? "query").getD "" := by
  unfold compileRequest
  constructor
  · intro h
    cases hr : readOptions compileOption? [] words with
    | error stop =>
      rw [hr] at h
      cases h
    | ok g =>
      obtain ⟨hs, hg⟩ := (readOptions_eq_ok_iff named_compileOption? words g).1 hr
      rw [hr] at h
      cases ht : g.target? with
      | none =>
        simp only [bind, Except.bind, ht, Stop.unless] at h
        cases h
      | some t' =>
        simp only [bind, Except.bind, ht, Stop.unless] at h
        cases h
        exact ⟨g, hs, hg, ht, rfl, rfl, rfl, rfl⟩
  · rintro ⟨g, hs, hg, ht, rfl, rfl, rfl, rfl⟩
    rw [(readOptions_eq_ok_iff named_compileOption? words g).2 ⟨hs, hg⟩]
    simp only [bind, Except.bind, ht, Stop.unless]
    rfl

theorem exists_explain_of_explainRequest {words : List String} {request : Request}
    (h : explainRequest words = .ok request) : ∃ t, request = .explain t := by
  unfold explainRequest at h
  cases hr : readOptions targetOption? [] words with
  | error stop =>
    rw [hr] at h
    cases h
  | ok g =>
    rw [hr] at h
    cases ht : g.target? with
    | none =>
      simp only [bind, Except.bind, ht, Stop.unless] at h
      cases h
    | some t =>
      simp only [bind, Except.bind, ht, Stop.unless] at h
      cases h
      exact ⟨t, rfl⟩

/-- The arguments that ask for a filter to be compiled, and what they ask for. -/
theorem ofArguments?_eq_some_compile_iff (args : List String) (t : Target) (values : List String)
    (asSet negated : Bool) (query : String) :
    Request.ofArguments? args = some (.compile t values asSet negated query) ↔
      ∃ words g, args = "compile" :: words ∧ Spelled compileOption? words g ∧
        NoRepeats compileOption? g ∧ g.target? = some t ∧ values = g.all "value" ∧ asSet = g.has "set" ∧
        negated = g.has "negate" ∧ query = (g.get? "query").getD "" := by
  constructor
  · intro h
    unfold Request.ofArguments? at h
    dsimp only at h
    split at h
    · rename_i request hread
      cases h
      -- of the commands only one asks for this, and what needs no command never does
      split at hread
      · rename_i words
        obtain ⟨g, hg⟩ := (compileRequest_eq_ok_iff words t values asSet negated query).1 hread
        exact ⟨words, g, rfl, hg⟩
      · obtain ⟨t', ht'⟩ := exists_explain_of_explainRequest hread
        cases ht'
      · cases hread
      · split at hread <;> cases hread
      · split at hread <;> cases hread
      · cases hread
    · cases h
    · cases h
  · rintro ⟨words, g, rfl, hg⟩
    have hread := (compileRequest_eq_ok_iff words t values asSet negated query).2 ⟨g, hg⟩
    unfold Request.ofArguments?
    simp only [hread]

/-- Words that spell the options of a filter are answered with its fragment, or with the failure of
the first stage that fails. -/
theorem answer_of_spelled (s : Surroundings) {words : List String} {g : Given} {t : Target}
    (hs : Spelled compileOption? words g) (hg : NoRepeats compileOption? g) (ht : g.target? = some t) :
    ∃ request operand, Request.ofArguments? ("compile" :: words) = some request ∧
      Selected (g.all "value") (g.has "set") operand ∧
      (∀ text, request.answer s = .ok text ↔ ∃ c d kind fragment, t.Gives s c d kind ∧
        c.compile d Filter.tableAlias ⟨t.field, kind, operand⟩ (g.has "negate") ((g.get? "query").getD "") = .ok fragment ∧
          text = fragment ++ "\n") ∧
      ∀ f, request.answer s = .error f ↔ ∃ stage, t.FailsFirst s (fun c d kind =>
        c.compile d Filter.tableAlias ⟨t.field, kind, operand⟩ (g.has "negate") ((g.get? "query").getD "")) stage f := by
  have hread := (ofArguments?_eq_some_compile_iff ("compile" :: words) t _ _ _ _).2
    ⟨words, g, rfl, hs, hg, ht, rfl, rfl, rfl, rfl⟩
  exact ⟨_, operand (g.all "value") (g.has "set"), hread, selected_operand _ _,
    answer_compile_eq_ok_iff s t _ _ _ _, answer_compile_eq_error_iff s t _ _ _ _⟩

end SearchFilter.CommandLine
