/-!
# The last write

A state is changed in steps, each of which writes to one part of it and leaves the others alone.
A part is then what was written to it last, or what it was at the start.
-/

namespace SearchFilter

theorem filterMap_cons_append {α β : Type} (f : α → Option β) (a : α) (as : List α) :
    (a :: as).filterMap f = (f a).toList ++ as.filterMap f := by
  rw [List.filterMap_cons]
  cases f a <;> rfl

theorem getLast?_filterMap_cons {α β : Type} (f : α → Option β) (a : α) (as : List α) (b? : Option β) :
    ((a :: as).filterMap f).getLast?.or b? = (as.filterMap f).getLast?.or ((f a).or b?) := by
  rw [filterMap_cons_append, List.getLast?_append, Option.or_assoc]
  cases f a <;> rfl

def lastWrite? {α β : Type} (written? : α → Option β) (steps : List α) : Option β :=
  (steps.filterMap written?).getLast?

theorem lastWrite?_eq_some_iff {α β : Type} {written? : α → Option β} {steps : List α} {b : β} :
    lastWrite? written? steps = some b ↔
      ∃ earlier a later, steps = earlier ++ a :: later ∧ written? a = some b ∧ ∀ x ∈ later, written? x = none := by
  rw [lastWrite?, List.getLast?_filterMap, List.findSome?_eq_some_iff]
  constructor
  · intro ⟨later, a, earlier, hsteps, ha, hlater⟩
    refine ⟨earlier.reverse, a, later.reverse, ?_, ha, fun x hx => hlater x (List.mem_reverse.1 hx)⟩
    rw [← List.reverse_reverse steps, hsteps]
    simp
  · intro ⟨earlier, a, later, hsteps, ha, hlater⟩
    refine ⟨later.reverse, a, earlier.reverse, ?_, ha, fun x hx => hlater x (List.mem_reverse.1 hx)⟩
    rw [hsteps]
    simp

theorem lastWrite?_eq_none_iff {α β : Type} {written? : α → Option β} {steps : List α} :
    lastWrite? written? steps = none ↔ ∀ a ∈ steps, written? a = none := by
  rw [lastWrite?, List.getLast?_eq_none_iff, List.filterMap_eq_nil_iff]

/-- If a step shows in a part of the state as what it writes there, a run shows as its last write. -/
theorem foldl_lastWrite {σ α β γ : Type} {step : σ → α → σ} (view : σ → γ) {written? : α → Option β}
    {shown : β → γ}
    (h : ∀ s a, view (step s a) = (written? a).elim (view s) shown) (s : σ) (steps : List α) :
    view (steps.foldl step s) = (lastWrite? written? steps).elim (view s) shown := by
  induction steps generalizing s with
  | nil => rfl
  | cons a as ih =>
    have hlast := getLast?_filterMap_cons written? a as none
    rw [Option.or_none, Option.or_none] at hlast
    rw [List.foldl_cons, ih, h, lastWrite?, lastWrite?, hlast]
    cases (as.filterMap written?).getLast? <;> rfl

end SearchFilter
