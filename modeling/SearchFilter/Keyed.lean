/-!
# Dictionaries

A list of pairs with one pair per key, the one written last in front.
-/

namespace SearchFilter

abbrev Keyed (α : Type) := List (String × α)

namespace Keyed
variable {α : Type}

def put (key : String) (x : α) (m : Keyed α) : Keyed α :=
  (key, x) :: m.filter (·.1 ≠ key)

def get? (key : String) (m : Keyed α) : Option α :=
  (m.find? (·.1 = key)).map (·.2)

def ofPairs (ps : List (String × α)) : Keyed α :=
  ps.foldl (fun m (key, x) => put key x m) []

@[simp] theorem get?_put_self (key : String) (x : α) (m : Keyed α) : get? key (put key x m) = some x := by
  simp [get?, put]

theorem get?_put_of_ne {key other : String} (x : α) (m : Keyed α) (h : other ≠ key) :
    get? other (put key x m) = get? other m := by
  simp only [get?, put, List.find?_cons, Ne.symm h, decide_false, List.find?_filter]
  congr 2
  funext p
  by_cases hp : p.1 = other
  · simp [hp, h]
  · simp [hp]

end Keyed

end SearchFilter
