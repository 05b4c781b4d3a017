import SearchFilter.Number.Numeral

/-!
# 64-bit integers
-/

namespace SearchFilter.Numeral

def readInt64? (cs : List Char) : Option Int64 :=
  (read? cs).bind fun n =>
    if n.isInteger ∧ Int64.minValue.toInt ≤ n.integer ∧ n.integer ≤ Int64.maxValue.toInt then
      some (.ofInt n.integer)
    else none

end SearchFilter.Numeral
