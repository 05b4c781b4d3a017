import SearchFilter.Number.Int64
import SearchFilter.Value.Basic

/-!
# Values typed as words

A word that is a number, `true`, `false` or `null` means that value, and any other word is text.
An integer outside 64 bits is read as a floating point number, and a number too large for that
stays text.
-/

namespace SearchFilter

def Numeral.readBinary64? (cs : List Char) : Option Binary64 :=
  ((read? cs).map toBinary64).filter Binary64.isFinite

def Value.ofWord (word : String) : Value :=
  match Numeral.readInt64? word.toList with
  | some n => .int n
  | none =>
    match Numeral.readBinary64? word.toList with
    | some x => .float x
    | none =>
      if word = "true" then .bool true
      else if word = "false" then .bool false
      else if word = "null" ∨ word = "NULL" then .null
      else .text word

end SearchFilter
