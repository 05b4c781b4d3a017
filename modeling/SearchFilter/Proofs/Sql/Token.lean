import SearchFilter.Proofs.Number.Layout
import SearchFilter.Proofs.Sql.Literal

/-!
# Values written without quotes

Every value but a text is written as one token: no character of it can end the token or open
something else.
-/

namespace SearchFilter.Sql

def isTokenChar (c : Char) : Bool :=
  c ∉ [' ', ',', '(', ')', '\'', '"', '`']

theorem isTokenChar_of_isAlphanum {c : Char} (h : c.isAlphanum = true) : isTokenChar c = true := by
  rw [isTokenChar, decide_eq_true_eq]
  intro hm
  have hall : [' ', ',', '(', ')', '\'', '"', '`'].all (fun x => !x.isAlphanum) = true := by decide
  have hc := List.all_eq_true.1 hall c hm
  rw [h] at hc
  cases hc

def IsToken (cs : List Char) : Prop :=
  cs ≠ [] ∧ ∀ c ∈ cs, isTokenChar c = true

theorem isToken_ofInt (i : Int) : IsToken (Numeral.ofInt i).text := by
  refine ⟨Numeral.text_ofInt_ne_nil i, fun c hc => ?_⟩
  rcases Numeral.mem_text_ofInt hc with rfl | hc
  · decide
  · exact isTokenChar_of_isAlphanum (by simp [Char.isAlphanum, hc])

theorem isToken_float (x : Binary64) : IsToken x.text := by
  refine ⟨x.text_ne_nil, fun c hc => ?_⟩
  rcases x.mem_text hc with h | rfl | rfl
  · exact isTokenChar_of_isAlphanum h
  · decide
  · decide

theorem isToken_quoteValue (d : Dialect) {v : Value} (h : ∀ s, v ≠ .text s) : IsToken (d.quoteValue v).toList := by
  cases v with
  | text s => exact absurd rfl (h s)
  | int n =>
    show IsToken (String.ofList _).toList
    rw [String.toList_ofList]
    exact isToken_ofInt n.toInt
  | float x =>
    show IsToken (String.ofList _).toList
    rw [String.toList_ofList]
    exact isToken_float x
  | bool b => cases d <;> cases b <;> exact ⟨by decide, List.all_eq_true.1 (by decide)⟩
  | null => cases d <;> exact ⟨by decide, List.all_eq_true.1 (by decide)⟩

end SearchFilter.Sql
