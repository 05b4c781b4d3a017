import SearchFilter.Json.Text
import SearchFilter.Number.Numeral

/-!
# JSON tokens

A JSON text is cut into brackets, commas, colons, names, numbers and strings; blanks, tabs and
line ends between them do not matter.
-/

namespace SearchFilter.Json

inductive Token
  | openArray
  | closeArray
  | openObject
  | closeObject
  | comma
  | colon
  | null
  | bool (b : Bool)
  | number (n : Numeral)
  | string (ps : List Piece)
  deriving DecidableEq, Repr

def isSpace (c : Char) : Bool :=
  c = ' ' || c = '\t' || c = '\n' || c = '\r'

/-- JSON has no plus sign in front, no zero before other digits and a digit on both sides of the
point. -/
def isNumber (n : Numeral) : Bool :=
  n.sign ≠ some .plus && (n.whole = ['0'] || (n.whole ≠ [] && n.whole.head? ≠ some '0')) && n.fraction ≠ some []

namespace Token

def next? : List Char → Option (Token × List Char)
  | '[' :: cs => some (openArray, cs)
  | ']' :: cs => some (closeArray, cs)
  | '{' :: cs => some (openObject, cs)
  | '}' :: cs => some (closeObject, cs)
  | ',' :: cs => some (comma, cs)
  | ':' :: cs => some (colon, cs)
  | 'n' :: 'u' :: 'l' :: 'l' :: cs => some (null, cs)
  | 't' :: 'r' :: 'u' :: 'e' :: cs => some (bool true, cs)
  | 'f' :: 'a' :: 'l' :: 's' :: 'e' :: cs => some (bool false, cs)
  | '"' :: cs => (Piece.scan? cs).map fun (ps, rest) => (string (Piece.pair ps), rest)
  | cs =>
    match Numeral.scan? cs with
    | some (n, rest) => if isNumber n then some (number n, rest) else none
    | none => none

theorem next?_rest_length_lt {cs rest : List Char} {t : Token} (h : next? cs = some (t, rest)) :
    rest.length < cs.length := by
  unfold next? at h
  split at h
  case h_10 cs =>
    simp only [Option.map_eq_some_iff, Prod.mk.injEq, Prod.exists] at h
    obtain ⟨ps, r, hr, -, rfl⟩ := h
    have := Piece.scan?_rest_length_lt hr
    simp only [List.length_cons]; omega
  case h_11 =>
    split at h
    · rename_i n r hn
      split at h
      · simp only [Option.some.injEq, Prod.mk.injEq] at h
        obtain ⟨-, rfl⟩ := h
        exact Numeral.scan?_rest_length_lt hn
      · exact absurd h (by simp)
    · exact absurd h (by simp)
  all_goals
    simp only [Option.some.injEq, Prod.mk.injEq] at h
    obtain ⟨-, rfl⟩ := h
    simp only [List.length_cons]; omega

def text : Token → List Char
  | openArray => ['[']
  | closeArray => [']']
  | openObject => ['{']
  | closeObject => ['}']
  | comma => [',']
  | colon => [':']
  | null => "null".toList
  | bool true => "true".toList
  | bool false => "false".toList
  | number n => n.text
  | string ps => '"' :: (ps.flatMap Piece.written ++ ['"'])

end Token

/-- The tokens of a text, or `none` if some part of it is no token. -/
def tokens? (cs : List Char) : Option (List Token) :=
  match h : cs.dropWhile isSpace with
  | [] => some []
  | c :: ds =>
    match hn : Token.next? (c :: ds) with
    | some (t, rest) =>
      have : rest.length < cs.length := by
        have h1 := Token.next?_rest_length_lt hn
        have h2 := (List.dropWhile_suffix isSpace (l := cs)).length_le
        rw [h] at h2
        omega
      (tokens? rest).map (t :: ·)
    | none => none
termination_by cs.length

end SearchFilter.Json
