import SearchFilter.Text.Alphanumeric
import SearchFilter.Text.Quoted

/-!
# Tokens of a condition

A condition is cut from left to right into string literals, quoted names, words and single
other characters. `quote` is the character that encloses names. The apostrophe opens a literal,
and so does the double quote where it does not enclose names; inside a literal a backslash takes
the next character with it, and a doubled delimiter stands for one. A literal or a quoted name
that is never closed runs to the end of the text.
-/

namespace SearchFilter.Query
open SearchFilter.Text

inductive Token
  | literal (delimiter : Char) (body : List Char) (closed : Bool)
  | name (body : List Char) (closed : Bool)
  | word (chars : List Char)
  | symbol (char : Char)
  deriving DecidableEq, Repr

def isWordChar (c : Char) : Bool :=
  isAlphanumeric c || c = '_' || c = '$'

def opensLiteral (quote c : Char) : Bool :=
  c = '\'' || (c = '"' && quote ≠ '"')

/-- Reads what follows the opening delimiter of a literal, escapes left as they are written. -/
def literalBody (delimiter : Char) : List Char → Enclosed
  | [] => ⟨[], false, []⟩
  | '\\' :: [] => ⟨['\\'], false, []⟩
  | '\\' :: c :: cs => (literalBody delimiter cs).prepend ['\\', c]
  | c :: cs =>
    if c = delimiter then
      match cs with
      | [] => ⟨[], true, []⟩
      | d :: ds =>
        if d = delimiter then (literalBody delimiter ds).prepend [delimiter, delimiter]
        else ⟨[], true, d :: ds⟩
    else (literalBody delimiter cs).prepend [c]

def Token.next (quote c : Char) (cs : List Char) : Token × List Char :=
  if opensLiteral quote c then
    let inside := literalBody c cs
    (.literal c inside.body inside.closed, inside.rest)
  else if c = quote then
    let inside := unquote quote cs
    (.name inside.body inside.closed, inside.rest)
  else if isWordChar c then
    (.word (c :: cs.takeWhile isWordChar), cs.dropWhile isWordChar)
  else (.symbol c, cs)

def Token.text (quote : Char) : Token → List Char
  | .literal d body closed => d :: (body ++ closing d closed)
  | .name body closed => quote :: (double quote body ++ closing quote closed)
  | .word cs => cs
  | .symbol c => [c]

theorem literalBody_text (delimiter : Char) (cs : List Char) :
    (literalBody delimiter cs).body ++
      (closing delimiter (literalBody delimiter cs).closed ++ (literalBody delimiter cs).rest) = cs := by
  fun_induction literalBody delimiter cs with
  | case1 => rfl
  | case2 => rfl
  | case3 c cs ih =>
    rw [Enclosed.prepend_body, Enclosed.prepend_closed, Enclosed.prepend_rest, List.append_assoc, ih]
    rfl
  | case4 => rfl
  | case5 ds _ _ ih =>
    rw [Enclosed.prepend_body, Enclosed.prepend_closed, Enclosed.prepend_rest, List.append_assoc, ih]
    rfl
  | case6 => rfl
  | case7 c cs _ _ _ ih =>
    rw [Enclosed.prepend_body, Enclosed.prepend_closed, Enclosed.prepend_rest, List.append_assoc, ih]
    rfl

/-- A token and what is behind it make up the text it was read from. -/
theorem Token.next_text (quote c : Char) (cs : List Char) :
    (Token.next quote c cs).1.text quote ++ (Token.next quote c cs).2 = c :: cs := by
  unfold Token.next
  split
  · simp only [Token.text, List.cons_append, List.append_assoc, literalBody_text]
  · split
    · rename_i hq
      subst hq
      simp only [Token.text, List.cons_append, List.append_assoc, unquote_text]
    · split
      · simp [Token.text]
      · rfl

theorem literalBody_rest_length_le (delimiter : Char) (cs : List Char) :
    (literalBody delimiter cs).rest.length ≤ cs.length := by
  fun_induction literalBody delimiter cs with
  | case1 => simp
  | case2 => simp
  | case3 c cs ih => simp only [Enclosed.prepend_rest, List.length_cons]; omega
  | case4 => simp
  | case5 => simp only [Enclosed.prepend_rest, List.length_cons]; omega
  | case6 => simp
  | case7 => simp only [Enclosed.prepend_rest, List.length_cons]; omega

theorem Token.next_rest_length_le (quote c : Char) (cs : List Char) :
    (Token.next quote c cs).2.length ≤ cs.length := by
  unfold Token.next
  split
  · exact literalBody_rest_length_le c cs
  · split
    · exact unquote_rest_length_le quote cs
    · split
      · exact (List.dropWhile_suffix isWordChar).length_le
      · exact Nat.le_refl _

def tokens (quote : Char) : List Char → List Token
  | [] => []
  | c :: cs => (Token.next quote c cs).1 :: tokens quote (Token.next quote c cs).2
termination_by cs => cs.length
decreasing_by
  have := Token.next_rest_length_le quote c cs
  simp only [List.length_cons]; omega

def textOf (quote : Char) (ts : List Token) : List Char :=
  ts.flatMap (Token.text quote)

/-- Cutting a text into tokens loses nothing. -/
theorem textOf_tokens (quote : Char) (cs : List Char) : textOf quote (tokens quote cs) = cs := by
  fun_induction tokens quote cs with
  | case1 => rfl
  | case2 c cs ih =>
    have h := Token.next_text quote c cs
    rw [textOf, List.flatMap_cons]
    rw [textOf] at ih
    rw [ih, h]

end SearchFilter.Query
