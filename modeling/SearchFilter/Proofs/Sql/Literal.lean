import SearchFilter.Proofs.Number.Numeral
import SearchFilter.Proofs.Query.Literal

/-!
# Literals of a dialect

How each dialect reads the literals of the queries that are sent to it: integers by their
numerals, texts by the rule of the dialect for what stands between apostrophes.
-/

namespace SearchFilter.Sql
open SearchFilter.Text SearchFilter.Query

def unescape : Char → Char
  | '0' => '\x00'
  | 'n' => '\n'
  | 'r' => '\r'
  | 'Z' => '\x1a'
  | c => c

def decode : List Char → List Char
  | '\\' :: c :: cs => unescape c :: decode cs
  | '\'' :: '\'' :: cs => '\'' :: decode cs
  | c :: cs => c :: decode cs
  | [] => []

def textBody : Dialect → List Char → Enclosed
  | .mysql, cs => { literalBody '\'' cs with body := decode (literalBody '\'' cs).body }
  | .postgres, cs => unquote '\'' cs

theorem decode_plain {c : Char} (cs : List Char) (hb : c ≠ '\\') (hq : c ≠ '\'') :
    decode (c :: cs) = c :: decode cs := by
  cases cs <;> simp [decode, hb, hq]

theorem decode_escape (c : Char) (cs : List Char) : decode (Dialect.escape c ++ cs) = c :: decode cs := by
  unfold Dialect.escape
  split
  case h_8 _ _ _ _ hb hq _ => exact decode_plain cs hb hq
  all_goals rfl

theorem decode_flatMap_escape (cs : List Char) : decode (cs.flatMap Dialect.escape) = cs := by
  induction cs with
  | nil => rfl
  | cons c cs ih => rw [List.flatMap_cons, decode_escape, ih]

/-- A text that the dialect has written is read back, whatever follows but an apostrophe. -/
theorem textBody_written (d : Dialect) (cs : List Char) {rest : List Char} (h : rest.head? ≠ some '\'') :
    textBody d (written d cs ++ '\'' :: rest) = ⟨cs, true, rest⟩ := by
  cases d with
  | mysql =>
    have hb : literalBody '\'' (cs.flatMap Dialect.escape ++ '\'' :: rest) =
        ⟨cs.flatMap Dialect.escape, true, rest⟩ := by
      rw [(inside_flatMap_escape cs).literalBody_append (by decide), literalBody_closing (by decide) h]
      simp [Enclosed.prepend]
    simp only [textBody, written, hb, decode_flatMap_escape]
  | postgres => exact unquote_double '\'' cs rest h

end SearchFilter.Sql
