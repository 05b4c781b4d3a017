import SearchFilter.Dialect
import SearchFilter.Query.Token

/-!
# Anchoring the columns of a condition

A condition speaks of a column by its bare or quoted name. Anchoring puts another text in the
place of each such reference, one for the bare and one for the quoted name. A reference next to
a dot is part of a longer path and stays, and so does everything else.
-/

namespace SearchFilter.Query

structure Anchor where
  column : List Char
  bare : List Char
  quoted : List Char
  deriving DecidableEq, Repr

def Token.isDot (t : Token) : Bool :=
  t = .symbol '.'

namespace Anchor

def replace (a : Anchor) (quote : Char) : Token → List Char
  | .word cs => if cs = a.column then a.bare else cs
  | .name body closed => if body = a.column then a.quoted else Token.text quote (.name body closed)
  | t => t.text quote

/-- The text for a list of tokens that comes directly after a dot or not. -/
def apply (a : Anchor) (quote : Char) (afterDot : Bool) : List Token → List Char
  | [] => []
  | t :: ts =>
    (if afterDot || ts.head?.any Token.isDot then t.text quote else a.replace quote t) ++
      a.apply quote t.isDot ts

end Anchor

/-- A quoted reference is replaced by the quoted path. -/
def anchorOf (d : Dialect) (column replacement : String) : Anchor :=
  ⟨column.toList, replacement.toList, (d.quotePath replacement).toList⟩

/-- The condition with each reference to `column` replaced. -/
def anchor (d : Dialect) (column replacement query : String) : String :=
  String.ofList ((anchorOf d column replacement).apply d.quote false (tokens d.quote query.toList))

end SearchFilter.Query
