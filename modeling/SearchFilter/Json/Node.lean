import SearchFilter.Json.Token

/-!
# JSON values

A text is one value with nothing behind it. Numbers stay as they are written and the members of
an object stay in their order, repeated keys included.
-/

namespace SearchFilter.Json

inductive Node
  | null
  | bool (b : Bool)
  | number (n : Numeral)
  | string (ps : List Piece)
  | array (items : List Node)
  | object (members : List (List Piece × Node))
  deriving Repr

namespace Node

mutual

def value? : Nat → List Token → Option (Node × List Token)
  | 0, _ => none
  | _ + 1, .null :: ts => some (null, ts)
  | _ + 1, .bool b :: ts => some (bool b, ts)
  | _ + 1, .number n :: ts => some (number n, ts)
  | _ + 1, .string ps :: ts => some (string ps, ts)
  | _ + 1, .openArray :: .closeArray :: ts => some (array [], ts)
  | fuel + 1, .openArray :: ts => (items? fuel ts).map fun (xs, ts) => (array xs, ts)
  | _ + 1, .openObject :: .closeObject :: ts => some (object [], ts)
  | fuel + 1, .openObject :: ts => (members? fuel ts).map fun (ms, ts) => (object ms, ts)
  | _ + 1, _ => none

def items? : Nat → List Token → Option (List Node × List Token)
  | 0, _ => none
  | fuel + 1, ts =>
    match value? fuel ts with
    | some (x, .comma :: ts) => (items? fuel ts).map fun (xs, ts) => (x :: xs, ts)
    | some (x, .closeArray :: ts) => some ([x], ts)
    | _ => none

def members? : Nat → List Token → Option (List (List Piece × Node) × List Token)
  | fuel + 1, .string key :: .colon :: ts =>
    match value? fuel ts with
    | some (x, .comma :: ts) => (members? fuel ts).map fun (ms, ts) => ((key, x) :: ms, ts)
    | some (x, .closeObject :: ts) => some ([(key, x)], ts)
    | _ => none
  | _, _ => none

end

/-- The value that the tokens make up. Each token is looked at by at most two nested calls. -/
def ofTokens? (ts : List Token) : Option Node :=
  match value? (2 * ts.length) ts with
  | some (x, []) => some x
  | _ => none

def parse? (s : String) : Option Node :=
  (tokens? s.toList).bind ofTokens?

mutual

def tokens : Node → List Token
  | null => [.null]
  | bool b => [.bool b]
  | number n => [.number n]
  | string ps => [.string ps]
  | array xs => .openArray :: (itemTokens xs ++ [.closeArray])
  | object ms => .openObject :: (memberTokens ms ++ [.closeObject])

def itemTokens : List Node → List Token
  | [] => []
  | [x] => x.tokens
  | x :: xs => x.tokens ++ .comma :: itemTokens xs

def memberTokens : List (List Piece × Node) → List Token
  | [] => []
  | [(key, x)] => .string key :: .colon :: x.tokens
  | (key, x) :: ms => .string key :: .colon :: (x.tokens ++ .comma :: memberTokens ms)

end

def compact (t : Node) : String :=
  String.ofList (t.tokens.flatMap Token.text)

def newline (indent : Nat) : List Char :=
  '\n' :: List.replicate indent ' '

mutual

/-- The value with each item and member on a line of its own, two more blanks in front of it than
in front of its container. -/
def lines (indent : Nat) : Node → List Char
  | array [] => "[]".toList
  | array xs => '[' :: (itemLines (indent + 2) xs ++ newline indent ++ [']'])
  | object [] => "\x7b\x7d".toList
  | object ms => '{' :: (memberLines (indent + 2) ms ++ newline indent ++ ['}'])
  | t => t.tokens.flatMap Token.text

def itemLines (indent : Nat) : List Node → List Char
  | [] => []
  | [x] => newline indent ++ x.lines indent
  | x :: xs => newline indent ++ x.lines indent ++ ',' :: itemLines indent xs

def memberLines (indent : Nat) : List (List Piece × Node) → List Char
  | [] => []
  | [(key, x)] => newline indent ++ (Token.string key).text ++ ": ".toList ++ x.lines indent
  | (key, x) :: ms =>
    newline indent ++ (Token.string key).text ++ ": ".toList ++ x.lines indent ++ ',' :: memberLines indent ms

end

def pretty (t : Node) : String :=
  String.ofList (t.lines 0)

def text (s : String) : Node :=
  string (Piece.ofText s)

def integer (n : Int64) : Node :=
  number (Numeral.ofInt n.toInt)

def record (members : List (String × Node)) : Node :=
  object (members.map fun (key, x) => (Piece.ofText key, x))

end Node

end SearchFilter.Json
