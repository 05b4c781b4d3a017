/-!
# JSON strings

A JSON string is a sequence of characters and of surrogates that stand alone. Only an escape can
write a surrogate; a high one followed by a low one makes up a character. What has a surrogate
left over is a JSON string but no text.
-/

namespace SearchFilter.Json

inductive Piece
  | char (c : Char)
  | surrogate (unit : Nat)
  deriving DecidableEq, Repr

namespace Piece

def isHigh (unit : Nat) : Bool := 0xD800 ≤ unit && unit < 0xDC00

def isLow (unit : Nat) : Bool := 0xDC00 ≤ unit && unit < 0xE000

/-- What the escape with this 16-bit unit stands for. -/
def ofUnit (unit : Nat) : Piece :=
  if isHigh unit || isLow unit then surrogate unit else char (Char.ofNat unit)

/-- Each high surrogate directly before a low one becomes the character they encode. -/
def pair : List Piece → List Piece
  | surrogate high :: surrogate low :: ps =>
    if isHigh high && isLow low then
      char (Char.ofNat (0x10000 + (high - 0xD800) * 0x400 + (low - 0xDC00))) :: pair ps
    else surrogate high :: pair (surrogate low :: ps)
  | p :: ps => p :: pair ps
  | [] => []

def ofText (s : String) : List Piece :=
  s.toList.map char

def char? : Piece → Option Char
  | char c => some c
  | surrogate _ => none

def text? (ps : List Piece) : Option String :=
  (ps.mapM char?).map String.ofList

def hexDigit? (c : Char) : Option Nat :=
  if c.isDigit then some (c.toNat - '0'.toNat)
  else if 'a' ≤ c ∧ c ≤ 'f' then some (c.toNat - 'a'.toNat + 10)
  else if 'A' ≤ c ∧ c ≤ 'F' then some (c.toNat - 'A'.toNat + 10)
  else none

def unit? (a b c d : Char) : Option Nat := do
  let a ← hexDigit? a
  let b ← hexDigit? b
  let c ← hexDigit? c
  let d ← hexDigit? d
  return ((a * 16 + b) * 16 + c) * 16 + d

def escaped? : Char → Option Char
  | '"' => some '"'
  | '\\' => some '\\'
  | '/' => some '/'
  | 'b' => some '\x08'
  | 'f' => some '\x0c'
  | 'n' => some '\n'
  | 'r' => some '\r'
  | 't' => some '\t'
  | _ => none

/-- Reads what follows the opening quote up to the closing one, and what is behind that. A control
character must be escaped. -/
def scan? : List Char → Option (List Piece × List Char)
  | [] => none
  | '"' :: cs => some ([], cs)
  | '\\' :: 'u' :: a :: b :: c :: d :: cs => do
    let unit ← unit? a b c d
    let (ps, rest) ← scan? cs
    return (ofUnit unit :: ps, rest)
  | '\\' :: e :: cs => do
    let c ← escaped? e
    let (ps, rest) ← scan? cs
    return (char c :: ps, rest)
  | c :: cs =>
    if c.toNat < 0x20 then none
    else do
      let (ps, rest) ← scan? cs
      return (char c :: ps, rest)

def hex (n : Nat) : Char := Nat.digitChar (n % 16)

def unitText (unit : Nat) : List Char :=
  ['\\', 'u', hex (unit / 4096), hex (unit / 256), hex (unit / 16), hex unit]

/-- How a piece is written: `"` and `\` and control characters escaped, all else as it is. -/
def written : Piece → List Char
  | surrogate unit => unitText unit
  | char '"' => ['\\', '"']
  | char '\\' => ['\\', '\\']
  | char '\x08' => ['\\', 'b']
  | char '\x0c' => ['\\', 'f']
  | char '\n' => ['\\', 'n']
  | char '\r' => ['\\', 'r']
  | char '\t' => ['\\', 't']
  | char c => if c.toNat < 0x20 then unitText c.toNat else [c]

theorem scan?_rest_length_lt {cs rest : List Char} {ps : List Piece} (h : scan? cs = some (ps, rest)) :
    rest.length < cs.length := by
  fun_induction scan? cs generalizing ps with
  | case1 => exact absurd h (by simp)
  | case2 cs =>
    simp only [Option.some.injEq, Prod.mk.injEq] at h
    obtain ⟨-, rfl⟩ := h
    simp
  | case3 a b c d cs ih =>
    simp only [Option.bind_eq_bind, Option.bind_eq_some_iff, Option.pure_def, Option.some.injEq] at h
    obtain ⟨unit, -, ⟨qs, r⟩, hr, h⟩ := h
    simp only [Prod.mk.injEq] at h
    obtain ⟨-, rfl⟩ := h
    have := ih hr
    simp only [List.length_cons]; omega
  | case4 e cs hu ih =>
    simp only [Option.bind_eq_bind, Option.bind_eq_some_iff, Option.pure_def, Option.some.injEq] at h
    obtain ⟨c, -, ⟨qs, r⟩, hr, h⟩ := h
    simp only [Prod.mk.injEq] at h
    obtain ⟨-, rfl⟩ := h
    have := ih hr
    simp only [List.length_cons]; omega
  | case5 => exact absurd h (by simp)
  | case6 c cs _ _ _ _ ih =>
    simp only [Option.bind_eq_bind, Option.bind_eq_some_iff, Option.pure_def, Option.some.injEq] at h
    obtain ⟨⟨qs, r⟩, hr, h⟩ := h
    simp only [Prod.mk.injEq] at h
    obtain ⟨-, rfl⟩ := h
    have := ih hr
    simp only [List.length_cons]; omega

end Piece

end SearchFilter.Json
