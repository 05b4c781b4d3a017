/-!
# Numerals

A numeral is a sign, digits, a point with digits, and an exponent, each kept as it is written.
Scanning takes the longest numeral that a text begins with:
`[+-]? (digits [. digits*] | . digits) ([eE] [+-]? digits)?`.
-/

namespace SearchFilter

inductive Sign
  | plus
  | minus
  deriving DecidableEq, Repr

def Sign.char : Sign → Char
  | .plus => '+'
  | .minus => '-'

/-- A power of ten; `mark` is the letter before it. -/
structure Exponent where
  mark : Char
  sign : Option Sign
  digits : List Char
  deriving DecidableEq, Repr

structure Numeral where
  sign : Option Sign
  whole : List Char
  fraction : Option (List Char)
  exponent : Option Exponent
  deriving DecidableEq, Repr

namespace Numeral

def signText (sign : Option Sign) : List Char :=
  (sign.map Sign.char).toList

def fractionText : Option (List Char) → List Char
  | none => []
  | some digits => '.' :: digits

def exponentText : Option Exponent → List Char
  | none => []
  | some e => e.mark :: (signText e.sign ++ e.digits)

def text (n : Numeral) : List Char :=
  signText n.sign ++ n.whole ++ fractionText n.fraction ++ exponentText n.exponent

def takeSign : List Char → Option Sign × List Char
  | '+' :: cs => (some .plus, cs)
  | '-' :: cs => (some .minus, cs)
  | cs => (none, cs)

def takeDigits (cs : List Char) : List Char × List Char :=
  (cs.takeWhile Char.isDigit, cs.dropWhile Char.isDigit)

/-- A point counts if there is a digit on at least one side of it. -/
def takeFraction (whole : List Char) : List Char → Option (List Char) × List Char
  | '.' :: cs =>
    let digits := takeDigits cs
    if whole = [] ∧ digits.1 = [] then (none, '.' :: cs) else (some digits.1, digits.2)
  | cs => (none, cs)

/-- An `e` counts if at least one digit follows. -/
def takeExponent : List Char → Option Exponent × List Char
  | [] => (none, [])
  | c :: cs =>
    if c = 'e' ∨ c = 'E' then
      let signed := takeSign cs
      let digits := takeDigits signed.2
      if digits.1 = [] then (none, c :: cs) else (some ⟨c, signed.1, digits.1⟩, digits.2)
    else (none, c :: cs)

/-- The longest numeral at the start of the text, and what follows it. -/
def scan? (cs : List Char) : Option (Numeral × List Char) :=
  let signed := takeSign cs
  let whole := takeDigits signed.2
  let pointed := takeFraction whole.1 whole.2
  let powered := takeExponent pointed.2
  if whole.1 = [] ∧ pointed.1 = none then none
  else some (⟨signed.1, whole.1, pointed.1, powered.1⟩, powered.2)

theorem takeSign_text (cs : List Char) : signText (takeSign cs).1 ++ (takeSign cs).2 = cs := by
  unfold takeSign
  split <;> simp [signText, Sign.char]

theorem takeDigits_text (cs : List Char) : (takeDigits cs).1 ++ (takeDigits cs).2 = cs :=
  List.takeWhile_append_dropWhile

theorem takeFraction_text (whole cs : List Char) :
    fractionText (takeFraction whole cs).1 ++ (takeFraction whole cs).2 = cs := by
  unfold takeFraction
  split
  · rename_i cs
    simp only
    split
    · rfl
    · simp [fractionText, takeDigits_text]
  · rfl

theorem fractionText_eq_nil {fraction : Option (List Char)} (h : fractionText fraction = []) : fraction = none := by
  cases fraction with
  | none => rfl
  | some digits => exact absurd h (by simp [fractionText])

theorem takeExponent_text (cs : List Char) :
    exponentText (takeExponent cs).1 ++ (takeExponent cs).2 = cs := by
  unfold takeExponent
  split
  · rfl
  · rename_i c cs
    simp only
    split
    · split
      · rfl
      · simp only [exponentText, List.cons_append, List.append_assoc, takeDigits_text, takeSign_text]
    · rfl

theorem scan?_text {cs rest : List Char} {n : Numeral} (h : scan? cs = some (n, rest)) :
    n.text ++ rest = cs := by
  simp only [scan?] at h
  split at h
  · exact absurd h (by simp)
  · simp only [Option.some.injEq, Prod.mk.injEq] at h
    obtain ⟨rfl, rfl⟩ := h
    simp only [text, List.append_assoc, takeExponent_text, takeFraction_text, takeDigits_text, takeSign_text]

theorem scan?_text_ne_nil {cs rest : List Char} {n : Numeral} (h : scan? cs = some (n, rest)) :
    n.text ≠ [] := by
  simp only [scan?] at h
  split at h
  · exact absurd h (by simp)
  · rename_i hn
    simp only [Option.some.injEq, Prod.mk.injEq] at h
    obtain ⟨rfl, -⟩ := h
    intro ht
    simp only [text, List.append_eq_nil_iff] at ht
    obtain ⟨⟨⟨-, hw⟩, hf⟩, -⟩ := ht
    exact hn ⟨hw, fractionText_eq_nil hf⟩

theorem scan?_rest_length_lt {cs rest : List Char} {n : Numeral} (h : scan? cs = some (n, rest)) :
    rest.length < cs.length := by
  rw [← scan?_text h, List.length_append]
  have := List.length_pos_iff.2 (scan?_text_ne_nil h)
  omega

def read? (cs : List Char) : Option Numeral :=
  match scan? cs with
  | some (n, []) => some n
  | _ => none

def isNegative (n : Numeral) : Bool :=
  n.sign = some .minus

def isInteger (n : Numeral) : Bool :=
  n.fraction.isNone && n.exponent.isNone

def digitsValue (digits : List Char) : Nat :=
  Nat.ofDigitChars 10 digits 0

def integer (n : Numeral) : Int :=
  if n.isNegative then -(digitsValue n.whole : Int) else digitsValue n.whole

def ofInt (i : Int) : Numeral :=
  ⟨if i < 0 then some .minus else none, Nat.toDigits 10 i.natAbs, none, none⟩

end Numeral

def Exponent.value (e : Exponent) : Int :=
  if e.sign = some .minus then -(Numeral.digitsValue e.digits : Int) else Numeral.digitsValue e.digits

end SearchFilter
