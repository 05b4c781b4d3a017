/-!
# Quoted text

A text between two quotes, each quote inside it written twice. Reading stops at the first quote
that is not doubled, or at the end of the text if there is none, and then says that the quote
was never closed.
-/

namespace SearchFilter.Text

def double (quote : Char) : List Char → List Char
  | [] => []
  | c :: cs => if c = quote then quote :: quote :: double quote cs else c :: double quote cs

def enclose (quote : Char) (cs : List Char) : List Char :=
  quote :: (double quote cs ++ [quote])

/-- What was read after an opening delimiter: the text up to the closing one, whether there was
a closing one, and the text behind it. -/
structure Enclosed where
  body : List Char
  closed : Bool
  rest : List Char
  deriving DecidableEq, Repr

def Enclosed.prepend (cs : List Char) (e : Enclosed) : Enclosed :=
  { e with body := cs ++ e.body }

@[simp] theorem Enclosed.prepend_body (cs : List Char) (e : Enclosed) : (e.prepend cs).body = cs ++ e.body := rfl
@[simp] theorem Enclosed.prepend_closed (cs : List Char) (e : Enclosed) : (e.prepend cs).closed = e.closed := rfl
@[simp] theorem Enclosed.prepend_rest (cs : List Char) (e : Enclosed) : (e.prepend cs).rest = e.rest := rfl

def closing (delimiter : Char) (closed : Bool) : List Char :=
  if closed then [delimiter] else []

/-- Reads what follows an opening quote, two quotes in a row standing for one. -/
def unquote (quote : Char) : List Char → Enclosed
  | [] => ⟨[], false, []⟩
  | c :: cs =>
    if c = quote then
      match cs with
      | [] => ⟨[], true, []⟩
      | d :: ds => if d = quote then (unquote quote ds).prepend [quote] else ⟨[], true, d :: ds⟩
    else (unquote quote cs).prepend [c]

theorem double_append (quote : Char) (cs ds : List Char) :
    double quote (cs ++ ds) = double quote cs ++ double quote ds := by
  induction cs with
  | nil => rfl
  | cons c cs ih => by_cases h : c = quote <;> simp [double, h, ih]

theorem unquote_cons_of_ne {quote c : Char} (cs : List Char) (h : c ≠ quote) :
    unquote quote (c :: cs) = (unquote quote cs).prepend [c] := by
  cases cs <;> simp [unquote, h]

/-- What was read, its quotes doubled again, and the rest make up the text. -/
theorem unquote_text (quote : Char) (cs : List Char) :
    double quote (unquote quote cs).body ++
      (closing quote (unquote quote cs).closed ++ (unquote quote cs).rest) = cs := by
  fun_induction unquote quote cs with
  | case1 => rfl
  | case2 => rfl
  | case3 ds ih =>
    rw [Enclosed.prepend_body, Enclosed.prepend_closed, Enclosed.prepend_rest, double_append, List.append_assoc, ih]
    simp [double]
  | case4 d ds hd => rfl
  | case5 c cs hc ih =>
    rw [Enclosed.prepend_body, Enclosed.prepend_closed, Enclosed.prepend_rest, double_append, List.append_assoc, ih]
    simp [double, hc]

/-- A text that was enclosed reads back, whatever follows but another quote. -/
theorem unquote_double (quote : Char) (cs rest : List Char) (h : rest.head? ≠ some quote) :
    unquote quote (double quote cs ++ quote :: rest) = ⟨cs, true, rest⟩ := by
  induction cs with
  | nil =>
    cases rest with
    | nil => simp [double, unquote]
    | cons d ds =>
      have hd : d ≠ quote := by simpa using h
      simp [double, unquote, hd]
  | cons c cs ih =>
    by_cases hc : c = quote
    · subst hc
      simp [double, unquote, ih, Enclosed.prepend]
    · simp only [double, if_neg hc, List.cons_append]
      rw [unquote_cons_of_ne _ hc, ih]
      rfl

theorem unquote_rest_length_le (quote : Char) (cs : List Char) :
    (unquote quote cs).rest.length ≤ cs.length := by
  fun_induction unquote quote cs with
  | case1 => simp
  | case2 => simp
  | case3 ds ih => simp only [Enclosed.prepend_rest, List.length_cons]; omega
  | case4 d ds => simp
  | case5 c cs h ih => simp only [Enclosed.prepend_rest, List.length_cons]; omega

end SearchFilter.Text
