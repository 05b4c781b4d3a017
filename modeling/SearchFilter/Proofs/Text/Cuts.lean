import SearchFilter.Proofs.Environment.Assignment
import SearchFilter.Proofs.Number.Offset
import SearchFilter.Proofs.Value.Integer
import SearchFilter.Value.Literal

/-!
# Texts cut by offset

Behind the numeral that a text begins with, and between the quotes of a value, the text is cut at
offsets in bytes. Numeral and quotes are ASCII, so the offsets are between characters wherever others
stand, and what is cut off reads as the text does by its characters.
-/

namespace SearchFilter
open Text Environment

/-! ## Numbers -/

def behindGaps (s : String) : String :=
  String.ofList (s.toList.dropWhile isGap)

def bound (cs : List Char) : Int64 :=
  if cs.head? = some '-' then .minValue else .maxValue

def IsBeyondBound (cs : List Char) (i : Int) : Prop :=
  if cs.head? = some '-' then i < Int64.minValue.toInt else Int64.maxValue.toInt < i

/-- What the text of a numeral counts as: an integer that cannot be read counts as the bound, and any
other number that cannot be read as zero. -/
def numberOf (isInteger : Bool) (cs : List Char) : Int64 :=
  if isInteger then (Numeral.readInt64? cs).getD (bound cs)
  else (Numeral.readBinary64? cs).elim 0 fun x => .ofIntClamp x.truncate

def cutInteger? (s : String) : Option Int64 :=
  match Numeral.numeralEnd? (bytes (behindGaps s).toList) with
  | none => some 0
  | some (stop, isInteger) => (cut? (behindGaps s) 0 stop).map fun number => numberOf isInteger number.toList

section
variable {cs : List Char} {i : Int}

theorem Numeral.head?_eq_minus_iff (sign : Option Sign) {digits : List Char} (hd : IsDigits digits) (hne : digits ≠ []) :
    (signText sign ++ digits).head? = some '-' ↔ sign = some .minus := by
  cases sign with
  | none =>
    have hdigit : ∀ c ∈ (digits ++ []).head?, c.isDigit = true := isDigit_head? hd hne
    rw [List.append_nil] at hdigit
    refine iff_of_false ?_ (Option.some_ne_none _).symm
    exact fun hc => (ne_sign_of_isDigit (hdigit '-' hc)).2 rfl
  | some s => cases s <;> simp [signText, Sign.char]

theorem Numeral.IsInteger.sign (h : Numeral.IsInteger cs i) :
    (cs.head? = some '-' → i ≤ 0) ∧ (cs.head? ≠ some '-' → 0 ≤ i) := by
  obtain ⟨sign, digits, rfl, hne, hd, hi⟩ := h
  rw [ne_eq, head?_eq_minus_iff sign hd hne, hi]
  constructor
  · intro hs
    rw [if_pos hs]
    omega
  · intro hs
    rw [if_neg hs]
    omega

theorem isBeyondBound_iff (h : Numeral.IsInteger cs i) :
    IsBeyondBound cs i ↔ ¬ (Int64.minValue.toInt ≤ i ∧ i ≤ Int64.maxValue.toInt) := by
  have hmin : Int64.minValue.toInt < 0 := by decide
  have hmax : 0 < Int64.maxValue.toInt := by decide
  unfold IsBeyondBound
  by_cases hc : cs.head? = some '-'
  · have := h.sign.1 hc
    rw [if_pos hc]
    omega
  · have := h.sign.2 hc
    rw [if_neg hc]
    omega

theorem clamp_of_isBeyondBound (h : IsBeyondBound cs i) : clamp i = (bound cs).toInt := by
  have hle : Int64.minValue.toInt ≤ Int64.maxValue.toInt := by decide
  unfold IsBeyondBound at h
  unfold clamp bound
  by_cases hc : cs.head? = some '-'
  · rw [if_pos hc] at h ⊢
    omega
  · rw [if_neg hc] at h ⊢
    omega

theorem readInt64?_eq_none_iff (h : Numeral.IsInteger cs i) :
    Numeral.readInt64? cs = none ↔ IsBeyondBound cs i := by
  rw [Numeral.readInt64?_of_isInteger h, isBeyondBound_iff h]
  simp

theorem toInt_numberOf_integer (h : Numeral.IsInteger cs i) : (numberOf true cs).toInt = clamp i := by
  show ((Numeral.readInt64? cs).getD (bound cs)).toInt = clamp i
  cases hread : Numeral.readInt64? cs with
  | none =>
    rw [clamp_of_isBeyondBound ((readInt64?_eq_none_iff h).1 hread)]
    rfl
  | some n =>
    rw [Numeral.readInt64?_of_isInteger h] at hread
    obtain ⟨hi, hn⟩ := Option.ite_none_right_eq_some.1 hread
    rw [← hn, Option.getD_some, Int64.toInt_ofInt_of_le hi.1 (Int.lt_of_le_of_lt hi.2 (by decide)), clamp]
    omega

theorem numberOf_text {n : Numeral} (hn : n.IsProper) : numberOf n.isInteger n.text = n.toInt64 := by
  cases hi : n.isInteger with
  | true =>
    refine Int64.toInt_inj.1 ?_
    rw [toInt_numberOf_integer (hn.isInteger_text hi), toInt_toInt64_of_integer (n.isInteger_iff.1 hi)]
  | false =>
    have hread : Numeral.readBinary64? n.text = (some n.toBinary64).filter Binary64.isFinite := by
      rw [Numeral.readBinary64?, Numeral.read?_eq_some_iff.2 ⟨hn, rfl⟩, Option.map_some]
    rw [Numeral.toInt64, hi, numberOf, if_neg Bool.false_ne_true, if_neg Bool.false_ne_true, hread]
    cases hf : n.toBinary64.isFinite with
    | true => rw [Option.filter_some_pos hf, Option.elim_some]
    | false =>
      rw [Option.filter_some_neg hf, Binary64.truncate_of_infinite hf]
      rfl

end

section
variable (s : String)

theorem toList_behindGaps : (behindGaps s).toList = s.toList.dropWhile isGap :=
  String.toList_ofList

theorem cut?_of_numeralEnd? {stop : Nat} {isInteger : Bool}
    (h : Numeral.numeralEnd? (bytes (behindGaps s).toList) = some (stop, isInteger)) :
    ∃ n : Numeral, (∃ rest, Numeral.scan? (s.toList.dropWhile isGap) = some (n, rest)) ∧ n.isInteger = isInteger ∧
      IsCut (behindGaps s) 0 stop ∧ cut? (behindGaps s) 0 stop = some (String.ofList n.text) := by
  rw [Numeral.numeralEnd?_bytes, toList_behindGaps] at h
  obtain ⟨⟨n, rest⟩, hs, hfound⟩ := Option.map_eq_some_iff.1 h
  cases hfound
  have htext : behindGaps s = String.ofList ([] ++ (n.text ++ rest)) := by
    rw [behindGaps, List.nil_append, Numeral.scan?_text hs]
  have hstop : (bytes []).length = 0 := by rw [bytes_nil]; rfl
  have hcut := cut?_append [] n.text rest
  have hisCut := isCut_append [] n.text rest
  rw [← htext, hstop] at hcut hisCut
  exact ⟨n, ⟨rest, hs⟩, rfl, hisCut, hcut⟩

theorem cutInteger?_eq : cutInteger? s = some (Value.text s).integer := by
  rw [Value.integer, leadingInteger, cutInteger?]
  cases hend : Numeral.numeralEnd? (bytes (behindGaps s).toList) with
  | none =>
    rw [Numeral.numeralEnd?_bytes, toList_behindGaps, Option.map_eq_none_iff] at hend
    rw [hend]
  | some found =>
    obtain ⟨stop, isInteger⟩ := found
    obtain ⟨n, ⟨rest, hs⟩, rfl, -, hcut⟩ := cut?_of_numeralEnd? s hend
    simp only [hcut, hs, Option.map_some, String.toList_ofList, numberOf_text (Numeral.isProper_of_scan? hs)]

end

/-! ## Values in quotes -/

def trimmed (s : String) : String :=
  String.ofList (trim s.toList)

def IsQuoted (quote : Char) (value : String) : Prop :=
  2 ≤ value.utf8ByteSize ∧ value.toList.head? = some quote ∧ value.toList.getLast? = some quote

instance (quote : Char) (value : String) : Decidable (IsQuoted quote value) :=
  inferInstanceAs (Decidable (_ ∧ _ ∧ _))

def cutValue? (s : String) : Option String :=
  if valueQuotes.any fun quote => IsQuoted quote (trimmed s) then
    cut? (trimmed s) 1 ((trimmed s).utf8ByteSize - 1)
  else some (trimmed s)

section
variable {quote : Char} {value : String}

theorem isAscii_of_mem_valueQuotes (hq : quote ∈ valueQuotes) : IsAscii quote := by
  simp only [valueQuotes, List.mem_cons, List.not_mem_nil, or_false] at hq
  rcases hq with rfl | rfl <;> decide

theorem utf8ByteSize_eq (value : String) : value.utf8ByteSize = (bytes value.toList).length := by
  rw [length_bytes, String.ofList_toList]

theorem length_bytes_quote (hq : IsAscii quote) : (bytes [quote]).length = 1 := by
  rw [bytes_ascii hq, bytes_nil]
  rfl

theorem isQuoted_iff (hq : IsAscii quote) :
    IsQuoted quote value ↔ ∃ inner, value.toList = quote :: (inner ++ [quote]) := by
  rw [IsQuoted, utf8ByteSize_eq]
  constructor
  · rintro ⟨hsize, hhead, hlast⟩
    obtain ⟨before, hvalue⟩ := List.getLast?_eq_some_iff.1 hlast
    cases before with
    | nil =>
      -- one quote is the first character and the last, but it is only one byte long
      rw [hvalue, List.nil_append, length_bytes_quote hq] at hsize
      omega
    | cons c inner =>
      rw [hvalue] at hhead
      obtain rfl : c = quote := Option.some.inj hhead
      exact ⟨inner, hvalue⟩
  · rintro ⟨inner, hvalue⟩
    rw [hvalue, bytes_ascii hq, bytes_append, List.length_cons, List.length_append, length_bytes_quote hq]
    refine ⟨by omega, rfl, ?_⟩
    rw [← List.cons_append, List.getLast?_concat]

theorem cut?_quoted (hq : IsAscii quote) {inner : List Char} (h : value.toList = quote :: (inner ++ [quote])) :
    IsCut value 1 (value.utf8ByteSize - 1) ∧
      cut? value 1 (value.utf8ByteSize - 1) = some (String.ofList inner) := by
  have hvalue : value = String.ofList ([quote] ++ (inner ++ [quote])) := by
    rw [← String.ofList_toList (s := value), h]
    rfl
  have hstop : (bytes ([quote] ++ inner)).length = value.utf8ByteSize - 1 := by
    rw [utf8ByteSize_eq, h, List.singleton_append, ← List.cons_append, bytes_append, List.length_append,
      length_bytes_quote hq, Nat.add_sub_cancel]
  have hisCut := isCut_append [quote] inner [quote]
  have hcut := cut?_append [quote] inner [quote]
  rw [← hvalue, length_bytes_quote hq, hstop] at hisCut hcut
  exact ⟨hisCut, hcut⟩

theorem cutValue?_eq (s : String) : cutValue? s = some (String.ofList (bareValue s.toList)) := by
  have htrimmed : (trimmed s).toList = trim s.toList := String.toList_ofList
  have hany : (valueQuotes.any fun quote => IsQuoted quote (trimmed s)) = true ↔
      ∃ quote ∈ valueQuotes, IsQuoted quote (trimmed s) := by
    simp only [List.any_eq_true, decide_eq_true_iff]
  by_cases h : ∃ quote ∈ valueQuotes, IsQuoted quote (trimmed s)
  · rw [cutValue?, if_pos (hany.2 h)]
    obtain ⟨quote, hmem, hquoted⟩ := h
    have hq := isAscii_of_mem_valueQuotes hmem
    obtain ⟨inner, hinner⟩ := (isQuoted_iff hq).1 hquoted
    rw [(cut?_quoted hq hinner).2]
    rw [htrimmed] at hinner
    rw [(bareValue_eq_iff s.toList inner).2 (Or.inl ⟨quote, hmem, hinner⟩)]
  · have hbare : bareValue s.toList = trim s.toList := by
      refine (bareValue_eq_iff s.toList _).2 (Or.inr ⟨rfl, ?_⟩)
      intro quote hmem inner hinner
      rw [← htrimmed] at hinner
      exact h ⟨quote, hmem, (isQuoted_iff (isAscii_of_mem_valueQuotes hmem)).2 ⟨inner, hinner⟩⟩
    rw [cutValue?, if_neg fun hq => h (hany.1 hq), hbare, trimmed]

end

/-! ## Both cuts -/

/-- Whatever characters a text has, it is cut between them, behind its numeral and at its quotes. What is cut
off there as an integer fails to be one of 64 bits only beyond the bound that it then counts as. -/
theorem cuts_between_characters (s : String) :
    (∀ stop isInteger, Numeral.numeralEnd? (bytes (behindGaps s).toList) = some (stop, isInteger) →
      IsCut (behindGaps s) 0 stop ∧ ∃ number, cut? (behindGaps s) 0 stop = some number ∧
        (isInteger = true → ∃ i, Numeral.IsInteger number.toList i ∧
          (Numeral.readInt64? number.toList = none ↔ IsBeyondBound number.toList i))) ∧
    cutInteger? s = some (Value.text s).integer ∧
    (∀ quote ∈ valueQuotes, IsQuoted quote (trimmed s) →
      IsCut (trimmed s) 1 ((trimmed s).utf8ByteSize - 1)) ∧
    cutValue? s = some (String.ofList (bareValue s.toList)) := by
  refine ⟨?_, cutInteger?_eq s, ?_, cutValue?_eq s⟩
  · intro stop isInteger hend
    obtain ⟨n, ⟨rest, hs⟩, rfl, hisCut, hcut⟩ := cut?_of_numeralEnd? s hend
    refine ⟨hisCut, _, hcut, ?_⟩
    intro hi
    have hinteger := (Numeral.isProper_of_scan? hs).isInteger_text hi
    rw [String.toList_ofList]
    exact ⟨n.integer, hinteger, readInt64?_eq_none_iff hinteger⟩
  · intro quote hmem hquoted
    have hq := isAscii_of_mem_valueQuotes hmem
    obtain ⟨inner, hvalue⟩ := (isQuoted_iff hq).1 hquoted
    exact (cut?_quoted hq hvalue).1

/-- The exponent is abandoned before a character of three bytes, and one of four stands before a quote. -/
theorem cuts_between_characters_wide :
    Numeral.numeralEnd? (bytes (behindGaps "\t-9223372036854775809e€").toList) = some (20, true) ∧
      IsCut (behindGaps "\t-9223372036854775809e€") 0 20 ∧
      cutInteger? "\t-9223372036854775809e€" = some Int64.minValue ∧
      '\'' ∈ valueQuotes ∧ IsQuoted '\'' (trimmed " '\"😀' ") ∧
      IsCut (trimmed " '\"😀' ") 1 6 ∧ cutValue? " '\"😀' " = some "\"😀" := by
  have hend : Numeral.numeralEnd? (bytes (behindGaps "\t-9223372036854775809e€").toList) = some (20, true) := by
    rw [Numeral.numeralEnd?_bytes]
    decide +kernel
  have hinteger : (Value.text "\t-9223372036854775809e€").integer = Int64.minValue := by decide +kernel
  have hmem : '\'' ∈ valueQuotes := by decide
  have hquoted : IsQuoted '\'' (trimmed " '\"😀' ") := by decide +kernel
  have hbare : String.ofList (bareValue " '\"😀' ".toList) = "\"😀" := by decide +kernel
  obtain ⟨hnumeral, hnumber, -, -⟩ := cuts_between_characters "\t-9223372036854775809e€"
  obtain ⟨-, -, hquotes, hvalue⟩ := cuts_between_characters " '\"😀' "
  exact ⟨hend, (hnumeral 20 true hend).1, hnumber.trans (congrArg some hinteger), hmem, hquoted,
    hquotes '\'' hmem hquoted, hvalue.trans (congrArg some hbare)⟩

end SearchFilter
