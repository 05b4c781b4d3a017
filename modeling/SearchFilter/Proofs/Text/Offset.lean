import SearchFilter.Text.Blank

/-!
# Offsets between characters

A text is also a sequence of bytes, its characters in UTF-8, and an offset into it may fall into the
middle of a character. A reader that goes over the bytes and steps over ASCII characters only stays
between characters (`IsBorder`), and there a text may be cut (`cut?_append`).
-/

namespace SearchFilter.Text

/-- Both offsets are within the text and between characters of it, in this order. -/
structure IsCut (s : String) (start stop : Nat) : Prop where
  startValid : String.Pos.Raw.IsValid s ⟨start⟩
  stopValid : String.Pos.Raw.IsValid s ⟨stop⟩
  inOrder : start ≤ stop

instance (s : String) (start stop : Nat) : Decidable (IsCut s start stop) :=
  decidable_of_iff (String.Pos.Raw.IsValid s ⟨start⟩ ∧ String.Pos.Raw.IsValid s ⟨stop⟩ ∧ start ≤ stop)
    ⟨fun h => ⟨h.1, h.2.1, h.2.2⟩, fun h => ⟨h.startValid, h.stopValid, h.inOrder⟩⟩

def cut? (s : String) (start stop : Nat) : Option String :=
  if h : IsCut s start stop then some (s.extract (s.pos ⟨start⟩ h.startValid) (s.pos ⟨stop⟩ h.stopValid)) else none

def bytes (cs : List Char) : List UInt8 :=
  (String.ofList cs).toByteArray.data.toList

def IsAscii (c : Char) : Prop :=
  c.toNat < 128

instance (c : Char) : Decidable (IsAscii c) :=
  inferInstanceAs (Decidable (_ < _))

def asciiByte (c : Char) : UInt8 :=
  .ofNat c.toNat

/-- The offset is between two characters of the text, or at one of its ends, and these are the
characters behind it. -/
def IsBorder (cs : List Char) (i : Nat) (rest : List Char) : Prop :=
  ∃ before, cs = before ++ rest ∧ (bytes before).length = i

/-! ## Bytes -/

theorem bytes_eq_flatMap (cs : List Char) : bytes cs = cs.flatMap String.utf8EncodeChar := by
  rw [bytes, String.toByteArray_ofList, List.utf8Encode, List.data_toByteArray]

@[simp] theorem bytes_nil : bytes [] = [] := by
  rw [bytes_eq_flatMap]
  rfl

theorem bytes_cons (c : Char) (cs : List Char) : bytes (c :: cs) = String.utf8EncodeChar c ++ bytes cs := by
  rw [bytes_eq_flatMap, bytes_eq_flatMap, List.flatMap_cons]

theorem bytes_append (cs ds : List Char) : bytes (cs ++ ds) = bytes cs ++ bytes ds := by
  rw [bytes_eq_flatMap, bytes_eq_flatMap, bytes_eq_flatMap, List.flatMap_append]

theorem length_bytes (cs : List Char) : (bytes cs).length = (String.ofList cs).utf8ByteSize := by
  rw [bytes, Array.length_toList]
  rfl

theorem bytes_ascii {c : Char} (h : IsAscii c) (cs : List Char) : bytes (c :: cs) = asciiByte c :: bytes cs := by
  have hc : String.utf8EncodeChar c = [asciiByte c] := if_pos (Nat.le_of_lt_succ h)
  rw [bytes_cons, hc]
  rfl

theorem toNat_asciiByte {c : Char} (h : IsAscii c) : (asciiByte c).toNat = c.toNat := by
  have hc : c.toNat < 128 := h
  rw [asciiByte, UInt8.toNat_ofNat']
  omega

theorem asciiByte_inj {c e : Char} (hc : IsAscii c) (he : IsAscii e) (h : asciiByte c = asciiByte e) : c = e := by
  have hnat := congrArg UInt8.toNat h
  rw [toNat_asciiByte hc, toNat_asciiByte he] at hnat
  exact Char.toNat_inj.1 hnat

/-- No byte of ASCII begins another character. -/
theorem bytes_not_ascii {c : Char} (h : ¬ IsAscii c) (cs : List Char) :
    ∃ b bs, bytes (c :: cs) = b :: bs ∧ 128 ≤ b.toNat := by
  have hfirst : ∃ b bs, String.utf8EncodeChar c = b :: bs ∧ 128 ≤ b.toNat := by
    unfold String.utf8EncodeChar
    have hc : ¬ c.val.toNat ≤ 0x7f := fun hle => h (Nat.lt_succ_of_le hle)
    simp only [if_neg hc]
    split
    · exact ⟨_, _, rfl, by rw [UInt8.toNat_ofNat']; omega⟩
    · split
      · exact ⟨_, _, rfl, by rw [UInt8.toNat_ofNat']; omega⟩
      · exact ⟨_, _, rfl, by rw [UInt8.toNat_ofNat']; omega⟩
  obtain ⟨b, bs, hb, hle⟩ := hfirst
  exact ⟨b, bs ++ bytes cs, by rw [bytes_cons, hb]; rfl, hle⟩

theorem head?_bytes_eq_iff {a : Char} (ha : IsAscii a) (cs : List Char) :
    (bytes cs).head? = some (asciiByte a) ↔ cs.head? = some a := by
  cases cs with
  | nil => simp
  | cons c cs =>
    by_cases hc : IsAscii c
    · rw [bytes_ascii hc, List.head?_cons, List.head?_cons, Option.some_inj, Option.some_inj]
      exact ⟨asciiByte_inj hc ha, congrArg asciiByte⟩
    · obtain ⟨b, bs, hb, hle⟩ := bytes_not_ascii hc cs
      rw [hb, List.head?_cons, List.head?_cons, Option.some_inj, Option.some_inj]
      constructor
      · rintro rfl
        have hlt : a.toNat < 128 := ha
        rw [toNat_asciiByte ha] at hle
        omega
      · rintro rfl
        exact absurd ha hc

/-! ## Borders -/

section
variable {cs rest : List Char} {i : Nat}

theorem isBorder_zero (cs : List Char) : IsBorder cs 0 cs :=
  ⟨[], rfl, by rw [bytes_nil]; rfl⟩

theorem IsBorder.drop_bytes (h : IsBorder cs i rest) : (bytes cs).drop i = bytes rest := by
  obtain ⟨before, rfl, hi⟩ := h
  rw [bytes_append, List.drop_left' hi]

theorem IsBorder.getElem?_bytes (h : IsBorder cs i rest) : (bytes cs)[i]? = (bytes rest).head? := by
  rw [← h.drop_bytes, List.head?_drop]

theorem IsBorder.getElem?_bytes_eq_iff (h : IsBorder cs i rest) {a : Char} (ha : IsAscii a) :
    (bytes cs)[i]? = some (asciiByte a) ↔ rest.head? = some a := by
  rw [h.getElem?_bytes, head?_bytes_eq_iff ha]

/-- Behind an ASCII character the next border is one byte on. -/
theorem IsBorder.next {c : Char} (h : IsBorder cs i (c :: rest)) (hc : IsAscii c) : IsBorder cs (i + 1) rest := by
  obtain ⟨before, rfl, rfl⟩ := h
  refine ⟨before ++ [c], by simp, ?_⟩
  rw [bytes_append, bytes_ascii hc, List.length_append]
  rfl

theorem IsBorder.isValid (h : IsBorder cs i rest) : String.Pos.Raw.IsValid (String.ofList cs) ⟨i⟩ := by
  obtain ⟨before, rfl, rfl⟩ := h
  refine String.Pos.Raw.isValid_iff_exists_append.2 ⟨String.ofList before, String.ofList rest, String.ofList_append, ?_⟩
  rw [length_bytes]
  rfl

end

/-! ## Cutting -/

theorem isCut_append (before part behind : List Char) :
    IsCut (String.ofList (before ++ (part ++ behind))) (bytes before).length (bytes (before ++ part)).length := by
  have hstart : IsBorder (before ++ (part ++ behind)) (bytes before).length (part ++ behind) := ⟨before, rfl, rfl⟩
  have hstop : IsBorder (before ++ (part ++ behind)) (bytes (before ++ part)).length behind :=
    ⟨before ++ part, by simp, rfl⟩
  refine ⟨hstart.isValid, hstop.isValid, ?_⟩
  rw [bytes_append, List.length_append]
  omega

theorem cut?_append (before part behind : List Char) :
    cut? (String.ofList (before ++ (part ++ behind))) (bytes before).length (bytes (before ++ part)).length =
      some (String.ofList part) := by
  have hbytes : (String.ofList (before ++ (part ++ behind))).toByteArray = (String.ofList before).toByteArray ++
      ((String.ofList part).toByteArray ++ (String.ofList behind).toByteArray) := by
    rw [String.ofList_append, String.ofList_append, String.toByteArray_append, String.toByteArray_append]
  have hsize (cs : List Char) : (bytes cs).length = (String.ofList cs).toByteArray.size := length_bytes cs
  rw [cut?, dif_pos (isCut_append before part behind), Option.some_inj, ← String.toByteArray_inj,
    String.toByteArray_extract, String.offset_pos, String.offset_pos, hbytes, bytes_append, List.length_append,
    hsize before, hsize part]
  exact (ByteArray.extract_append_size_add (i := 0)).trans (ByteArray.extract_append_eq_left rfl)

end SearchFilter.Text
