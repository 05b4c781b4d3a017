import Mathlib.Data.List.Chain
import SearchFilter.Json.Token
import SearchFilter.Proofs.Number.Numeral

/-!
# JSON tokens read back

A text is written as a JSON string that reads as that text, and every token that is written is read
as that token, in front of any text that cannot continue it. Only a number can be continued.
-/

namespace SearchFilter.Json

/-! ## Strings -/

namespace Piece

theorem hexDigit?_hex (n : Nat) : hexDigit? (hex n) = some (n % 16) := by
  have hall : ∀ d, d < 16 → hexDigit? (Nat.digitChar d) = some d := by decide
  exact hall (n % 16) (Nat.mod_lt n (by decide))

theorem unit?_hex (unit : Nat) (h : unit < 65536) :
    unit? (hex (unit / 4096)) (hex (unit / 256)) (hex (unit / 16)) (hex unit) = some unit := by
  simp only [unit?, hexDigit?_hex, Option.bind_eq_bind, Option.bind_some, Option.pure_def, Option.some.injEq]
  omega

theorem ofUnit_toNat {c : Char} (h : c.toNat < 0x20) : ofUnit c.toNat = char c := by
  have hhigh : isHigh c.toNat = false := by
    simp only [isHigh, Bool.and_eq_false_iff, decide_eq_false_iff_not]
    omega
  have hlow : isLow c.toNat = false := by
    simp only [isLow, Bool.and_eq_false_iff, decide_eq_false_iff_not]
    omega
  rw [ofUnit, hhigh, hlow, Char.ofNat_toNat]
  rfl

theorem scan?_plain {c : Char} (hq : c ≠ '"') (hb : c ≠ '\\') (hc : ¬ c.toNat < 0x20) {cs rest : List Char}
    {ps : List Piece} (h : scan? cs = some (ps, rest)) : scan? (c :: cs) = some (char c :: ps, rest) := by
  rw [scan?.eq_def]
  split
  · rename_i heq
    cases heq
  · rename_i heq
    cases heq
    exact absurd rfl hq
  · rename_i heq
    cases heq
    exact absurd rfl hb
  · rename_i heq
    cases heq
    exact absurd rfl hb
  · rename_i heq
    cases heq
    rw [if_neg hc, h]
    rfl

theorem scan?_written (c : Char) {cs rest : List Char} {ps : List Piece} (h : scan? cs = some (ps, rest)) :
    scan? (written (char c) ++ cs) = some (char c :: ps, rest) := by
  unfold written
  split
  case h_1 heq => cases heq
  case h_9 c' hq hb _ _ _ _ _ heq =>
    cases heq
    split
    · rename_i hc
      have hu := unit?_hex c.toNat (by omega)
      simp only [unitText, List.cons_append, List.nil_append, scan?, hu, h, ofUnit_toNat hc, Option.bind_eq_bind,
        Option.bind_some, Option.pure_def]
    · rename_i hc
      exact scan?_plain (fun he => hq (he ▸ rfl)) (fun he => hb (he ▸ rfl)) hc h
  all_goals
    rename_i heq
    cases heq
    simp [scan?, escaped?, h]

theorem scan?_flatMap_written (cs rest : List Char) :
    scan? ((cs.map char).flatMap written ++ '"' :: rest) = some (cs.map char, rest) := by
  induction cs with
  | nil => rfl
  | cons c cs ih =>
    rw [List.map_cons, List.flatMap_cons, List.append_assoc]
    exact scan?_written c ih

theorem pair_map_char (cs : List Char) : pair (cs.map char) = cs.map char := by
  induction cs with
  | nil => rfl
  | cons c cs ih => rw [List.map_cons, pair, ih]; nofun

@[simp] theorem text?_ofText (s : String) : text? (ofText s) = some s := by
  have h : ∀ cs : List Char, (cs.map char).mapM char? = some cs := by
    intro cs
    induction cs with
    | nil => rfl
    | cons c cs ih => simp [List.mapM_cons, ih, char?]
  rw [text?, ofText, h, Option.map_some, String.ofList_toList]

end Piece

/-! ## Tokens -/

theorem isNumber_iff {n : Numeral} : isNumber n = true ↔
    n.sign ≠ some .plus ∧ (n.whole = ['0'] ∨ n.whole ≠ [] ∧ n.whole.head? ≠ some '0') ∧ n.fraction ≠ some [] := by
  simp only [isNumber, Bool.and_eq_true, Bool.or_eq_true, decide_eq_true_eq, and_assoc]

namespace Token

/-- What is written: numbers as JSON has them, and strings that are texts. -/
def IsPlain : Token → Prop
  | number n => n.IsProper ∧ isNumber n = true
  | string ps => ∃ s, ps = Piece.ofText s
  | _ => True

def isNumeric : Token → Bool
  | number _ => true
  | _ => false

def Ends (t : Token) (rest : List Char) : Prop :=
  t.isNumeric = true → ∀ c ∈ rest.head?, continuesNumeral c = false

theorem head?_number {n : Numeral} (hn : n.IsProper) (hj : isNumber n = true) :
    ∃ c cs, n.text = c :: cs ∧ (c = '-' ∨ c.isDigit = true) := by
  obtain ⟨hs, hw, -⟩ := isNumber_iff.1 hj
  have hw : n.whole ≠ [] := by
    rcases hw with hw | hw
    · simp [hw]
    · exact hw.1
  obtain ⟨d, ds, hd⟩ := List.exists_cons_of_ne_nil hw
  have hdigit : d.isDigit = true := hn.whole d (by simp [hd])
  cases hsign : n.sign with
  | none => exact ⟨d, _, by simp only [Numeral.text, hsign, hd]; rfl, Or.inr hdigit⟩
  | some s =>
    cases s with
    | plus => exact absurd hsign hs
    | minus => exact ⟨'-', _, by simp only [Numeral.text, hsign]; rfl, Or.inl rfl⟩

theorem next?_number {n : Numeral} {rest : List Char} (hn : n.IsProper) (hj : isNumber n = true)
    (hr : ∀ c ∈ rest.head?, continuesNumeral c = false) : next? (n.text ++ rest) = some (number n, rest) := by
  obtain ⟨c, cs, hc, hd⟩ := head?_number hn hj
  have hs := Numeral.scan?_append hn hr
  rw [hc, List.cons_append] at hs ⊢
  unfold next?
  split
  case h_11 => simp only [hs, if_pos hj]
  all_goals
    rename_i heq
    obtain ⟨rfl, -⟩ := List.cons.inj heq
    exact absurd hd (by decide)

theorem next?_text {t : Token} {rest : List Char} (ht : t.IsPlain) (hr : t.Ends rest) :
    next? (t.text ++ rest) = some (t, rest) := by
  cases t with
  | number n => exact next?_number ht.1 ht.2 (hr rfl)
  | string ps =>
    obtain ⟨s, rfl⟩ := ht
    have hs := Piece.scan?_flatMap_written s.toList rest
    have ht : (string (Piece.ofText s)).text ++ rest =
        '"' :: ((s.toList.map Piece.char).flatMap Piece.written ++ '"' :: rest) := by
      simp [text, Piece.ofText]
    rw [ht, next?, hs, Option.map_some]
    show some (string (Piece.pair (s.toList.map Piece.char)), rest) = _
    rw [Piece.pair_map_char]
    rfl
  | bool b => cases b <;> rfl
  | _ => rfl

theorem head?_text {t : Token} (ht : t.IsPlain) : ∃ c cs, t.text = c :: cs ∧ isSpace c = false := by
  cases t with
  | number n =>
    obtain ⟨c, cs, hc, hd⟩ := head?_number ht.1 ht.2
    refine ⟨c, cs, hc, ?_⟩
    rcases hd with rfl | hd
    · rfl
    · simp only [isSpace, Bool.or_eq_false_iff, decide_eq_false_iff_not]
      refine ⟨⟨⟨?_, ?_⟩, ?_⟩, ?_⟩
      all_goals
        rintro rfl
        exact absurd hd (by decide)
  | bool b => cases b <;> exact ⟨_, _, rfl, rfl⟩
  | _ => exact ⟨_, _, rfl, rfl⟩

def Apart (j k : Token) : Prop :=
  j.isNumeric = true → k.isNumeric = false

theorem apart_mark {k : Token} (hk : k.isNumeric = false) {js ks : List Token} (hj : js.IsChain Apart)
    (hks : ks.IsChain Apart) : (js ++ k :: ks).IsChain Apart := by
  have hcons : (k :: ks).IsChain Apart := by
    refine List.isChain_cons.2 ⟨fun _ _ h => ?_, hks⟩
    rw [hk] at h
    cases h
  refine List.isChain_append.2 ⟨hj, hcons, fun _ _ y hy _ => ?_⟩
  obtain rfl : k = y := by simpa using hy
  exact hk

theorem continuesNumeral_text {k : Token} (hk : k.isNumeric = false) (rest : List Char) :
    ∀ c ∈ (k.text ++ rest).head?, continuesNumeral c = false := by
  intro c hc
  cases k with
  | number n => cases hk
  | bool b => cases b <;> cases hc <;> decide
  | _ => cases hc; decide

theorem ends_text {k : Token} {ks : List Token} (h : (k :: ks).IsChain Apart) : k.Ends (ks.flatMap text) := by
  intro hk
  cases ks with
  | nil => simp
  | cons j js =>
    rw [List.flatMap_cons]
    exact continuesNumeral_text ((List.isChain_cons.1 h).1 j rfl hk) _

end Token

theorem tokens?_cons {t : Token} {ts : List Token} {rest : List Char} (ht : t.IsPlain) (hr : t.Ends rest)
    (h : tokens? rest = some ts) : tokens? (t.text ++ rest) = some (t :: ts) := by
  obtain ⟨c, cs, hc, hspace⟩ := Token.head?_text ht
  have hn := Token.next?_text ht hr
  rw [hc, List.cons_append] at hn ⊢
  have hd : (c :: (cs ++ rest)).dropWhile isSpace = c :: (cs ++ rest) := by simp [hspace]
  rw [tokens?]
  split
  · rename_i heq
    rw [hd] at heq
    cases heq
  · rename_i heq
    rw [hd] at heq
    cases heq
    split
    · rename_i heq
      cases hn.symm.trans heq
      rw [h]
      rfl
    · rename_i heq
      cases hn.symm.trans heq

theorem tokens?_flatMap_text {ts : List Token} (hp : ∀ t ∈ ts, t.IsPlain) (hc : ts.IsChain Token.Apart) :
    tokens? (ts.flatMap Token.text) = some ts := by
  induction ts with
  | nil =>
    rw [tokens?]
    rfl
  | cons t ts ih =>
    have hrest := ih (fun k hk => hp k (List.mem_cons_of_mem t hk)) (List.isChain_cons.1 hc).2
    exact tokens?_cons (hp t List.mem_cons_self) (Token.ends_text hc) hrest

end SearchFilter.Json
