import SearchFilter.Proofs.Query.Parts

/-!
# Anchoring by position

The readers once more, now on the positions of one text: a backslash or a doubled delimiter is a step
of two, which may lead beyond the end. Each reader stops behind the position of its token and not
beyond the end of the text, where the reader of lists has the rest (`Stops`). So no character is read
and no part is cut out that is not in the text, and the walk from token to token ends with the text
that anchoring makes (`walk?_eq_apply`).
-/

namespace SearchFilter.Query
open SearchFilter.Text

def part? (cs : List Char) (start stop : Nat) : Option (List Char) :=
  if start ≤ stop ∧ stop ≤ cs.length then some ((cs.take stop).drop start) else none

def literalEnd (cs : List Char) (delimiter : Char) (i : Nat) : Nat :=
  if h : i < cs.length then
    -- behind a backslash at the end of the text this is beyond the end
    if cs[i] = '\\' then literalEnd cs delimiter (i + 2)
    else if cs[i] = delimiter then
      if cs[i + 1]? = some delimiter then literalEnd cs delimiter (i + 2) else i + 1
    else literalEnd cs delimiter (i + 1)
  else cs.length
termination_by cs.length - i

/-- The quoted name that goes on at this position, from there on, and where it ends. -/
def nameAt (cs : List Char) (quote : Char) (i : Nat) : List Char × Nat :=
  if h : i < cs.length then
    if cs[i] = quote then
      if cs[i + 1]? = some quote then (quote :: (nameAt cs quote (i + 2)).1, (nameAt cs quote (i + 2)).2)
      else ([], i + 1)
    else (cs[i] :: (nameAt cs quote (i + 1)).1, (nameAt cs quote (i + 1)).2)
  else ([], cs.length)
termination_by cs.length - i

def wordEnd (cs : List Char) (i : Nat) : Nat :=
  if h : i < cs.length then
    if isWordChar cs[i] then wordEnd cs (i + 1) else i
  else i
termination_by cs.length - i

/-- Whether a dot stands before or behind. Where something stands before, it has to be in the text. -/
def besideDot? (cs : List Char) (start stop : Nat) : Option Bool :=
  if start = 0 then some (cs[stop]? = some '.')
  else cs[start - 1]?.map fun c => c = '.' || cs[stop]? = some '.'

def keep? (cs : List Char) (start stop : Nat) : Option (List Char × Nat) :=
  (part? cs start stop).map (·, stop)

def settle? (cs : List Char) (start stop : Nat) (isColumn : Bool) (replacement : List Char) :
    Option (List Char × Nat) :=
  if isColumn then
    (besideDot? cs start stop).bind fun beside => if beside then keep? cs start stop else some (replacement, stop)
  else keep? cs start stop

def round? (d : Dialect) (column replacement : String) (cs : List Char) (start : Nat) :
    Option (List Char × Nat) :=
  cs[start]?.bind fun c =>
    if opensLiteral d.quote c then keep? cs start (literalEnd cs c (start + 1))
    else if c = d.quote then
      settle? cs start (nameAt cs d.quote (start + 1)).2 ((nameAt cs d.quote (start + 1)).1 = column.toList)
        (d.quotePath replacement).toList
    else if isWordChar c then
      (part? cs start (wordEnd cs start)).bind fun word =>
        settle? cs start (wordEnd cs start) (word = column.toList) replacement.toList
    else some ([c], start + 1)

/-- The text for all that begins at a position, if at most so many rounds are enough for it. -/
def walk? (d : Dialect) (column replacement : String) (cs : List Char) : Nat → Nat → Option (List Char)
  | 0, start => if start < cs.length then none else some []
  | rounds + 1, start =>
    if start < cs.length then
      (round? d column replacement cs start).bind fun r => (walk? d column replacement cs rounds r.2).map (r.1 ++ ·)
    else some []

structure Stops (cs : List Char) (start stop : Nat) (rest : List Char) : Prop where
  advances : start < stop
  within : stop ≤ cs.length
  behind : cs.drop stop = rest

/-! ## Where the readers stop -/

theorem literalEnd_le (cs : List Char) (delimiter : Char) (i : Nat) : literalEnd cs delimiter i ≤ cs.length := by
  fun_induction literalEnd cs delimiter i <;> omega

theorem nameAt_le (cs : List Char) (quote : Char) (i : Nat) : (nameAt cs quote i).2 ≤ cs.length := by
  fun_induction nameAt cs quote i with
  | case1 i h hq hn ih => exact ih
  | case2 i h hq hn => exact h
  | case3 i h hq ih => exact ih
  | case4 i h => exact Nat.le_refl _

theorem wordEnd_le {cs : List Char} {i : Nat} (h : i ≤ cs.length) : wordEnd cs i ≤ cs.length := by
  fun_induction wordEnd cs i with
  | case1 i hi hw ih => exact ih hi
  | case2 => exact h
  | case3 => exact h

theorem literalBody_backslash_rest (delimiter : Char) (cs : List Char) :
    (literalBody delimiter ('\\' :: cs)).rest = (literalBody delimiter (cs.drop 1)).rest := by
  cases cs with
  | nil => rfl
  | cons c cs => rw [literalBody_escape]; rfl

theorem drop_literalEnd (cs : List Char) (delimiter : Char) (i : Nat) :
    cs.drop (literalEnd cs delimiter i) = (literalBody delimiter (cs.drop i)).rest := by
  fun_induction literalEnd cs delimiter i with
  | case1 i h hb ih => rw [List.drop_eq_getElem_cons h, hb, literalBody_backslash_rest, List.drop_drop, ih]
  | case2 i h hb hd hn ih =>
    obtain ⟨h', hn⟩ := List.getElem?_eq_some_iff.1 hn
    have hne : delimiter ≠ '\\' := hd ▸ hb
    rw [List.drop_eq_getElem_cons h, List.drop_eq_getElem_cons h', hd, hn, literalBody_doubled hne, ih]
    rfl
  | case3 i h hb hd hn =>
    have hne : delimiter ≠ '\\' := hd ▸ hb
    rw [List.drop_eq_getElem_cons h, hd, literalBody_closing hne (by rwa [List.head?_drop])]
  | case4 i h hb hd ih =>
    rw [List.drop_eq_getElem_cons h, literalBody_plain _ hb hd, ih]
    rfl
  | case5 i h =>
    rw [List.drop_length, List.drop_eq_nil_of_le (Nat.le_of_not_lt h)]
    rfl

theorem nameAt_eq (cs : List Char) (quote : Char) (i : Nat) :
    (nameAt cs quote i).1 = (unquote quote (cs.drop i)).body ∧
      cs.drop (nameAt cs quote i).2 = (unquote quote (cs.drop i)).rest := by
  fun_induction nameAt cs quote i with
  | case1 i h hq hn ih =>
    obtain ⟨h', hn⟩ := List.getElem?_eq_some_iff.1 hn
    rw [List.drop_eq_getElem_cons h, List.drop_eq_getElem_cons h', hq, hn, unquote_doubled]
    exact ⟨congrArg (quote :: ·) ih.1, ih.2⟩
  | case2 i h hq hn =>
    rw [List.drop_eq_getElem_cons h, hq, unquote_closing (by rwa [List.head?_drop])]
    exact ⟨rfl, rfl⟩
  | case3 i h hq ih =>
    rw [List.drop_eq_getElem_cons h, unquote_cons_of_ne _ hq]
    exact ⟨congrArg (cs[i] :: ·) ih.1, ih.2⟩
  | case4 i h =>
    rw [List.drop_length, List.drop_eq_nil_of_le (Nat.le_of_not_lt h)]
    exact ⟨rfl, rfl⟩

theorem drop_wordEnd (cs : List Char) (i : Nat) : cs.drop (wordEnd cs i) = (cs.drop i).dropWhile isWordChar := by
  fun_induction wordEnd cs i with
  | case1 i h hw ih => rw [List.drop_eq_getElem_cons h, List.dropWhile_cons_of_pos hw, ih]
  | case2 i h hw => rw [List.drop_eq_getElem_cons h, List.dropWhile_cons_of_neg hw]
  | case3 i h => rw [List.drop_eq_nil_of_le (Nat.le_of_not_lt h)]; rfl

section
variable {cs : List Char} {start stop : Nat}

theorem Stops.of_length_le {rest : List Char} (hstart : start < cs.length) (hstop : stop ≤ cs.length)
    (hdrop : cs.drop stop = rest) (hrest : rest.length ≤ (cs.drop (start + 1)).length) : Stops cs start stop rest := by
  refine ⟨?_, hstop, hdrop⟩
  rw [← hdrop, List.length_drop, List.length_drop] at hrest
  omega

theorem stops_literal (c : Char) (h : start < cs.length) :
    Stops cs start (literalEnd cs c (start + 1)) (literalBody c (cs.drop (start + 1))).rest :=
  .of_length_le h (literalEnd_le cs c _) (drop_literalEnd cs c _) (literalBody_rest_length_le c _)

theorem stops_name (quote : Char) (h : start < cs.length) :
    Stops cs start (nameAt cs quote (start + 1)).2 (unquote quote (cs.drop (start + 1))).rest :=
  .of_length_le h (nameAt_le cs quote _) (nameAt_eq cs quote _).2 (unquote_rest_length_le quote _)

theorem stops_word (h : start < cs.length) (hw : isWordChar cs[start] = true) :
    Stops cs start (wordEnd cs start) ((cs.drop (start + 1)).dropWhile isWordChar) := by
  refine .of_length_le h (wordEnd_le (Nat.le_of_lt h)) ?_ (List.dropWhile_suffix isWordChar).length_le
  rw [drop_wordEnd, List.drop_eq_getElem_cons h, List.dropWhile_cons_of_pos hw]

/-! ## One round -/

theorem part?_eq_some {text : List Char} (hstart : start ≤ stop) (hstop : stop ≤ cs.length)
    (h : cs.drop start = text ++ cs.drop stop) : part? cs start stop = some text := by
  have hlength := congrArg List.length h
  rw [List.length_append, List.length_drop, List.length_drop] at hlength
  rw [part?, if_pos ⟨hstart, hstop⟩, List.drop_take, h, List.take_left' (by omega)]

theorem besideDot?_eq (hstart : start ≤ cs.length) (stop : Nat) :
    besideDot? cs start stop =
      some (decide ((cs.take start).getLast? = some '.' ∨ (cs.drop stop).head? = some '.')) := by
  unfold besideDot?
  rw [List.head?_drop]
  cases start with
  | zero => simp
  | succ i =>
    have hi : i < cs.length := hstart
    have hlast : (cs.take (i + 1)).getLast? = some cs[i] := by
      rw [List.take_succ_eq_append_getElem hi, List.getLast?_concat]
    rw [if_neg (Nat.succ_ne_zero i), Nat.add_sub_cancel, List.getElem?_eq_getElem hi, hlast]
    simp

theorem settle?_eq {text rest : List Char} (hs : Stops cs start stop rest) (htext : part? cs start stop = some text)
    (isColumn : Bool) (replacement : List Char) :
    settle? cs start stop isColumn replacement =
      some (if (cs.take start).getLast? = some '.' ∨ rest.head? = some '.' then text
        else if isColumn then replacement else text, stop) := by
  have hstart : start ≤ cs.length := Nat.le_trans (Nat.le_of_lt hs.advances) hs.within
  have hkeep : keep? cs start stop = some (text, stop) := by rw [keep?, htext, Option.map_some]
  unfold settle?
  rw [besideDot?_eq hstart, hs.behind, hkeep, Option.bind_some]
  cases isColumn with
  | false => simp
  | true =>
    by_cases hdot : (cs.take start).getLast? = some '.' ∨ rest.head? = some '.'
    · simp [hdot]
    · simp [hdot]

variable (d : Dialect) {c : Char} {behind : List Char}

theorem part?_next (h : cs.drop start = c :: behind) (hs : Stops cs start stop (Token.next d.quote c behind).2) :
    part? cs start stop = some ((Token.next d.quote c behind).1.text d.quote) := by
  refine part?_eq_some (Nat.le_of_lt hs.advances) hs.within ?_
  rw [hs.behind, Token.next_text, h]

/-- A round reads nothing that is not in the text, and leads on to the rest behind the token. -/
theorem round?_eq (column replacement : String) (h : cs.drop start = c :: behind) :
    ∃ stop, Stops cs start stop (Token.next d.quote c behind).2 ∧
      round? d column replacement cs start =
        some ((Token.next d.quote c behind).1.rewritten d column replacement (cs.take start)
          (Token.next d.quote c behind).2, stop) := by
  have hstart : start < cs.length := by
    have hlength := congrArg List.length h
    rw [List.length_drop, List.length_cons] at hlength
    omega
  have hcons := List.drop_eq_getElem_cons hstart
  rw [h, List.cons_eq_cons] at hcons
  obtain ⟨rfl, rfl⟩ := hcons
  have hget : cs[start]? = some cs[start] := List.getElem?_eq_getElem hstart
  unfold round?
  rw [hget, Option.bind_some]
  rcases char_kind d.quote cs[start] with hl | hq | hw | hp
  · have hs := stops_literal cs[start] hstart
    have hpart := part?_next d h (by rwa [next_literal hl])
    rw [next_literal hl] at hpart ⊢
    refine ⟨_, hs, ?_⟩
    rw [if_pos hl, keep?, hpart]
    simp [Token.rewritten]
  · have hs := stops_name d.quote hstart
    have hpart := part?_next d h (by rwa [hq, next_name])
    rw [hq, next_name] at hpart ⊢
    refine ⟨_, hs, ?_⟩
    rw [if_neg (by rw [opensLiteral_quote]; exact Bool.false_ne_true), if_pos rfl, settle?_eq hs hpart,
      (nameAt_eq cs d.quote (start + 1)).1]
    simp [Token.rewritten]
  · have hs := stops_word hstart hw
    have hpart := part?_next d h (by rwa [next_word d hw])
    rw [next_word d hw, Token.text] at hpart
    rw [next_word d hw]
    refine ⟨_, hs, ?_⟩
    rw [if_neg (by rw [opensLiteral_of_isWordChar hw]; exact Bool.false_ne_true),
      if_neg (ne_quote_of_isWordChar d hw), if_pos hw, hpart, Option.bind_some, settle?_eq hs hpart]
    simp [Token.rewritten, Token.text]
  · obtain ⟨hw, hl, hq⟩ := (isPlain_iff _ _).1 hp
    rw [next_symbol hp]
    refine ⟨start + 1, ⟨Nat.lt_succ_self start, hstart, rfl⟩, ?_⟩
    rw [hl, hw, if_neg Bool.false_ne_true, if_neg hq, if_neg Bool.false_ne_true]
    simp [Token.rewritten, Token.text]

/-- Unless the token takes the rest of the text, a dot stands before its end exactly if it is one. -/
theorem isDot_next_iff (h : cs.drop start = c :: behind) (hs : Stops cs start stop (Token.next d.quote c behind).2)
    (hstop : stop < cs.length) :
    (Token.next d.quote c behind).1.isDot = true ↔ (cs.take stop).getLast? = some '.' := by
  have hclosed : (Token.next d.quote c behind).1.isOpen = false := by
    refine Bool.eq_false_iff.2 fun ho => ?_
    have hdrop := hs.behind
    rw [next_rest_of_open d ho, List.drop_eq_nil_iff] at hdrop
    omega
  have hsplit : cs.take stop ++ cs.drop stop =
      (cs.take start ++ (Token.next d.quote c behind).1.text d.quote) ++ cs.drop stop := by
    rw [List.take_append_drop, List.append_assoc, hs.behind, Token.next_text, ← h, List.take_append_drop]
  rw [List.append_cancel_right hsplit]
  exact ((readable_next d c behind).lexeme_of_closed hclosed).isDot_iff_getLast hclosed (cs.take start)

end

/-! ## The walk -/

section
variable (d : Dialect) (column replacement : String) {cs : List Char}

theorem walk?_end (rounds : Nat) {start : Nat} (h : cs.length ≤ start) :
    walk? d column replacement cs rounds start = some [] := by
  cases rounds with
  | zero => exact if_neg (Nat.not_lt.2 h)
  | succ rounds => exact if_neg (Nat.not_lt.2 h)

theorem walk?_eq_apply {rounds start : Nat} (hrounds : cs.length - start ≤ rounds) {afterDot : Bool}
    (hdot : afterDot = true ↔ (cs.take start).getLast? = some '.') :
    walk? d column replacement cs rounds start =
      some ((anchorOf d column replacement).apply d.quote afterDot (tokens d.quote (cs.drop start))) := by
  -- on the rounds; that a dot stands before the position is what one round hands on to the next
  induction rounds generalizing start afterDot with
  | zero =>
    have hend : cs.length ≤ start := Nat.le_of_sub_eq_zero (Nat.le_zero.1 hrounds)
    rw [walk?_end d column replacement 0 hend, List.drop_eq_nil_of_le hend, tokens]
    rfl
  | succ rounds ih =>
    rcases Nat.lt_or_ge start cs.length with hstart | hend
    · have h := List.drop_eq_getElem_cons hstart
      obtain ⟨stop, hs, hround⟩ := round?_eq d column replacement h
      have hbehind : walk? d column replacement cs rounds stop =
          some ((anchorOf d column replacement).apply d.quote
            (Token.next d.quote cs[start] (cs.drop (start + 1))).1.isDot (tokens d.quote (cs.drop stop))) := by
        rcases Nat.lt_or_ge stop cs.length with hstop | hstop
        · have := hs.advances
          exact ih (by omega) (isDot_next_iff d h hs hstop)
        · rw [walk?_end d column replacement rounds hstop, List.drop_eq_nil_of_le hstop, tokens]
          rfl
      have hdots : (afterDot || (tokens d.quote (cs.drop stop)).head?.any Token.isDot) = true ↔
          (cs.take start).getLast? = some '.' ∨ (cs.drop stop).head? = some '.' := by
        rw [Bool.or_eq_true, hdot, head?_isDot_iff (fitting_tokens d (cs.drop stop)), textOf_tokens]
      rw [walk?, if_pos hstart, hround, Option.bind_some, hbehind, Option.map_some, h, tokens, apply_cons,
        ← hs.behind, ← piece_eq_rewritten column replacement hdots]
      rfl
    · rw [walk?_end d column replacement _ hend, List.drop_eq_nil_of_le hend, tokens]
      rfl

/-- At every position the reader called there stops behind it and within the text, and a round neither reads nor
cuts out what is not in the text. So anchoring by position ends, in no more rounds than there are characters. -/
theorem anchor_by_position (query : String) :
    (∀ (start : Nat) (c : Char), query.toList[start]? = some c →
      (opensLiteral d.quote c = true → Stops query.toList start (literalEnd query.toList c (start + 1))
        (literalBody c (query.toList.drop (start + 1))).rest) ∧
      (c = d.quote → Stops query.toList start (nameAt query.toList d.quote (start + 1)).2
        (unquote d.quote (query.toList.drop (start + 1))).rest) ∧
      (isWordChar c = true → Stops query.toList start (wordEnd query.toList start)
        ((query.toList.drop (start + 1)).dropWhile isWordChar)) ∧
      ∃ piece stop, round? d column replacement query.toList start = some (piece, stop) ∧
        Stops query.toList start stop (Token.next d.quote c (query.toList.drop (start + 1))).2) ∧
    ∀ rounds, query.toList.length ≤ rounds →
      walk? d column replacement query.toList rounds 0 = some (anchor d column replacement query).toList := by
  refine ⟨?_, ?_⟩
  · intro start c hc
    obtain ⟨hstart, rfl⟩ := List.getElem?_eq_some_iff.1 hc
    refine ⟨fun _ => stops_literal _ hstart, fun _ => stops_name d.quote hstart, stops_word hstart, ?_⟩
    obtain ⟨stop, hs, hround⟩ := round?_eq d column replacement (List.drop_eq_getElem_cons hstart)
    exact ⟨_, stop, hround, hs⟩
  · intro rounds hrounds
    have hdot : false = true ↔ (query.toList.take 0).getLast? = some '.' := by simp
    rw [walk?_eq_apply d column replacement hrounds hdot, toList_anchor]
    rfl

end

/-- The last character is a backslash in a literal, and the step of two that it takes leads beyond the end. -/
theorem anchor_by_position_backslash :
    "x='\\".toList[2]? = some '\'' ∧ opensLiteral Dialect.mysql.quote '\'' = true ∧
      Stops "x='\\".toList 2 (literalEnd "x='\\".toList '\'' 3) [] ∧ "x='\\".toList.length ≤ 4 ∧
      walk? .mysql "x" "t.x" "x='\\".toList 4 0 = some "t.x='\\".toList := by
  have hget : "x='\\".toList[2]? = some '\'' := by decide
  have hopens : opensLiteral Dialect.mysql.quote '\'' = true := by decide
  have hlength : "x='\\".toList.length ≤ 4 := by decide
  have hanchor : anchor .mysql "x" "t.x" "x='\\" = "t.x='\\" := by decide +kernel
  obtain ⟨hreaders, hwalk⟩ := anchor_by_position .mysql "x" "t.x" "x='\\"
  exact ⟨hget, hopens, (hreaders 2 '\'' hget).1 hopens, hlength, by rw [hwalk 4 hlength, hanchor]⟩

end SearchFilter.Query
