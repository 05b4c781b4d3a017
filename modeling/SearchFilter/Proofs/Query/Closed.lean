import SearchFilter.Proofs.Query.Literal

/-!
# Closed texts

A text is closed if nothing is open at its end: no literal, no quoted name, and no bracket among
those that stand outside of both. Closed texts can be put one behind the other, and a text stays
closed if a column is anchored in it.
-/

namespace SearchFilter.Query
open SearchFilter.Text

def weight (c : Char) : Int :=
  if c = '(' then 1 else if c = ')' then -1 else 0

namespace Mode

def gain (m : Mode) (c : Char) : Int :=
  if m = .outside then weight c else 0

/-- The brackets opened in a text that begins in this mode, less those closed. -/
def depth (escapes : Bool) (quote : Char) : Mode → List Char → Int
  | _, [] => 0
  | m, c :: cs => m.gain c + depth escapes quote (m.step escapes quote c) cs

end Mode

structure Closed (escapes : Bool) (quote : Char) (cs : List Char) : Prop where
  outside : Mode.after escapes quote .outside cs = .outside
  /-- No bracket is closed that was not opened. -/
  depth_nonneg : ∀ ps, ps <+: cs → 0 ≤ Mode.depth escapes quote .outside ps
  depth_eq_zero : Mode.depth escapes quote .outside cs = 0

/-! ## Following a text -/

structure Place where
  mode : Mode
  depth : Nat
  deriving DecidableEq, Repr

namespace Place

variable (escapes : Bool) (quote : Char)

/-- There is no place behind a bracket that closes what was never opened. -/
def step? (p : Place) (c : Char) : Option Place :=
  let depth := p.depth + p.mode.gain c
  if 0 ≤ depth then some ⟨p.mode.step escapes quote c, depth.toNat⟩ else none

def after? : Place → List Char → Option Place
  | p, [] => some p
  | p, c :: cs => (p.step? escapes quote c).bind (after? · cs)

variable {escapes quote}

theorem after?_append (p : Place) (cs ds : List Char) :
    p.after? escapes quote (cs ++ ds) = (p.after? escapes quote cs).bind (·.after? escapes quote ds) := by
  induction cs generalizing p with
  | nil => rfl
  | cons c cs ih =>
    rw [List.cons_append, after?, after?, Option.bind_assoc]
    congr 1
    funext q
    exact ih q

theorem after?_cons_of_step? {p q : Place} {c : Char} (h : p.step? escapes quote c = some q) (cs : List Char) :
    p.after? escapes quote (c :: cs) = q.after? escapes quote cs := by
  rw [after?, h]; rfl

theorem step?_eq_some_iff (m k : Mode) (n l : Nat) (c : Char) :
    step? escapes quote ⟨m, n⟩ c = some ⟨k, l⟩ ↔ m.step escapes quote c = k ∧ (l : Int) = n + m.gain c := by
  simp only [step?]
  split
  · simp only [Option.some.injEq, mk.injEq]
    constructor
    · rintro ⟨hk, rfl⟩
      exact ⟨hk, by omega⟩
    · rintro ⟨hk, hl⟩
      exact ⟨hk, by omega⟩
  · refine iff_of_false (by simp) ?_
    rintro ⟨-, hl⟩
    omega

theorem step?_of_ne_outside {m : Mode} (hm : m ≠ .outside) (n : Nat) (c : Char) :
    step? escapes quote ⟨m, n⟩ c = some ⟨m.step escapes quote c, n⟩ :=
  (step?_eq_some_iff _ _ _ _ _).2 ⟨rfl, by simp [Mode.gain, hm]⟩

theorem step?_of_not_bracket (m : Mode) (n : Nat) {c : Char} (ho : c ≠ '(') (hc : c ≠ ')') :
    step? escapes quote ⟨m, n⟩ c = some ⟨m.step escapes quote c, n⟩ :=
  (step?_eq_some_iff _ _ _ _ _).2 ⟨rfl, by simp [Mode.gain, weight, ho, hc]⟩

/-- What is followed is the mode and the depth, as long as that does not fall below zero. -/
theorem after?_eq_some_iff (m k : Mode) (n l : Nat) (cs : List Char) :
    after? escapes quote ⟨m, n⟩ cs = some ⟨k, l⟩ ↔
      m.after escapes quote cs = k ∧ (∀ ps, ps <+: cs → 0 ≤ n + m.depth escapes quote ps) ∧
        n + m.depth escapes quote cs = l := by
  induction cs generalizing m n with
  | nil =>
    simp only [after?, Option.some.injEq, mk.injEq, Mode.after_nil, List.prefix_nil, forall_eq, Mode.depth]
    constructor
    · rintro ⟨hk, rfl⟩
      exact ⟨hk, by omega, by omega⟩
    · rintro ⟨hk, -, hl⟩
      exact ⟨hk, by omega⟩
  | cons c cs ih =>
    have hcons : ∀ w : Nat, (w : Int) = n + m.gain c → ∀ ps,
        (n : Int) + m.depth escapes quote (c :: ps) = w + (m.step escapes quote c).depth escapes quote ps := by
      intro w hw ps
      rw [Mode.depth, hw]
      omega
    rw [after?, Option.bind_eq_some_iff]
    constructor
    · rintro ⟨⟨m', w⟩, hs, hrest⟩
      obtain ⟨rfl, hw⟩ := (step?_eq_some_iff _ _ _ _ _).1 hs
      obtain ⟨ha, hp, hz⟩ := (ih _ _).1 hrest
      refine ⟨ha, fun ps hps => ?_, by rw [hcons w hw, hz]⟩
      rcases List.prefix_cons_iff.1 hps with rfl | ⟨qs, rfl, hqs⟩
      · rw [Mode.depth]; omega
      · rw [hcons w hw]
        exact hp qs hqs
    · rintro ⟨ha, hp, hz⟩
      have hone := hp [c] (List.cons_prefix_cons.2 ⟨rfl, List.nil_prefix⟩)
      obtain ⟨w, hw⟩ := Int.eq_ofNat_of_zero_le (a := n + m.gain c) (by simpa [Mode.depth] using hone)
      refine ⟨⟨_, w⟩, (step?_eq_some_iff _ _ _ _ _).2 ⟨rfl, hw.symm⟩, (ih _ _).2 ⟨ha, fun ps hps => ?_, ?_⟩⟩
      · rw [← hcons w hw.symm]
        exact hp _ (List.cons_prefix_cons.2 ⟨rfl, hps⟩)
      · rw [← hcons w hw.symm, hz]

theorem mode_of_after? {p q : Place} {cs : List Char} (h : p.after? escapes quote cs = some q) :
    q.mode = p.mode.after escapes quote cs :=
  ((after?_eq_some_iff _ _ _ _ _).1 h).1.symm

end Place

section
variable {e : Bool} {quote : Char} {cs ds : List Char}

theorem closed_iff : Closed e quote cs ↔ Place.after? e quote ⟨.outside, 0⟩ cs = some ⟨.outside, 0⟩ := by
  rw [Place.after?_eq_some_iff]
  constructor
  · intro h
    exact ⟨h.outside, fun ps hps => by simpa using h.depth_nonneg ps hps, by simpa using h.depth_eq_zero⟩
  · rintro ⟨ho, hn, hz⟩
    exact ⟨ho, fun ps hps => by simpa using hn ps hps, by simpa using hz⟩

/-- A closed text leaves every place outside as it was. -/
theorem closed_iff_forall :
    Closed e quote cs ↔ ∀ n, Place.after? e quote ⟨.outside, n⟩ cs = some ⟨.outside, n⟩ := by
  refine ⟨fun h n => ?_, fun h => closed_iff.2 (h 0)⟩
  rw [Place.after?_eq_some_iff]
  refine ⟨h.outside, fun ps hps => ?_, ?_⟩
  · have := h.depth_nonneg ps hps
    omega
  · have := h.depth_eq_zero
    omega

instance : Decidable (Closed e quote cs) :=
  decidable_of_iff _ closed_iff.symm

example : Closed true '`' "(a = '\\')(' AND `)` = 1)".toList ∧ ¬ Closed true '`' "1) OR (2".toList := by decide

theorem Closed.nil : Closed e quote [] :=
  closed_iff.2 rfl

theorem Closed.append (hc : Closed e quote cs) (hd : Closed e quote ds) : Closed e quote (cs ++ ds) := by
  rw [closed_iff_forall] at hc hd ⊢
  intro n
  rw [Place.after?_append, hc n]
  exact hd n

theorem Closed.flatMap {α : Type} {f : α → List Char} {xs : List α} (h : ∀ x ∈ xs, Closed e quote (f x)) :
    Closed e quote (xs.flatMap f) := by
  induction xs with
  | nil => exact .nil
  | cons x xs ih =>
    rw [List.flatMap_cons]
    exact (h x List.mem_cons_self).append (ih fun y hy => h y (List.mem_cons_of_mem x hy))

end

/-! ## Kinds of closed texts -/

def isInert (quote c : Char) : Bool :=
  !opensLiteral quote c && c ≠ quote && c ≠ '(' && c ≠ ')'

theorem isInert_iff (quote c : Char) :
    isInert quote c = true ↔ opensLiteral quote c = false ∧ c ≠ quote ∧ c ≠ '(' ∧ c ≠ ')' := by
  simp [isInert, and_assoc]

theorem isInert_of_isWordChar (d : Dialect) {c : Char} (h : isWordChar c = true) : isInert d.quote c = true := by
  refine (isInert_iff _ _).2 ⟨opensLiteral_of_isWordChar h, ne_quote_of_isWordChar d h, ?_, ?_⟩
  · rintro rfl; exact absurd h (by decide)
  · rintro rfl; exact absurd h (by decide)

theorem closed_of_isInert {e : Bool} {quote : Char} {cs : List Char} (h : ∀ c ∈ cs, isInert quote c = true) :
    Closed e quote cs := by
  rw [closed_iff_forall]
  intro n
  induction cs with
  | nil => rfl
  | cons c cs ih =>
    obtain ⟨hl, hq, ho, hc⟩ := (isInert_iff _ _).1 (h c List.mem_cons_self)
    rw [Place.after?_cons_of_step? (Place.step?_of_not_bracket _ _ ho hc)]
    simpa [Mode.step, hl, hq] using ih fun x hx => h x (List.mem_cons_of_mem c hx)

theorem closed_word (e : Bool) (d : Dialect) {cs : List Char} (h : ∀ c ∈ cs, isWordChar c = true) :
    Closed e d.quote cs :=
  closed_of_isInert fun c hc => isInert_of_isWordChar d (h c hc)

theorem Closed.brackets {e : Bool} {d : Dialect} {cs : List Char} (h : Closed e d.quote cs) :
    Closed e d.quote ('(' :: (cs ++ [')'])) := by
  rw [closed_iff_forall] at h ⊢
  intro n
  have ho : Place.step? e d.quote ⟨.outside, n⟩ '(' = some ⟨.outside, n + 1⟩ :=
    (Place.step?_eq_some_iff _ _ _ _ _).2 ⟨by cases d <;> rfl, rfl⟩
  have hc : Place.step? e d.quote ⟨.outside, n + 1⟩ ')' = some ⟨.outside, n⟩ := by
    have hgain : Mode.gain .outside ')' = -1 := rfl
    exact (Place.step?_eq_some_iff _ _ _ _ _).2 ⟨by cases d <;> rfl, by omega⟩
  rw [Place.after?_cons_of_step? ho, Place.after?_append, h (n + 1)]
  exact Place.after?_cons_of_step? hc []

section
variable {e : Bool} {quote δ : Char} {m : Mode} (hm : m ≠ .outside)
  (hopen : Mode.step e quote .outside δ = m) (hclose : m.step e quote δ = .outside) (ho : δ ≠ '(') (hc : δ ≠ ')')
include hm hopen hclose ho hc

/-- A text between two delimiters is closed if it leaves the mode between them as it is. -/
theorem closed_between {cs : List Char} (h : ∀ n, Place.after? e quote ⟨m, n⟩ cs = some ⟨m, n⟩) :
    Closed e quote (δ :: (cs ++ [δ])) := by
  rw [closed_iff_forall]
  intro n
  rw [Place.after?_cons_of_step? (Place.step?_of_not_bracket _ _ ho hc), hopen, Place.after?_append, h n]
  show Place.after? e quote ⟨m, n⟩ [δ] = _
  rw [Place.after?_cons_of_step? (Place.step?_of_ne_outside hm n δ), hclose]
  rfl

theorem closed_enclose (hkeep : ∀ c, c ≠ δ → m.step e quote c = m) (cs : List Char) :
    Closed e quote (enclose δ cs) := by
  refine closed_between hm hopen hclose ho hc fun n => ?_
  induction cs with
  | nil => rfl
  | cons c cs ih =>
    rw [double]
    split
    · -- the first of the two closes and the second opens again
      rw [Place.after?_cons_of_step? (Place.step?_of_ne_outside hm n δ), hclose,
        Place.after?_cons_of_step? (Place.step?_of_not_bracket _ _ ho hc), hopen]
      exact ih
    · rename_i hcδ
      rw [Place.after?_cons_of_step? (Place.step?_of_ne_outside hm n c), hkeep c hcδ]
      exact ih

end

theorem closed_name (e : Bool) (d : Dialect) (cs : List Char) : Closed e d.quote (enclose d.quote cs) := by
  have hopen : Mode.step e d.quote .outside d.quote = .inName := by
    rw [Mode.step, opensLiteral_quote, if_neg Bool.false_ne_true, if_pos rfl]
  have hclose : Mode.step e d.quote .inName d.quote = .outside := if_pos rfl
  refine closed_enclose (by simp) hopen hclose ?_ ?_ (fun c hc => if_neg hc) cs
  · cases d <;> decide
  · cases d <;> decide

theorem after?_of_inside {quote δ : Char} (hδ : opensLiteral quote δ = true) {cs : List Char} (h : Inside δ cs)
    (n : Nat) : Place.after? true quote ⟨.inLiteral δ, n⟩ cs = some ⟨.inLiteral δ, n⟩ := by
  have hb := ne_backslash_of_opensLiteral hδ
  have step (c : Char) : Place.step? true quote ⟨.inLiteral δ, n⟩ c = some ⟨Mode.step true quote (.inLiteral δ) c, n⟩ :=
    Place.step?_of_ne_outside (by simp) n c
  induction h with
  | nil => rfl
  | escape c _ ih =>
    have hs : Mode.step true quote (.inLiteral δ) '\\' = .escaped δ := by simp [Mode.step, Ne.symm hb]
    rw [Place.after?_cons_of_step? (step '\\'), hs,
      Place.after?_cons_of_step? (Place.step?_of_ne_outside (by simp) n c)]
    exact ih
  | doubled _ ih =>
    have hs : Mode.step true quote (.inLiteral δ) δ = .outside := if_pos rfl
    have hbracket : δ ≠ '(' ∧ δ ≠ ')' := by
      constructor <;> · rintro rfl; simp [opensLiteral] at hδ
    rw [Place.after?_cons_of_step? (step δ), hs,
      Place.after?_cons_of_step? (Place.step?_of_not_bracket _ _ hbracket.1 hbracket.2)]
    simpa [Mode.step, hδ] using ih
  | @plain c cs hcb hcδ _ ih =>
    have hs : Mode.step true quote (.inLiteral δ) c = .inLiteral δ := by simp [Mode.step, hcb, hcδ]
    rw [Place.after?_cons_of_step? (step c), hs]
    exact ih

/-- A literal is closed for the dialect that wrote it. -/
theorem closed_literal (d : Dialect) (cs : List Char) :
    Closed (escapes d) d.quote ('\'' :: (written d cs ++ ['\''])) := by
  cases d with
  | mysql =>
    exact closed_between (by simp) (by decide) (by decide) (by decide) (by decide)
      (after?_of_inside (by decide) (inside_flatMap_escape cs))
  | postgres =>
    refine closed_enclose (m := .inLiteral '\'') (by simp) (by decide) (by decide) (by decide) (by decide) ?_ cs
    intro c hc
    simp [Mode.step, escapes, hc]

/-! ## Anchoring -/

section
variable (e : Bool) (quote : Char) {m : Mode} (hm : ∀ δ, m ≠ .escaped δ)
include hm

theorem Mode.step_of_ne_backslash {c : Char} (hc : c ≠ '\\') :
    m.step e quote c = m.step true quote c ∧ ∀ δ, m.step true quote c ≠ .escaped δ := by
  cases m with
  | outside =>
    refine ⟨rfl, fun δ => ?_⟩
    rw [Mode.step]
    split
    · simp
    · split <;> simp
  | inLiteral δ' =>
    simp only [Mode.step, hc, decide_false, Bool.and_false, Bool.false_eq_true, if_false, true_and]
    split <;> simp
  | escaped δ => exact absurd rfl (hm δ)
  | inName =>
    refine ⟨rfl, fun δ => ?_⟩
    rw [Mode.step]
    split <;> simp

theorem Mode.after_of_not_backslash {cs : List Char} (h : '\\' ∉ cs) :
    m.after e quote cs = m.after true quote cs := by
  induction cs generalizing m with
  | nil => rfl
  | cons c cs ih =>
    rw [List.mem_cons, not_or] at h
    obtain ⟨hs, hne⟩ := Mode.step_of_ne_backslash e quote hm (Ne.symm h.1)
    rw [Mode.after_cons, Mode.after_cons, hs]
    exact ih hne h.2

end

/-- A text that ends outside of everything is made of tokens that are none of them cut off. -/
theorem tokens_of_outside (d : Dialect) {cs : List Char} (h : Mode.after true d.quote .outside cs = .outside) :
    ∀ t ∈ tokens d.quote cs, Lexeme d t ∧ t.isOpen = false := by
  fun_induction tokens d.quote cs with
  | case1 => intro t ht; cases ht
  | case2 c cs ih =>
    have ho : (Token.next d.quote c cs).1.isOpen = false :=
      Bool.eq_false_iff.2 fun ho => after_ne_outside_of_open d ho h
    rw [after_of_closed d ho] at h
    intro t ht
    rcases List.mem_cons.1 ht with rfl | ht
    · refine ⟨lexeme_next d c cs fun body hb => ?_, ho⟩
      rw [hb] at ho
      cases ho
    · exact ih h t ht

section
variable {d : Dialect} {e : Bool} {t : Token}

theorem Lexeme.after_text (h : Lexeme d t) (ho : t.isOpen = false) (he : e = true ∨ '\\' ∉ t.text d.quote) :
    Mode.after e d.quote .outside (t.text d.quote) = .outside := by
  have htrue : Mode.after true d.quote .outside (t.text d.quote) = .outside := by
    obtain ⟨c, cs, ht, hn⟩ := h.next_text
    rw [ht, after_of_closed d (by rwa [hn]), hn]
    rfl
  rcases he with rfl | he
  · exact htrue
  · rw [Mode.after_of_not_backslash e d.quote (by simp) he, htrue]

theorem Lexeme.closed_word {cs : List Char} (h : Lexeme d (.word cs)) : Closed e d.quote cs := by
  cases h with
  | word _ hw => exact Query.closed_word e d hw

theorem Lexeme.closed_name {body : List Char} {closed : Bool} (h : Lexeme d (.name body closed)) :
    Closed e d.quote (Token.text d.quote (.name body closed)) := by
  cases h with
  | name => exact Query.closed_name e d body

variable {a : Anchor} (hbare : Closed e d.quote a.bare) (hquoted : Closed e d.quote a.quoted)
include hbare hquoted

/-- A word or a quoted name leads to the same place as what is put there instead. -/
theorem after?_replace (h : Lexeme d t) (n : Nat) :
    Place.after? e d.quote ⟨.outside, n⟩ (a.replace d.quote t) =
      Place.after? e d.quote ⟨.outside, n⟩ (t.text d.quote) := by
  cases t with
  | word cs =>
    rw [Anchor.replace]
    split
    · rw [closed_iff_forall.1 hbare n, Token.text, closed_iff_forall.1 h.closed_word n]
    · rfl
  | name body closed =>
    rw [Anchor.replace]
    split
    · rw [closed_iff_forall.1 hquoted n, closed_iff_forall.1 h.closed_name n]
    · rfl
  | literal => rfl
  | symbol => rfl

theorem after?_apply {ts : List Token} (hts : ∀ t ∈ ts, Lexeme d t ∧ t.isOpen = false)
    (he : e = true ∨ '\\' ∉ textOf d.quote ts) (afterDot : Bool) (n : Nat) :
    Place.after? e d.quote ⟨.outside, n⟩ (a.apply d.quote afterDot ts) =
      Place.after? e d.quote ⟨.outside, n⟩ (textOf d.quote ts) := by
  induction ts generalizing afterDot n with
  | nil => rfl
  | cons t ts ih =>
    obtain ⟨hl, ho⟩ := hts t List.mem_cons_self
    have htext : textOf d.quote (t :: ts) = t.text d.quote ++ textOf d.quote ts := List.flatMap_cons
    rw [htext, List.mem_append, not_or] at he
    have hpiece : Place.after? e d.quote ⟨.outside, n⟩
        (if (afterDot || ts.head?.any Token.isDot) = true then t.text d.quote else a.replace d.quote t) =
        Place.after? e d.quote ⟨.outside, n⟩ (t.text d.quote) := by
      split
      · rfl
      · exact after?_replace hbare hquoted hl n
    rw [apply_cons, htext, Place.after?_append, Place.after?_append, hpiece]
    cases hp : Place.after? e d.quote ⟨.outside, n⟩ (t.text d.quote) with
    | none => rfl
    | some p =>
      -- the token ends outside, where the rest begins
      have hm := Place.mode_of_after? hp
      rw [hl.after_text ho (he.imp_right And.left)] at hm
      obtain ⟨m, k⟩ := p
      obtain rfl : m = .outside := hm
      exact ih (fun t ht => hts t (List.mem_cons_of_mem _ ht)) (he.imp_right And.right) t.isDot k

end

theorem closed_intercalate {e : Bool} {quote : Char} {separator : List Char} (hs : Closed e quote separator)
    {xs : List (List Char)} (h : ∀ x ∈ xs, Closed e quote x) : Closed e quote (separator.intercalate xs) := by
  induction xs with
  | nil => exact .nil
  | cons x xs ih =>
    have hx := h x List.mem_cons_self
    have hxs : ∀ y ∈ xs, Closed e quote y := fun y hy => h y (List.mem_cons_of_mem x hy)
    cases xs with
    | nil => rwa [List.intercalate_singleton]
    | cons y xs =>
      rw [List.intercalate_cons_cons]
      exact (hx.append hs).append (ih hxs)

theorem closed_quotePath (e : Bool) (d : Dialect) (path : String) : Closed e d.quote (d.quotePath path).toList := by
  rw [Dialect.quotePath, String.toList_ofList]
  refine closed_intercalate (closed_of_isInert fun c hc => ?_) fun x hx => ?_
  · rw [List.mem_singleton.1 hc]
    cases d <;> decide
  · obtain ⟨part, -, rfl⟩ := List.mem_map.1 hx
    exact closed_name e d part

/-- Anchoring follows the rules of its own reader, which are those of the dialect unless there
are backslashes. -/
theorem Closed.anchor {d : Dialect} {e : Bool} {query : String} (h : Closed e d.quote query.toList)
    (he : e = true ∨ '\\' ∉ query.toList) (column : String) {replacement : String}
    (hr : Closed e d.quote replacement.toList) : Closed e d.quote (anchor d column replacement query).toList := by
  have htrue : Mode.after true d.quote .outside query.toList = .outside := by
    rcases he with rfl | he
    · exact h.outside
    · rw [← Mode.after_of_not_backslash e d.quote (by simp) he]
      exact h.outside
  have hbare : Closed e d.quote (anchorOf d column replacement).bare := by
    simpa only [anchorOf] using hr
  have hquoted : Closed e d.quote (anchorOf d column replacement).quoted := by
    simpa only [anchorOf] using closed_quotePath e d replacement
  have htext : e = true ∨ '\\' ∉ textOf d.quote (tokens d.quote query.toList) := by rwa [textOf_tokens]
  rw [closed_iff_forall] at h ⊢
  intro n
  have happly := after?_apply hbare hquoted (tokens_of_outside d htrue) htext false n
  rw [textOf_tokens, h n] at happly
  rw [toList_anchor, anchorChars, happly]

end SearchFilter.Query
