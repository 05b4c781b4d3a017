import SearchFilter.Fragment.Compile
import SearchFilter.Proofs.Query.Path

/-!
# Anchoring again

The path that is put in the place of a reference fits where the reference stood, and its two names
are beside its dot. So what has been anchored at a path of two words has no reference left and is
not changed by anchoring it again.
-/

namespace SearchFilter.Query
open SearchFilter.Text

/-! ## References -/

def HasReference (d : Dialect) (column : String) (cs : List Char) : Prop :=
  ∃ before t behind, tokens d.quote cs = before ++ t :: behind ∧ t.names column.toList = true ∧
    (textOf d.quote before).getLast? ≠ some '.' ∧ (textOf d.quote behind).head? ≠ some '.'

theorem Settled.beside_dot {column : List Char} {afterDot : Bool} {t : Token} {us vs : List Token}
    (h : Settled column afterDot (us ++ t :: vs)) (ht : t.names column = true) :
    us.getLast?.elim afterDot Token.isDot = true ∨ vs.head?.any Token.isDot = true := by
  induction us generalizing afterDot with
  | nil => simpa using h.1 ht
  | cons u us ih =>
    rcases ih h.2 with hl | hr
    · left
      cases us with
      | nil => exact hl
      | cons v us =>
        rw [List.getLast?_eq_some_getLast (List.cons_ne_nil v us)] at hl
        rw [List.getLast?_cons_cons, List.getLast?_eq_some_getLast (List.cons_ne_nil v us)]
        exact hl
    · exact Or.inr hr

theorem not_hasReference {d : Dialect} {column : String} {cs : List Char}
    (h : Settled column.toList false (tokens d.quote cs)) : ¬ HasReference d column cs := by
  rintro ⟨us, t, vs, hts, ht, hlast, hhead⟩
  rw [hts] at h
  have hfit : Fitting d (us ++ t :: vs) := hts ▸ fitting_tokens d cs
  obtain ⟨hus, hclosed⟩ := hfit.before
  rcases h.beside_dot ht with hl | hr
  · exact hlast ((getLast?_isDot_iff hus hclosed).1 hl)
  · exact hhead ((head?_isDot_iff hfit.of_append.2.2).1 hr)

/-! ## The path in the place of a reference -/

def IsWord (s : String) : Prop :=
  s ≠ "" ∧ ∀ c ∈ s.toList, isWordChar c = true

def Token.path (qualifier name : List Char) : Token → List Token
  | .name _ _ => [.name qualifier true, .symbol '.', .name name true]
  | _ => [.word qualifier, .symbol '.', .word name]

/-- The tokens of a text that comes directly after a dot or not, once the column is anchored at the path. -/
def anchored (column qualifier name : List Char) : Bool → List Token → List Token
  | _, [] => []
  | afterDot, t :: ts =>
    if t.names column = true ∧ (afterDot || ts.head?.any Token.isDot) = false then
      t.path qualifier name ++ anchored column qualifier name false ts
    else t :: anchored column qualifier name t.isDot ts

def pathAnchor (d : Dialect) (column qualifier name : List Char) : Anchor :=
  ⟨column, qualifier ++ '.' :: name, enclose d.quote qualifier ++ '.' :: enclose d.quote name⟩

def Alike (c? d? : Option Char) : Prop :=
  c? = d? ∨ ∃ c d, c? = some c ∧ d? = some d ∧ isWordChar c = true ∧ isWordChar d = true

theorem Readable.endsBefore_congr {d : Dialect} {t : Token} (ht : Readable d t) {c? d? : Option Char}
    (h : t.EndsBefore d.quote c?) (ha : Alike c? d?) : t.EndsBefore d.quote d? := by
  rcases ha with rfl | ⟨x, y, rfl, rfl, hx, hy⟩
  · exact h
  · cases t with
    | literal q body closed =>
      cases closed with
      | true =>
        cases ht with
        | lexeme hl =>
          have hq := (opensLiteral_iff_mem d q).2 hl.literal_inside.1
          rintro he
          cases he
          rw [opensLiteral_of_isWordChar hy] at hq
          cases hq
      | false => cases h
    | name body closed =>
      cases closed with
      | true =>
        rintro he
        cases he
        exact ne_quote_of_isWordChar d hy rfl
      | false => cases h
    | word cs =>
      have hx' := h x rfl
      rw [hx] at hx'
      cases hx'
    | symbol => trivial

/-! ## Anchoring on tokens -/

theorem isDot_of_names {column : List Char} {t : Token} (h : t.names column = true) : t.isDot = false := by
  rcases eq_of_names h with rfl | ⟨closed, rfl⟩ <;> rfl

section
variable {d : Dialect} {column qualifier name : List Char}

theorem textOf_path {t : Token} (h : t.names column = true) :
    textOf d.quote (t.path qualifier name) = (pathAnchor d column qualifier name).replace d.quote t := by
  rcases eq_of_names h with rfl | ⟨closed, rfl⟩
  · simp [textOf, Token.path, Token.text, Anchor.replace, pathAnchor]
  · simp [textOf, Token.path, Token.text, Anchor.replace, pathAnchor, enclose, closing]

theorem textOf_anchored (afterDot : Bool) (ts : List Token) :
    textOf d.quote (anchored column qualifier name afterDot ts) =
      (pathAnchor d column qualifier name).apply d.quote afterDot ts := by
  induction ts generalizing afterDot with
  | nil => rfl
  | cons t ts ih =>
    rw [anchored, apply_cons]
    split
    · rename_i h
      rw [textOf_append, ih, textOf_path h.1, h.2, isDot_of_names h.1]
      rfl
    · rename_i h
      rw [textOf_cons, ih]
      congr 1
      cases hd : (afterDot || ts.head?.any Token.isDot) with
      | true => rfl
      | false =>
        have hn : t.names column = false := Bool.eq_false_iff.2 fun hn => h ⟨hn, hd⟩
        exact (replace_of_not_names d.quote hn).symm

theorem any_isDot_anchored (afterDot : Bool) (ts : List Token) :
    (anchored column qualifier name afterDot ts).head?.any Token.isDot = ts.head?.any Token.isDot := by
  cases ts with
  | nil => rfl
  | cons t ts =>
    rw [anchored]
    split
    · rename_i h
      rw [List.head?_cons, Option.any_some, isDot_of_names h.1]
      cases t <;> rfl
    · rfl

/-- Beside its dot, neither of the two names of the path is a reference. -/
theorem settled_path_append (t : Token) {ts : List Token} (h : Settled column false ts) :
    Settled column false (t.path qualifier name ++ ts) := by
  cases t <;> simpa [Token.path, Settled, Token.isDot, Token.names] using h

theorem settled_anchored (afterDot : Bool) (ts : List Token) :
    Settled column afterDot (anchored column qualifier name afterDot ts) := by
  induction ts generalizing afterDot with
  | nil => trivial
  | cons t ts ih =>
    rw [anchored]
    split
    · rename_i h
      rw [Bool.or_eq_false_iff] at h
      rw [h.2.1]
      exact settled_path_append t (ih false)
    · rename_i h
      refine ⟨fun hn => ?_, ih t.isDot⟩
      rw [any_isDot_anchored]
      cases hd : (afterDot || ts.head?.any Token.isDot) with
      | true => rfl
      | false => exact absurd ⟨hn, hd⟩ h

end

/-! ## The path fits -/

theorem Lexeme.head_isWordChar {d : Dialect} {cs : List Char} (h : Lexeme d (.word cs)) :
    ∃ c ds, cs = c :: ds ∧ isWordChar c = true := by
  cases h with
  | word hn hw =>
    obtain ⟨c, ds, rfl⟩ := List.exists_cons_of_ne_nil hn
    exact ⟨c, ds, rfl, hw c List.mem_cons_self⟩

section
variable {d : Dialect} {column qualifier name : List Char} (hq : Lexeme d (.word qualifier)) (hn : Lexeme d (.word name))
include hq

theorem alike_path {t : Token} (ht : Readable d t) (h : t.names column = true) (name cs : List Char) :
    Alike (t.text d.quote ++ cs).head? (textOf d.quote (t.path qualifier name) ++ cs).head? := by
  rcases eq_of_names h with rfl | ⟨closed, rfl⟩
  · obtain ⟨c, ds, rfl, hc⟩ := (ht.lexeme_of_closed rfl).head_isWordChar
    obtain ⟨x, xs, rfl, hx⟩ := hq.head_isWordChar
    exact Or.inr ⟨c, x, rfl, rfl, hc, hx⟩
  · exact Or.inl rfl

include hn

/-- The path is read as its tokens wherever the reference was read. -/
theorem fitting_path_append {t : Token} (h : t.names column = true) {ts : List Token}
    (he : t.EndsBefore d.quote (textOf d.quote ts).head?) (hts : Fitting d ts) :
    Fitting d (t.path qualifier name ++ ts) := by
  rcases eq_of_names h with rfl | ⟨closed, rfl⟩
  · refine ⟨.lexeme hq, ?_, readable_dot d, trivial, .lexeme hn, he, hts⟩
    intro c hc
    cases hc
    decide
  · refine ⟨.lexeme (.name qualifier), ?_, readable_dot d, trivial, .lexeme (.name name), ?_, hts⟩
    · exact fun h => dot_ne_quote d (Option.some.inj h)
    · cases closed with
      | true => exact he
      | false =>
        -- nothing stands behind a quoted name that is never closed
        have hend : (textOf d.quote ts).head? = none := he
        show (textOf d.quote ts).head? ≠ some d.quote
        rw [hend]
        exact nofun

theorem fitting_anchored {ts : List Token} (h : Fitting d ts) (afterDot : Bool) :
    Fitting d (anchored column qualifier name afterDot ts) ∧
      Alike (textOf d.quote ts).head? (textOf d.quote (anchored column qualifier name afterDot ts)).head? := by
  induction ts generalizing afterDot with
  | nil => exact ⟨trivial, Or.inl rfl⟩
  | cons t ts ih =>
    obtain ⟨ht, he, hts⟩ := h
    obtain ⟨c, cs, htext⟩ := ht.exists_text_eq_cons
    rw [anchored]
    split
    · rename_i href
      obtain ⟨hfit, halike⟩ := ih hts false
      refine ⟨fitting_path_append hq hn href.1 (ht.endsBefore_congr he halike) hfit, ?_⟩
      have hpath := alike_path hq ht href.1 name (textOf d.quote (anchored column qualifier name false ts))
      rw [textOf_cons, textOf_append]
      rw [htext] at hpath ⊢
      exact hpath
    · obtain ⟨hfit, halike⟩ := ih hts t.isDot
      refine ⟨⟨ht, ht.endsBefore_congr he halike, hfit⟩, Or.inl ?_⟩
      rw [textOf_cons, textOf_cons, htext]
      rfl

end

/-! ## Anchoring twice -/

theorem IsWord.dot_not_mem {s : String} (h : IsWord s) : '.' ∉ s.toList := fun hm =>
  absurd (h.2 '.' hm) (by decide)

theorem quotePath_of_words (d : Dialect) {qualifier name : String} (hq : IsWord qualifier) (hn : IsWord name) :
    (d.quotePath (qualifier ++ "." ++ name)).toList =
      enclose d.quote qualifier.toList ++ '.' :: enclose d.quote name.toList := by
  rw [(quotePath_join_iff d qualifier name).2 ⟨hq.dot_not_mem, hn.dot_not_mem⟩]
  simp [Dialect.quoteName]

theorem anchorOf_path (d : Dialect) (column : String) {qualifier name : String} (hq : IsWord qualifier)
    (hn : IsWord name) :
    anchorOf d column (qualifier ++ "." ++ name) = pathAnchor d column.toList qualifier.toList name.toList := by
  rw [anchorOf, pathAnchor, quotePath_of_words d hq hn]
  simp

theorem IsWord.lexeme {s : String} (h : IsWord s) (d : Dialect) : Lexeme d (.word s.toList) :=
  .word (by simpa using h.1) h.2

def Settles (d : Dialect) (column replacement query : String) : Prop :=
  anchor d column replacement (anchor d column replacement query) = anchor d column replacement query ∧
    ¬ HasReference d column (anchor d column replacement query).toList

theorem settles_of_words (d : Dialect) (column : String) {qualifier name : String} (hq : IsWord qualifier)
    (hn : IsWord name) (query : String) : Settles d column (qualifier ++ "." ++ name) query := by
  let ts := anchored column.toList qualifier.toList name.toList false (tokens d.quote query.toList)
  generalize hr : qualifier ++ "." ++ name = r
  have htext : (anchor d column r query).toList = textOf d.quote ts := by
    rw [toList_anchor, anchorChars, ← hr, anchorOf_path d column hq hn, textOf_anchored]
  have htokens : tokens d.quote (anchor d column r query).toList = ts := by
    rw [htext]
    exact tokens_textOf (fitting_anchored (hq.lexeme d) (hn.lexeme d) (fitting_tokens d query.toList) false).1
  have hsettled : Settled column.toList false (tokens d.quote (anchor d column r query).toList) := by
    rw [htokens]
    exact settled_anchored false _
  refine ⟨?_, not_hasReference hsettled⟩
  rw [← String.toList_inj, toList_anchor d column r (anchor d column r query), anchorChars,
    apply_of_settled _ d.quote hsettled, textOf_tokens]

/-- A column of the entity table is anchored at the alias of its table, and the price at its column
in the index of prices. Either way all of a condition is anchored at once, whether its literals and
quoted names are closed or not. -/
theorem anchor_settles (d : Dialect) {column tableAlias : String} (hc : IsWord column) (ha : IsWord tableAlias)
    (query : String) :
    Settles d column (tableAlias ++ "." ++ column) query ∧ Settles d priceField Fragment.minPriceColumn query :=
  have hindex : IsWord "price_index" := ⟨by decide, List.all_eq_true.1 (by decide)⟩
  have hmin : IsWord "min_price" := ⟨by decide, List.all_eq_true.1 (by decide)⟩
  ⟨settles_of_words d column ha hc query, settles_of_words d priceField hindex hmin query⟩

/-- An alias with the name of the column, a literal without a space in front, a doubled quote, a
dot on either side, and a quoted name that is never closed. -/
theorem anchor_settles_sku :
    let query := "'sku'sku=`sku` AND `sku``` <> e.sku AND sku.x = \"sku\" OR (`sku"
    IsWord "sku" ∧ IsWord "sku" ∧
      Settles .mysql "sku" ("sku" ++ "." ++ "sku") query ∧ Settles .mysql priceField Fragment.minPriceColumn query :=
  have h : IsWord "sku" := ⟨by decide, List.all_eq_true.1 (by decide)⟩
  ⟨h, h, anchor_settles .mysql h h _⟩

example :
    anchor .mysql "sku" "sku.sku" "'sku'sku=`sku` AND `sku``` <> e.sku AND sku.x = \"sku\" OR (`sku" =
      "'sku'sku.sku=`sku`.`sku` AND `sku``` <> e.sku AND sku.x = \"sku\" OR (`sku`.`sku`" := by
  decide +kernel

end SearchFilter.Query
