import SearchFilter.Proofs.Query.Closed
import SearchFilter.Proofs.Query.Fitting

/-!
# The parts of a condition

The text before a token and the text behind it are anchored as if each stood alone, unless the token
is a dot (`anchor_of_readsBetween`). A space behind a text that leaves nothing open is such a token,
so conditions that are joined by spaces and a word are anchored one by one (`anchor_spaced`).
-/

namespace SearchFilter.Query
open SearchFilter.Text

/-! ## Around a token -/

/-- A token that is no dot separates what stands before it from what stands behind it. -/
theorem apply_append_cons (a : Anchor) (quote : Char) {t : Token} (ht : t.isDot = false) (us vs : List Token)
    (afterDot : Bool) :
    a.apply quote afterDot (us ++ t :: vs) =
      a.apply quote afterDot us ++
        ((if (us.getLast?.elim afterDot Token.isDot || vs.head?.any Token.isDot) = true then t.text quote
          else a.replace quote t) ++ a.apply quote false vs) := by
  induction us generalizing afterDot with
  | nil =>
    rw [List.nil_append, apply_cons, ht]
    rfl
  | cons u us ih =>
    rw [List.cons_append, apply_cons, apply_cons, ih, List.append_assoc]
    cases us with
    | nil => simp [ht]
    | cons v us => simp [List.getLast?_cons]

def ReadsBetween (d : Dialect) (t : Token) (before behind query : String) : Prop :=
  tokens d.quote query.toList = tokens d.quote before.toList ++ t :: tokens d.quote behind.toList

theorem readsBetween_of_tokens {d : Dialect} {query : String} {us vs : List Token} {t : Token}
    (h : tokens d.quote query.toList = us ++ t :: vs) :
    ReadsBetween d t (String.ofList (textOf d.quote us)) (String.ofList (textOf d.quote vs)) query := by
  obtain ⟨hus, hvs⟩ := tokens_around h
  rw [ReadsBetween, String.toList_ofList, String.toList_ofList, hus, hvs, h]

section
variable {d : Dialect} {t : Token} {before behind query : String} (h : ReadsBetween d t before behind query)
include h

theorem ReadsBetween.fitting :
    Fitting d (tokens d.quote before.toList ++ t :: tokens d.quote behind.toList) := by
  rw [← h]
  exact fitting_tokens d query.toList

theorem ReadsBetween.toList_eq : query.toList = before.toList ++ (t.text d.quote ++ behind.toList) := by
  have htext := congrArg (textOf d.quote) h
  rwa [textOf_append, textOf_cons, textOf_tokens, textOf_tokens, textOf_tokens] at htext

theorem anchor_of_readsBetween (ht : t.isDot = false) (column replacement : String) :
    anchor d column replacement query =
      anchor d column replacement before ++
        String.ofList (t.rewritten d column replacement before.toList behind.toList) ++
        anchor d column replacement behind := by
  obtain ⟨hfit, hclosed⟩ := h.fitting.before
  have hlast := getLast?_isDot_iff hfit hclosed
  have hhead := head?_isDot_iff (fitting_tokens d behind.toList)
  rw [textOf_tokens] at hlast hhead
  have hdots : ((tokens d.quote before.toList).getLast?.elim false Token.isDot ||
      (tokens d.quote behind.toList).head?.any Token.isDot) = true ↔
        before.toList.getLast? = some '.' ∨ behind.toList.head? = some '.' := by
    rw [Bool.or_eq_true, hlast, hhead]
  rw [← String.toList_inj, String.toList_append, String.toList_append, toList_anchor, toList_anchor, toList_anchor,
    String.toList_ofList, ← piece_eq_rewritten column replacement hdots, anchorChars, h, apply_append_cons _ _ ht,
    List.append_assoc]
  rfl

end

/-! ## Spaces between conditions -/

def IsWhole (d : Dialect) (query : String) : Prop :=
  ∀ t ∈ tokens d.quote query.toList, t.isOpen = false

theorem isWhole_iff (d : Dialect) (query : String) :
    IsWhole d query ↔ Mode.after true d.quote .outside query.toList = .outside := by
  constructor
  · intro h
    refine Classical.byContradiction fun hm => ?_
    obtain ⟨us, t, ht, ho, -⟩ := tokens_of_open d hm (Breaks.nil d.quote) (by simp)
    have hc := h t (by simp [ht])
    rw [ho] at hc
    cases hc
  · intro h t ht
    exact (tokens_of_outside d h t ht).2

instance (d : Dialect) (query : String) : Decidable (IsWhole d query) :=
  decidable_of_iff _ (isWhole_iff d query).symm

section
variable {d : Dialect}

theorem anchor_space {p : String} (h : IsWhole d p) (column replacement q : String) :
    anchor d column replacement (p ++ " " ++ q) =
      anchor d column replacement p ++ " " ++ anchor d column replacement q := by
  have hspace := anchorChars_space d column replacement q.toList ((isWhole_iff d p).1 h)
  rw [← String.toList_inj]
  simpa [toList_anchor] using hspace

/-- For other conditions there is a column whose references behind the space are missed. -/
theorem isWhole_of_anchor_space {p : String}
    (h : ∀ column replacement q : String, anchor d column replacement (p ++ " " ++ q) =
      anchor d column replacement p ++ " " ++ anchor d column replacement q) : IsWhole d p := by
  rw [isWhole_iff]
  refine Classical.byContradiction fun hm => ?_
  rw [← List.append_nil p.toList] at hm
  obtain ⟨column, replacement, ts, hts, hne⟩ := exists_anchorChars_ne d hm
  obtain ⟨qs, rfl⟩ := List.head?_eq_some_iff.1 hts
  have hq := congrArg String.toList (h column replacement (String.ofList qs))
  apply hne
  rw [anchorChars_space_cons]
  simpa [toList_anchor] using hq

/-- Conditions joined by a word between two spaces. -/
theorem anchor_intercalate {w : String} (hw : IsWhole d w) (column replacement : String) :
    ∀ qs : List String, (∀ q ∈ qs.dropLast, IsWhole d q) →
      anchor d column replacement ((" " ++ w ++ " ").intercalate qs) =
        (" " ++ anchor d column replacement w ++ " ").intercalate (qs.map (anchor d column replacement))
  | [], _ => by simp [anchor, tokens, Anchor.apply]
  | [q], _ => by simp
  | q :: q' :: qs, h => by
    have hq : IsWhole d q := h q (by simp)
    have ih := anchor_intercalate hw column replacement (q' :: qs) fun p hp => h p (by simp [hp])
    rw [List.map_cons, List.map_cons, String.intercalate_cons_cons, String.intercalate_cons_cons, ← List.map_cons, ← ih]
    generalize (" " ++ w ++ " ").intercalate (q' :: qs) = rest
    have hrest := anchor_space hq column replacement (w ++ " " ++ rest)
    rw [anchor_space hw] at hrest
    simpa [String.append_assoc] using hrest

end

/-- Behind a condition that leaves nothing open, whatever follows a space is anchored as if it stood alone.
Conditions joined by `AND` are anchored one by one, and so is the word between them, which stays unless
it is the column. -/
theorem anchor_spaced (d : Dialect) (column replacement : String) :
    (∀ p q : String, IsWhole d p →
      anchor d column replacement (p ++ " " ++ q) =
        anchor d column replacement p ++ " " ++ anchor d column replacement q) ∧
      (∀ qs : List String, (∀ q ∈ qs.dropLast, IsWhole d q) →
        anchor d column replacement (" AND ".intercalate qs) =
          (" " ++ anchor d column replacement "AND" ++ " ").intercalate (qs.map (anchor d column replacement))) ∧
      (column ≠ "AND" → anchor d column replacement "AND" = "AND") := by
  have hword : ∀ c ∈ "AND".toList, isWordChar c = true := List.all_eq_true.1 (by decide)
  refine ⟨fun p q h => anchor_space h column replacement q, fun qs h => ?_, fun hc => ?_⟩
  · have hand : IsWhole d "AND" := by
      cases d <;> decide
    exact anchor_intercalate hand column replacement qs h
  · have hne : "AND".toList ≠ column.toList := fun he => hc (String.toList_inj.1 he).symm
    rw [← String.toList_inj, toList_anchor, anchorChars_word d column replacement (by decide) hword, if_neg hne]

/-- Two comparisons with the column in a literal and behind it, and one that is cut off in a quoted name. -/
theorem anchor_spaced_color :
    (IsWhole .mysql "`color` = 'color'" ∧
      anchor .mysql "color" "e.color" ("`color` = 'color'" ++ " " ++ "OR `color") =
        anchor .mysql "color" "e.color" "`color` = 'color'" ++ " " ++ anchor .mysql "color" "e.color" "OR `color") ∧
      ((∀ q ∈ ["color = 1", "`color` = 'color'", "x = `color"].dropLast, IsWhole .mysql q) ∧
        anchor .mysql "color" "e.color" (" AND ".intercalate ["color = 1", "`color` = 'color'", "x = `color"]) =
          (" " ++ anchor .mysql "color" "e.color" "AND" ++ " ").intercalate
            (["color = 1", "`color` = 'color'", "x = `color"].map (anchor .mysql "color" "e.color"))) ∧
      "color" ≠ "AND" ∧ anchor .mysql "color" "e.color" "AND" = "AND" :=
  have h := anchor_spaced .mysql "color" "e.color"
  have hp : IsWhole .mysql "`color` = 'color'" := by decide
  have hqs : ∀ q ∈ ["color = 1", "`color` = 'color'", "x = `color"].dropLast, IsWhole .mysql q := by decide
  ⟨⟨hp, h.1 _ _ hp⟩, ⟨hqs, h.2.1 _ hqs⟩, by decide, h.2.2 (by decide)⟩

end SearchFilter.Query
