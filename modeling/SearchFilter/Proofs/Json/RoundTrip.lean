import Mathlib.Data.List.Forall2
import SearchFilter.Json.Shape
import SearchFilter.Proofs.Json.Token

/-!
# JSON values read back

The text of a value is cut into the tokens of the value, and these make up the value again. So a
value whose strings are texts is read back from its text, however deep it is. Of a record the fields
are found again, one by one.
-/

namespace SearchFilter.Json

theorem mapM_eq_some_iff {α β : Type} {f : α → Option β} {xs : List α} {ys : List β} :
    xs.mapM f = some ys ↔ List.Forall₂ (fun x y => f x = some y) xs ys := by
  induction xs generalizing ys with
  | nil => simp [eq_comm]
  | cons x xs ih => simp [List.mapM_cons, Option.bind_eq_some_iff, List.forall₂_cons_left_iff, ih, @eq_comm _ ys]

namespace Node

/-! ## From tokens to values -/

theorem head?_tokens (t : Node) : ∃ k ks, t.tokens = k :: ks ∧ k ≠ .closeArray := by
  cases t <;> exact ⟨_, _, rfl, nofun⟩

theorem itemTokens_cons_cons (x y : Node) (ys : List Node) :
    itemTokens (x :: y :: ys) = x.tokens ++ .comma :: itemTokens (y :: ys) := by
  rw [itemTokens]
  nofun

theorem memberTokens_cons_cons (key : List Piece) (x : Node) (m : List Piece × Node) (ms : List (List Piece × Node)) :
    memberTokens ((key, x) :: m :: ms) =
      .string key :: .colon :: (x.tokens ++ .comma :: memberTokens (m :: ms)) := by
  rw [memberTokens]
  nofun

theorem head?_itemTokens (x : Node) (xs : List Node) : ∃ k ks, itemTokens (x :: xs) = k :: ks ∧ k ≠ .closeArray := by
  obtain ⟨k, ks, hk, hne⟩ := x.head?_tokens
  cases xs with
  | nil => exact ⟨k, ks, by rw [itemTokens, hk], hne⟩
  | cons y ys =>
    exact ⟨k, ks ++ .comma :: itemTokens (y :: ys), by rw [itemTokens_cons_cons, hk, List.cons_append], hne⟩

theorem value?_openArray (fuel : Nat) {k : Token} (ks : List Token) (h : k ≠ .closeArray) :
    value? (fuel + 1) (.openArray :: k :: ks) = (items? fuel (k :: ks)).map fun (xs, ts) => (array xs, ts) := by
  rw [value?]
  rintro ts ⟨⟩
  exact h rfl

mutual

theorem value?_tokens : ∀ (t : Node) (fuel : Nat) (rest : List Token), 2 * t.tokens.length ≤ fuel →
    value? fuel (t.tokens ++ rest) = some (t, rest)
  | t, 0, rest, h => by
    obtain ⟨k, ks, hk, -⟩ := t.head?_tokens
    rw [hk] at h
    simp at h
  | null, fuel + 1, rest, _ => rfl
  | bool b, fuel + 1, rest, _ => rfl
  | number n, fuel + 1, rest, _ => rfl
  | string ps, fuel + 1, rest, _ => rfl
  | array [], fuel + 1, rest, _ => rfl
  | array (x :: xs), fuel + 1, rest, h => by
    obtain ⟨k, ks, hk, hne⟩ := head?_itemTokens x xs
    have hlen : 2 * (itemTokens (x :: xs)).length + 1 ≤ fuel := by
      simp only [tokens, List.length_cons, List.length_append, List.length_nil] at h
      omega
    have hitems := items?_tokens x xs fuel rest hlen
    rw [tokens, List.cons_append, List.append_assoc, List.cons_append, List.nil_append]
    rw [hk, List.cons_append] at hitems ⊢
    rw [value?_openArray fuel _ hne, hitems]
    rfl
  | object [], fuel + 1, rest, _ => rfl
  | object (m :: ms), fuel + 1, rest, h => by
    have hlen : 2 * (memberTokens (m :: ms)).length + 1 ≤ fuel := by
      simp only [tokens, List.length_cons, List.length_append, List.length_nil] at h
      omega
    have hmembers := members?_tokens m ms fuel rest hlen
    rw [tokens, List.cons_append, List.append_assoc, List.cons_append, List.nil_append, value?, hmembers]
    · rfl
    · obtain ⟨key, x⟩ := m
      cases ms <;> nofun

theorem items?_tokens : ∀ (x : Node) (xs : List Node) (fuel : Nat) (rest : List Token),
    2 * (itemTokens (x :: xs)).length + 1 ≤ fuel →
      items? fuel (itemTokens (x :: xs) ++ .closeArray :: rest) = some (x :: xs, rest)
  | x, [], fuel + 1, rest, h => by
    rw [itemTokens] at h ⊢
    rw [items?, value?_tokens x fuel _ (by omega)]
  | x, y :: ys, fuel + 1, rest, h => by
    rw [itemTokens_cons_cons, List.length_append, List.length_cons] at h
    rw [itemTokens_cons_cons, List.append_assoc, List.cons_append, items?, value?_tokens x fuel _ (by omega)]
    simp only [items?_tokens y ys fuel rest (by omega)]
    rfl

theorem members?_tokens : ∀ (m : List Piece × Node) (ms : List (List Piece × Node)) (fuel : Nat) (rest : List Token),
    2 * (memberTokens (m :: ms)).length + 1 ≤ fuel →
      members? fuel (memberTokens (m :: ms) ++ .closeObject :: rest) = some (m :: ms, rest)
  | (key, x), [], fuel + 1, rest, h => by
    rw [memberTokens, List.length_cons, List.length_cons] at h
    rw [memberTokens, List.cons_append, List.cons_append, members?, value?_tokens x fuel _ (by omega)]
  | (key, x), n :: ns, fuel + 1, rest, h => by
    rw [memberTokens_cons_cons, List.length_cons, List.length_cons, List.length_append, List.length_cons] at h
    rw [memberTokens_cons_cons, List.cons_append, List.cons_append, List.append_assoc, List.cons_append, members?,
      value?_tokens x fuel _ (by omega)]
    simp only [members?_tokens n ns fuel rest (by omega)]
    rfl

end

theorem ofTokens?_tokens (t : Node) : ofTokens? t.tokens = some t := by
  have h := value?_tokens t (2 * t.tokens.length) [] (Nat.le_refl _)
  rw [List.append_nil] at h
  rw [ofTokens?, h]

/-! ## From characters to tokens -/

mutual

theorem apart_tokens : ∀ t : Node, t.tokens.IsChain Token.Apart
  | null | bool _ | number _ | string _ => .singleton _
  | array xs => Token.apart_mark rfl .nil (Token.apart_mark rfl (apart_itemTokens xs) .nil)
  | object ms => Token.apart_mark rfl .nil (Token.apart_mark rfl (apart_memberTokens ms) .nil)

theorem apart_itemTokens : ∀ xs : List Node, (itemTokens xs).IsChain Token.Apart
  | [] => .nil
  | [x] => apart_tokens x
  | x :: y :: ys => by
    rw [itemTokens_cons_cons]
    exact Token.apart_mark rfl (apart_tokens x) (apart_itemTokens (y :: ys))

theorem apart_memberTokens : ∀ ms : List (List Piece × Node), (memberTokens ms).IsChain Token.Apart
  | [] => .nil
  | [(key, x)] => Token.apart_mark rfl .nil (Token.apart_mark rfl .nil (apart_tokens x))
  | (key, x) :: m :: ms => by
    rw [memberTokens_cons_cons]
    have hrest := Token.apart_mark (k := .comma) rfl (apart_tokens x) (apart_memberTokens (m :: ms))
    exact Token.apart_mark rfl .nil (Token.apart_mark rfl .nil hrest)

end

def IsPlain (t : Node) : Prop :=
  ∀ k ∈ t.tokens, k.IsPlain

theorem parse?_compact {t : Node} (h : t.IsPlain) : parse? t.compact = some t := by
  rw [parse?, compact, String.toList_ofList, tokens?_flatMap_text h t.apart_tokens, Option.bind_some, ofTokens?_tokens]

/-! ## What is written -/

theorem isPlain_text (s : String) : (text s).IsPlain := by
  simpa [IsPlain, text, tokens] using ⟨s, rfl⟩

theorem isPlain_itemTokens : ∀ {xs : List Node}, (∀ x ∈ xs, x.IsPlain) → ∀ k ∈ itemTokens xs, k.IsPlain
  | [], _ => nofun
  | [x], h => h x List.mem_cons_self
  | x :: y :: ys, h => by
    obtain ⟨hx, hxs⟩ := List.forall_mem_cons.1 h
    rw [itemTokens_cons_cons]
    exact List.forall_mem_append.2 ⟨hx, List.forall_mem_cons.2 ⟨trivial, isPlain_itemTokens hxs⟩⟩

theorem isPlain_array {xs : List Node} (h : ∀ x ∈ xs, x.IsPlain) : (array xs).IsPlain := by
  rw [IsPlain, tokens]
  refine List.forall_mem_cons.2 ⟨trivial, List.forall_mem_append.2 ⟨isPlain_itemTokens h, ?_⟩⟩
  exact List.forall_mem_singleton.2 trivial

theorem isPlain_memberTokens : ∀ {ms : List (String × Node)}, (∀ m ∈ ms, m.2.IsPlain) →
    ∀ k ∈ memberTokens (ms.map fun (key, x) => (Piece.ofText key, x)), k.IsPlain
  | [], _ => nofun
  | [(key, x)], h =>
    List.forall_mem_cons.2 ⟨⟨key, rfl⟩, List.forall_mem_cons.2 ⟨trivial, h (key, x) List.mem_cons_self⟩⟩
  | (key, x) :: m :: ms, h => by
    obtain ⟨hx, hms⟩ := List.forall_mem_cons.1 h
    have hrest := isPlain_memberTokens hms
    rw [List.map_cons] at hrest ⊢
    rw [List.map_cons, memberTokens_cons_cons]
    refine List.forall_mem_cons.2 ⟨⟨key, rfl⟩, List.forall_mem_cons.2 ⟨trivial, ?_⟩⟩
    exact List.forall_mem_append.2 ⟨hx, List.forall_mem_cons.2 ⟨trivial, hrest⟩⟩

theorem isPlain_record {ms : List (String × Node)} (h : ∀ m ∈ ms, m.2.IsPlain) : (record ms).IsPlain := by
  rw [IsPlain, record, tokens]
  refine List.forall_mem_cons.2 ⟨trivial, List.forall_mem_append.2 ⟨isPlain_memberTokens h, ?_⟩⟩
  exact List.forall_mem_singleton.2 trivial

/-! ## Fields of records -/

theorem entries?_record (ms : List (String × Node)) : (record ms).entries? some = some ms := by
  rw [record, entries?, mapM_eq_some_iff, List.forall₂_map_left_iff, List.forall₂_same]
  intro m _
  simp

theorem filter_key_of_mem {ms : List (String × Node)} (hn : (ms.map (·.1)).Nodup) {m : String × Node} (hm : m ∈ ms) :
    ms.filter (·.1 = m.1) = [m] := by
  induction ms with
  | nil => cases hm
  | cons n ms ih =>
    obtain ⟨hnot, hn⟩ := List.nodup_cons.1 hn
    rcases List.mem_cons.1 hm with rfl | hm
    · have hnone : ms.filter (·.1 = m.1) = [] := by
        rw [List.filter_eq_nil_iff]
        intro x hx hkey
        exact hnot (List.mem_map.2 ⟨x, hx, of_decide_eq_true hkey⟩)
      rw [List.filter_cons_of_pos (by simp), hnone]
    · have hne : n.1 ≠ m.1 := fun h => hnot (List.mem_map.2 ⟨m, hm, h.symm⟩)
      rw [List.filter_cons_of_neg (by simpa using hne), ih hn hm]

theorem field?_of_mem {ms : List (String × Node)} (hn : (ms.map (·.1)).Nodup) {m : String × Node} (hm : m ∈ ms) :
    field? ms m.1 = some (some m.2) := by
  rw [field?, filter_key_of_mem hn hm]

theorem fields?_record {ms : List (String × Node)} {names : List String} (h : ms.map (·.1) = names) (hn : names.Nodup) :
    (record ms).fields? names = some (ms.map fun m => some m.2) := by
  subst h
  have he := entries?_record ms
  rw [record] at he
  rw [record, fields?, he, Option.bind_eq_bind, Option.bind_some, mapM_eq_some_iff, List.forall₂_map_left_iff,
    List.forall₂_map_right_iff, List.forall₂_same]
  exact fun m hm => field?_of_mem hn hm

end Node

end SearchFilter.Json
