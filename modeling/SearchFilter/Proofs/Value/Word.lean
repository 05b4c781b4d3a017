import SearchFilter.Proofs.Fragment.Dependence
import SearchFilter.Proofs.Value.Integer
import SearchFilter.Value.Literal

/-!
# Words as integers

A word counts as the same integer whether it is typed or given as text, `true` apart. A typed
integer outside 64 bits becomes a floating point number, but rounding does not move it back into
the range, so both are held at the same bound.
-/

namespace SearchFilter

/-! ## Integers outside 64 bits -/

section
variable {n : Numeral} {x : Binary64}

theorem Numeral.magnitude_of_integer (hi : n.fraction = none ∧ n.exponent = none) :
    n.magnitude = ⟨Numeral.digitsValue n.whole, 0⟩ := by
  simp [Numeral.magnitude, hi.1, hi.2]

/-- Rounding keeps a whole number at or above a power of two there. -/
theorem Numeral.RoundsTo.power_le (hx : n.RoundsTo x) (hi : n.fraction = none ∧ n.exponent = none) {e : Nat}
    (he : e ≤ 1024) (h : 2 ^ e ≤ Numeral.digitsValue n.whole) : 2 ^ e * Binary64.one ≤ Binary64.units x.magnitude := by
  have hm := Numeral.magnitude_of_integer hi
  have hnum : n.magnitude.numerator = Numeral.digitsValue n.whole * Binary64.one := by
    rw [hm]
    exact congrArg (· * Binary64.one) (Nat.mul_one _)
  have hden : n.magnitude.denominator = 1 := by
    rw [hm]
    rfl
  have hinfinity : (e + 1023) * Binary64.octave ≤ Binary64.infinity :=
    Nat.mul_le_mul_right Binary64.octave (Nat.add_le_add_right he 1023)
  have hle : Binary64.units ((e + 1023) * Binary64.octave) * n.magnitude.denominator ≤ n.magnitude.numerator := by
    rw [hden, Nat.mul_one, hnum, Binary64.units_power]
    exact Nat.mul_le_mul_right Binary64.one h
  rw [← Binary64.units_power]
  exact Binary64.units_strictMono.monotone (hx.isNearest.le hinfinity n.magnitude.denominator_pos hle)

theorem clamp_integer_eq (hx : n.RoundsTo x) (hi : n.fraction = none ∧ n.exponent = none) (hf : x.isFinite = true)
    (hout : ¬ (Int64.minValue.toInt ≤ n.integer ∧ n.integer ≤ Int64.maxValue.toInt)) :
    clamp n.integer = clamp x.truncate := by
  have hmin : Int64.minValue.toInt = -2 ^ 63 := Int64.toInt_minValue
  have hmax : Int64.maxValue.toInt = 2 ^ 63 - 1 := Int64.toInt_maxValue
  obtain ⟨-, hlt, hneg, hpos⟩ := (Binary64.cutTo_iff hf x.truncate).2 rfl
  rw [hx.negative] at hneg hpos
  have hfar (h : 2 ^ 63 ≤ Numeral.digitsValue n.whole) : 2 ^ 63 ≤ x.truncate.natAbs := by
    have hunits := hx.power_le hi (by decide) h
    exact Nat.le_of_lt_succ (Nat.lt_of_mul_lt_mul_right (Nat.lt_of_le_of_lt hunits hlt))
  unfold clamp
  cases hn : n.isNegative with
  | true =>
    have hinteger : n.integer = -(Numeral.digitsValue n.whole : Int) := if_pos hn
    have hge := hfar (by omega)
    have hle : ¬ 0 < x.truncate := fun h => absurd (hpos h) (by rw [hn]; decide)
    omega
  | false =>
    have hinteger : n.integer = Numeral.digitsValue n.whole := if_neg (by rw [hn]; decide)
    have hge := hfar (by omega)
    have hle : ¬ x.truncate < 0 := fun h => absurd (hneg h) (by rw [hn]; decide)
    omega

end

/-! ## What a word is typed as -/

theorem leadingInteger_of_read? {cs : List Char} {n : Numeral} (h : Numeral.read? cs = some n) :
    leadingInteger cs = n.toInt64 := by
  obtain ⟨hn, rfl⟩ := Numeral.read?_eq_some_iff.1 h
  have hgap := dropWhile_isGap_text hn []
  have hs : Numeral.scan? (n.text ++ []) = some (n, []) := Numeral.scan?_append hn (by simp)
  rw [List.append_nil] at hgap hs
  rw [leadingInteger, hgap, hs]

section
variable {word : String}

theorem integer_of_readInt64? {i : Int64} (h : Numeral.readInt64? word.toList = some i) :
    (Value.text word).integer = i := by
  obtain ⟨n, hn, hi⟩ := Option.bind_eq_some_iff.1 h
  split at hi
  · rename_i hrange
    obtain ⟨hinteger, hmin, hmax⟩ := hrange
    cases hi
    rw [Value.integer, leadingInteger_of_read? hn, Numeral.toInt64, if_pos hinteger]
    refine Int64.toInt_inj.1 ?_
    rw [Int64.toInt_ofIntClamp hmin hmax, Int64.toInt_ofInt_of_le hmin (Int.lt_of_le_of_lt hmax (by decide))]
  · cases hi

theorem integer_of_readBinary64? {x : Binary64} (hint : Numeral.readInt64? word.toList = none)
    (h : Numeral.readBinary64? word.toList = some x) : (Value.text word).integer = (Value.float x).integer := by
  obtain ⟨hmap, hf⟩ := Option.filter_eq_some_iff.1 h
  obtain ⟨n, hn, rfl⟩ := Option.map_eq_some_iff.1 hmap
  have hx := (Numeral.roundsTo_iff n _).2 rfl
  rw [Value.integer, Value.integer, leadingInteger_of_read? hn]
  refine Int64.toInt_inj.1 ?_
  rw [toInt_ofIntClamp]
  by_cases hi : n.fraction = none ∧ n.exponent = none
  · have hout : ¬ (Int64.minValue.toInt ≤ n.integer ∧ n.integer ≤ Int64.maxValue.toInt) := by
      intro hrange
      rw [Numeral.readInt64?, hn, Option.bind_some, if_pos ⟨n.isInteger_iff.2 hi, hrange⟩] at hint
      cases hint
    rw [toInt_toInt64_of_integer hi]
    exact clamp_integer_eq hx hi hf hout
  · exact toInt_toInt64_of_not_integer hi

/-- A typed word counts as the same integer as the text, `true` apart. -/
theorem integer_ofWord_of_ne (h : word ≠ "true") : (Value.ofWord word).integer = (Value.text word).integer := by
  unfold Value.ofWord
  cases hint : Numeral.readInt64? word.toList with
  | some i => exact (integer_of_readInt64? hint).symm
  | none =>
    cases hfloat : Numeral.readBinary64? word.toList with
    | some x => exact (integer_of_readBinary64? hint hfloat).symm
    | none =>
      simp only [if_neg h]
      split
      · rename_i hfalse
        rw [hfalse]
        decide
      · split
        · rename_i hnull
          rcases hnull with rfl | rfl <;> decide
        · rfl

end

/-! ## Categories by a word -/

def Filter.ofCategory (kind : FilterKind) (v : Value) : Filter :=
  ⟨categoryField, kind, .one v⟩

theorem compile_ofCategory (c : Catalog) (d : Dialect) (aliasOf : Filter → String) (kind : FilterKind) (v : Value)
    (negated : Bool) (query : String) :
    c.compile d aliasOf (.ofCategory kind v) negated query =
      .ok (aliasOf (.ofCategory kind v) ++ ".category_id = " ++ (Value.int v.integer).display) :=
  c.compile_of_plan d aliasOf (.ofCategory kind v) negated query (p := .category) (c.plan_of_reserved? _ rfl)

theorem Filter.tableAlias_ofCategory (kind : FilterKind) (v : Value) :
    Filter.tableAlias (.ofCategory kind v) = joinAlias categoryField := rfl

/-- A word other than `true` counts as the same integer whether it is typed or given as text, so it
is a category with the same fragment. -/
theorem integer_ofWord {word : String} (h : word ≠ "true") :
    (Value.ofWord word).integer = (Value.text word).integer ∧
      ∀ (c : Catalog) (d : Dialect) (aliasOf : Filter → String) (kind : FilterKind) (negated : Bool) (query : String),
        aliasOf (.ofCategory kind (.ofWord word)) = aliasOf (.ofCategory kind (.text word)) →
        ∃ fragment, c.compile d aliasOf (.ofCategory kind (.ofWord word)) negated query = .ok fragment ∧
          c.compile d aliasOf (.ofCategory kind (.text word)) negated query = .ok fragment := by
  have hinteger := integer_ofWord_of_ne h
  refine ⟨hinteger, fun c d aliasOf kind negated query halias => ⟨_, compile_ofCategory .., ?_⟩⟩
  rw [compile_ofCategory, halias, hinteger]

theorem integer_ofWord_twentyDigits :
    "-99999999999999999999" ≠ "true" ∧ (Value.ofWord "-99999999999999999999").integer = Int64.minValue ∧
      Filter.tableAlias (.ofCategory .term (.ofWord "-99999999999999999999")) =
        Filter.tableAlias (.ofCategory .term (.text "-99999999999999999999")) ∧
      Catalog.empty.compile .mysql Filter.tableAlias (.ofCategory .term (.ofWord "-99999999999999999999")) false "" =
        .ok "category_ids_index.category_id = -9223372036854775808" := by
  have hne : "-99999999999999999999" ≠ "true" := by decide
  have halias : Filter.tableAlias (.ofCategory .term (.ofWord "-99999999999999999999")) =
      Filter.tableAlias (.ofCategory .term (.text "-99999999999999999999")) := by
    rw [Filter.tableAlias_ofCategory, Filter.tableAlias_ofCategory]
  obtain ⟨hinteger, hcompile⟩ := integer_ofWord hne
  obtain ⟨fragment, htyped, hgiven⟩ := hcompile .empty .mysql Filter.tableAlias .term false "" halias
  refine ⟨hne, hinteger.trans (by decide), halias, ?_⟩
  rw [htyped, ← hgiven]
  decide

example : (Value.ofWord "true").integer = 1 ∧ (Value.text "true").integer = 0 := by decide

end SearchFilter
