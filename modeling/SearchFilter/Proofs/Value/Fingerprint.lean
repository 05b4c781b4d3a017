import Mathlib.Data.List.Forall2
import SearchFilter.Filter.Basic

/-!
# Equality and fingerprints

A table that looks values up by their fingerprint relies on a contract: a value equals itself,
equality has no direction, and what is equal has the same fingerprint. Numbers are compared by
their value and fingerprinted by their bits. So the contract is broken by what is not a number and
by zeros of different signs, and by nothing else.
-/

namespace SearchFilter

/-! ## Numbers -/

namespace Binary64

def zerosDiffer (x y : Binary64) : Bool :=
  x.magnitude.val = 0 && y.magnitude.val = 0 && x.negative.xor y.negative

theorem equals_comm (x y : Binary64) : x.equals y = y.equals x := by
  unfold equals
  rw [Bool.and_comm (!x.isNaN), Bool.and_comm (decide (x.magnitude = 0)), decide_eq_decide.2 (@eq_comm _ x y)]

theorem equals_self (x : Binary64) : x.equals x = !x.isNaN := by
  simp [equals]

theorem eq_iff_of_equals {x y : Binary64} (h : x.equals y = true) : x = y ↔ x.zerosDiffer y = false := by
  obtain ⟨xn, xm⟩ := x
  obtain ⟨yn, ym⟩ := y
  simp only [equals, zerosDiffer, Bool.and_eq_true, Bool.or_eq_true, decide_eq_true_eq, Binary64.mk.injEq] at h ⊢
  rcases h.2 with ⟨rfl, rfl⟩ | ⟨rfl, rfl⟩ <;> simp

theorem bits_inj {x y : Binary64} (h : x.bits = y.bits) : x = y := by
  obtain ⟨xn, xm, hx⟩ := x
  obtain ⟨yn, ym, hy⟩ := y
  cases xn <;> cases yn <;> simp only [bits, Bool.false_eq_true, if_true, if_false] at h <;>
    simp only [Binary64.mk.injEq, Fin.mk.injEq, true_and, reduceCtorEq, false_and] <;> omega

end Binary64

/-! ## Values -/

namespace Value

def isNaN : Value → Bool
  | float x => x.isNaN
  | _ => false

def zerosDiffer : Value → Value → Bool
  | float x, float y => x.zerosDiffer y
  | _, _ => false

theorem equals_comm (v w : Value) : v.equals w = w.equals v := by
  cases v with
  | int m =>
    cases w with
    | int n => exact decide_eq_decide.2 eq_comm
    | _ => rfl
  | float x =>
    cases w with
    | float y => exact x.equals_comm y
    | _ => rfl
  | text s =>
    cases w with
    | text t => exact decide_eq_decide.2 eq_comm
    | _ => rfl
  | bool a =>
    cases w with
    | bool b => exact decide_eq_decide.2 eq_comm
    | _ => rfl
  | null => cases w <;> rfl

theorem equals_self (v : Value) : v.equals v = !v.isNaN := by
  cases v with
  | float x => exact x.equals_self
  | null => rfl
  | _ => exact decide_eq_true rfl

theorem eq_iff_of_equals {v w : Value} (h : v.equals w = true) : v = w ↔ v.zerosDiffer w = false := by
  cases v with
  | int m =>
    cases w with
    | int n => exact iff_of_true (congrArg int (of_decide_eq_true h)) rfl
    | _ => cases h
  | float x =>
    cases w with
    | float y => simpa [zerosDiffer] using Binary64.eq_iff_of_equals h
    | _ => cases h
  | text s =>
    cases w with
    | text t => exact iff_of_true (congrArg text (of_decide_eq_true h)) rfl
    | _ => cases h
  | bool a =>
    cases w with
    | bool b => exact iff_of_true (congrArg bool (of_decide_eq_true h)) rfl
    | _ => cases h
  | null =>
    cases w with
    | null => exact iff_of_true rfl rfl
    | _ => cases h

/-- No fingerprint begins another one. -/
theorem fingerprint_append_inj {v w : Value} {cs ds : List Nat} (h : v.fingerprint ++ cs = w.fingerprint ++ ds) :
    v = w ∧ cs = ds := by
  cases v with
  | int m =>
    cases w with
    | int n =>
      obtain ⟨hn, rfl⟩ : m.toUInt64.toNat = n.toUInt64.toNat ∧ cs = ds := by simpa [fingerprint] using h
      exact ⟨congrArg (fun u => int ⟨u⟩) (UInt64.toNat_inj.1 hn), rfl⟩
    | _ => simp [fingerprint] at h
  | float x =>
    cases w with
    | float y =>
      obtain ⟨hx, rfl⟩ : x.bits = y.bits ∧ cs = ds := by simpa [fingerprint] using h
      exact ⟨congrArg float (Binary64.bits_inj hx), rfl⟩
    | _ => simp [fingerprint] at h
  | text s =>
    cases w with
    | text t =>
      obtain ⟨hl, ht⟩ : s.length = t.length ∧
          s.toList.map Char.toNat ++ cs = t.toList.map Char.toNat ++ ds := by simpa [fingerprint] using h
      obtain ⟨hs, rfl⟩ := List.append_inj ht (by simpa only [List.length_map, String.length_toList] using hl)
      have hst := (List.map_inj_right fun _ _ => Char.toNat_inj.1).1 hs
      exact ⟨congrArg text (String.toList_inj.1 hst), rfl⟩
    | _ => simp [fingerprint] at h
  | bool a =>
    cases w with
    | bool b =>
      obtain ⟨hb, rfl⟩ : a.toNat = b.toNat ∧ cs = ds := by simpa [fingerprint] using h
      cases a <;> cases b <;> first | exact ⟨rfl, rfl⟩ | cases hb
    | _ => simp [fingerprint] at h
  | null =>
    cases w with
    | null => exact ⟨rfl, by simpa [fingerprint] using h⟩
    | _ => simp [fingerprint] at h

theorem flatMap_fingerprint_inj {vs ws : List Value} (hl : vs.length = ws.length)
    (h : vs.flatMap fingerprint = ws.flatMap fingerprint) : vs = ws := by
  induction vs generalizing ws with
  | nil => exact (List.length_eq_zero_iff.1 hl.symm).symm
  | cons v vs ih =>
    cases ws with
    | nil => cases hl
    | cons w ws =>
      rw [List.flatMap_cons, List.flatMap_cons] at h
      obtain ⟨rfl, ht⟩ := fingerprint_append_inj h
      rw [ih (Nat.succ.inj hl) ht]

end Value

/-! ## Operands -/

namespace Operand

def values : Operand → List Value
  | one v => [v]
  | set vs => vs

/-- At no place has one of the two a zero where the other has the other zero. -/
def SameZeros (a b : Operand) : Prop :=
  List.Forall₂ (fun v w => v.zerosDiffer w = false) a.values b.values

theorem equals_set_iff (vs ws : List Value) :
    (set vs).equals (set ws) = true ↔ List.Forall₂ (fun v w => v.equals w = true) vs ws := by
  rw [List.forall₂_iff_zip]
  simp [equals]

theorem equals_self_iff (a : Operand) : a.equals a = true ↔ ∀ v ∈ a.values, v.isNaN = false := by
  cases a with
  | one v => simp [equals, values, Value.equals_self]
  | set vs =>
    rw [equals_set_iff, List.forall₂_same]
    simp [values, Value.equals_self]

theorem equals_comm (a b : Operand) : a.equals b = b.equals a := by
  cases a with
  | one v =>
    cases b with
    | one w => exact v.equals_comm w
    | set ws => rfl
  | set vs =>
    cases b with
    | one w => rfl
    | set ws =>
      have hflip : ∀ us ts : List Value, (set us).equals (set ts) = true → (set ts).equals (set us) = true := by
        intro us ts h
        rw [equals_set_iff] at h ⊢
        exact List.Forall₂.flip (h.imp fun v w hv => (w.equals_comm v).trans hv)
      exact Bool.eq_iff_iff.2 ⟨hflip vs ws, hflip ws vs⟩

theorem eq_iff_of_equals {a b : Operand} (h : a.equals b = true) : a = b ↔ SameZeros a b := by
  cases a with
  | one v =>
    cases b with
    | one w => simpa [SameZeros, values] using Value.eq_iff_of_equals h
    | set ws => cases h
  | set vs =>
    cases b with
    | one w => cases h
    | set ws =>
      have hv := (equals_set_iff vs ws).1 h
      constructor
      · intro he
        cases he
        exact List.Forall₂.mp (fun v w hvw hz => (Value.eq_iff_of_equals hvw).1 hz) hv
          (List.forall₂_eq_eq_eq ▸ rfl)
      · intro hz
        have he := List.Forall₂.mp (fun v w hvw hd => (Value.eq_iff_of_equals hvw).2 hd) hv hz
        rw [List.forall₂_eq_eq_eq] at he
        rw [he]

theorem fingerprint_inj {a b : Operand} : a.fingerprint = b.fingerprint ↔ a = b := by
  refine ⟨fun h => ?_, congrArg fingerprint⟩
  cases a with
  | one v =>
    cases b with
    | one w =>
      have hv : v.fingerprint ++ [] = w.fingerprint ++ [] := by simpa [fingerprint] using h
      rw [(Value.fingerprint_append_inj hv).1]
    | set ws => simp [fingerprint] at h
  | set vs =>
    cases b with
    | one w => simp [fingerprint] at h
    | set ws =>
      obtain ⟨hl, hv⟩ : vs.length = ws.length ∧ vs.flatMap Value.fingerprint = ws.flatMap Value.fingerprint := by
        simpa [fingerprint] using h
      rw [Value.flatMap_fingerprint_inj hl hv]

end Operand

/-! ## Filters -/

namespace Filter

theorem equals_iff (f g : Filter) :
    f.equals g = true ↔ f.field = g.field ∧ f.kind = g.kind ∧ f.operand.equals g.operand = true := by
  simp [equals, and_assoc]

theorem equals_comm (f g : Filter) : f.equals g = g.equals f := by
  rw [Bool.eq_iff_iff, equals_iff, equals_iff, @eq_comm _ f.field, @eq_comm _ f.kind, Operand.equals_comm]

/-- Of filters that agree on all but the operand the fingerprints agree as those of the operands. -/
theorem fingerprint_eq_iff_of_equals {f g : Filter} (h : f.equals g = true) :
    f.fingerprint = g.fingerprint ↔ f.operand.fingerprint = g.operand.fingerprint := by
  obtain ⟨hf, hk, -⟩ := (equals_iff f g).1 h
  simp [fingerprint, hf, hk]

end Filter

/-! ## The contract -/

structure HashContract {α : Type} (equals : α → α → Bool) (fingerprint : α → List Nat) (a b : α) : Prop where
  refl : equals a a = true
  symm : equals a b = true → equals b a = true
  same : equals a b = true → fingerprint a = fingerprint b

theorem hashContract_iff_of {α : Type} {equals : α → α → Bool} {fingerprint : α → List Nat} {a b : α} {P Q : Prop}
    (hself : equals a a = true ↔ P) (hcomm : equals a b = equals b a)
    (hsame : equals a b = true → (fingerprint a = fingerprint b ↔ Q)) :
    HashContract equals fingerprint a b ↔ P ∧ (equals a b = true → Q) := by
  constructor
  · rintro ⟨ha, -, hf⟩
    exact ⟨hself.1 ha, fun h => (hsame h).1 (hf h)⟩
  · rintro ⟨hp, hq⟩
    exact ⟨hself.2 hp, fun h => hcomm.symm.trans h, fun h => (hsame h).2 (hq h)⟩

/-- Operands and filters meet the contract exactly if what the first has in it are numbers where
they are floats and equal ones have the same zeros. -/
theorem hashContract_iff (a b : Operand) (f g : Filter) :
    (HashContract Operand.equals Operand.fingerprint a b ↔
      (∀ v ∈ a.values, v.isNaN = false) ∧ (a.equals b = true → a.SameZeros b)) ∧
    (HashContract Filter.equals Filter.fingerprint f g ↔
      (∀ v ∈ f.operand.values, v.isNaN = false) ∧ (f.equals g = true → f.operand.SameZeros g.operand)) := by
  constructor
  · exact hashContract_iff_of a.equals_self_iff (a.equals_comm b) fun h =>
      Operand.fingerprint_inj.trans (Operand.eq_iff_of_equals h)
  · have hself : f.equals f = true ↔ ∀ v ∈ f.operand.values, v.isNaN = false := by
      simp [Filter.equals_iff, Operand.equals_self_iff]
    refine hashContract_iff_of hself (f.equals_comm g) fun h => ?_
    rw [Filter.fingerprint_eq_iff_of_equals h, Operand.fingerprint_inj]
    exact Operand.eq_iff_of_equals ((Filter.equals_iff f g).1 h).2.2

/-- Zero equals minus zero and has another fingerprint; what is not a number does not equal itself. -/
theorem not_hashContract :
    let zero : Operand := .one (.float ⟨false, 0⟩)
    let minusZero : Operand := .one (.float ⟨true, 0⟩)
    let nan : Operand := .set [.null, .float (.nan false)]
    zero.equals minusZero = true ∧ zero.fingerprint ≠ minusZero.fingerprint ∧ nan.equals nan = false ∧
      ¬ HashContract Operand.equals Operand.fingerprint zero minusZero ∧
      ¬ HashContract Operand.equals Operand.fingerprint nan nan := by
  intro zero minusZero nan
  have hz : zero.equals minusZero = true := by decide
  have hf : zero.fingerprint ≠ minusZero.fingerprint := by decide
  have hn : nan.equals nan = false := by decide
  exact ⟨hz, hf, hn, fun h => hf (h.same hz), fun h => Bool.false_ne_true (hn.symm.trans h.refl)⟩

end SearchFilter
