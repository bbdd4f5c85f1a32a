import DynamicScope.Library.Math
import DynamicScope.Proofs.Double.Exponential

/-! The exponential on all numbers.
It answers a double for every number, doubles and integers of any size alike, and keeps their order,
but for the integers that are too far below zero for a double: their exponential is infinite, as if they
were as far above. -/

namespace DynamicScope

open Double

/-- Whether a number is an integer that is too far below zero for a double. -/
def Number.Undershoots (m : Number) : Prop :=
  ∃ i : Int, m = .integer i ∧ i ≤ -overflowThreshold

namespace MathFunction

variable {m n : Number}

theorem exponentialOf_of_ok {k : Int} {x : Double} (hm : m.place? = some (.at k))
    (converted : m.toDouble = .ok x) : exponentialOf m = exponentialAt (roundUnits k) := by
  rw [exponentialOf, converted]
  exact exp_of_place? (Number.place?_toDouble hm converted)

theorem exponentialOf_of_error {e : NumberError} (h : m.toDouble = .error e) :
    exponentialOf m = .infinity false := by
  rw [exponentialOf, h]

theorem exists_of_toDouble_error {e : NumberError} (h : m.toDouble = .error e) :
    ∃ i : Int, m = .integer i ∧ overflowThreshold ≤ i.natAbs := by
  cases m with
  | double x => cases h
  | integer i =>
    refine ⟨i, rfl, ofInt?_eq_none_iff.mp ?_⟩
    rw [Number.toDouble] at h
    cases found : ofInt? i with
    | none => rfl
    | some x =>
      rw [found] at h
      cases h

theorem exponentialOf_of_undershoots (h : m.Undershoots) : exponentialOf m = .infinity false := by
  obtain ⟨i, rfl, far⟩ := h
  have none : ofInt? i = none := ofInt?_eq_none_iff.mpr (by omega)
  refine exponentialOf_of_error (e := .integerTooLarge) ?_
  rw [Number.toDouble, none]
  rfl

theorem zero_lessEqual_exponentialOf (h : m ≠ .double .nan) :
    (Double.zero false).LessEqual (exponentialOf m) := by
  cases converted : m.toDouble with
  | error e =>
    rw [exponentialOf_of_error converted]
    rfl
  | ok x =>
    cases m with
    | integer i =>
      rw [exponentialOf_of_ok rfl converted]
      exact zero_lessEqual_exponentialAt _
    | double y =>
      cases y with
      | nan => exact absurd rfl h
      | infinity negative => cases negative <;> rfl
      | finite negative units rep =>
        rw [exponentialOf_of_ok rfl converted]
        exact zero_lessEqual_exponentialAt _

theorem roundUnits_exponentialLimit : roundUnits exponentialLimit = exponentialLimit := by
  decide +kernel

theorem exponentialOf_of_le {k : Int} (hm : m.place? = some (.at k)) (far : exponentialLimit ≤ k) :
    exponentialOf m = .infinity false := by
  cases converted : m.toDouble with
  | error e => exact exponentialOf_of_error converted
  | ok x =>
    rw [exponentialOf_of_ok hm converted, exponentialAt_of_le]
    have rounded := roundUnits_mono far
    rwa [roundUnits_exponentialLimit] at rounded

theorem exponentialLimit_le : exponentialLimit ≤ overflowThreshold * unitsPerOne := by
  decide +kernel

theorem exponentialOf_mono (ordered : m.lessEqual n = true) (reached : ¬ m.Undershoots) :
    (exponentialOf m).LessEqual (exponentialOf n) := by
  obtain ⟨hm, hn⟩ := Number.ne_nan_of_lessEqual ordered
  rcases Number.lessEqual_cases ordered with rfl | rfl | ⟨j, k, placed, placed', le⟩
  · exact zero_lessEqual_exponentialOf hn
  · exact lessEqual_infinity (zero_lessEqual_exponentialOf hm).ne_nan
  cases converted' : n.toDouble with
  | error e =>
    rw [exponentialOf_of_error converted']
    exact lessEqual_infinity (zero_lessEqual_exponentialOf hm).ne_nan
  | ok y =>
    cases converted : m.toDouble with
    | ok x =>
      rw [exponentialOf_of_ok placed converted, exponentialOf_of_ok placed' converted']
      exact exponentialAt_mono (roundUnits_mono le)
    | error e =>
      -- The first number is an integer too far above zero, so the second is far above zero as well.
      obtain ⟨i, rfl, large⟩ := exists_of_toDouble_error converted
      have above : (overflowThreshold : Int) ≤ i := by
        by_contra below
        exact reached ⟨i, rfl, by omega⟩
      have far : (exponentialLimit : Int) ≤ j := by
        obtain rfl : i * (unitsPerOne : Int) = j := Place.at.inj (Option.some.inj placed)
        calc
          (exponentialLimit : Int) ≤ (overflowThreshold * unitsPerOne : Nat) :=
            Int.ofNat_le.mpr exponentialLimit_le
          _ = (overflowThreshold : Int) * unitsPerOne := Int.natCast_mul ..
          _ ≤ i * unitsPerOne := Int.mul_le_mul_of_nonneg_right above (Int.natCast_nonneg _)
      rw [exponentialOf_of_le placed' (Int.le_trans far le)]
      exact lessEqual_infinity (zero_lessEqual_exponentialOf hm).ne_nan

theorem apply_exp (m : Number) (others : List Value) :
    exp.apply (.number m :: others) = .ok (.double (exponentialOf m)) := rfl

/-- The exponential answers a double for every number, and whatever follows it. Numbers in order have
exponentials in order, and that of a number that is not above zero is finite, if the number is no
integer too far below zero for a double; the exponential of such an integer is infinite. -/
theorem exponential_mono (ordered : m.lessEqual n = true) (others others' : List Value) :
    ∃ x y, exp.apply (.number m :: others) = .ok (.double x) ∧
      exp.apply (.number n :: others') = .ok (.double y) ∧
      (¬ m.Undershoots →
        x.LessEqual y ∧ (m.lessEqual (.integer 0) = true → x ≠ .infinity false)) ∧
      (m.Undershoots → x = .infinity false) := by
  refine ⟨_, _, apply_exp m others, apply_exp n others', fun reached => ?_,
    exponentialOf_of_undershoots⟩
  refine ⟨exponentialOf_mono ordered reached, fun below infinite => ?_⟩
  have atZero := exponentialOf_mono below reached
  rw [infinite] at atZero
  have finite : (Number.double (.infinity false)).lessEqual
      (.double (exponentialOf (.integer 0))) = false := by decide +kernel
  exact Bool.false_ne_true (finite.symm.trans atZero)

theorem exponential_mono_beyond :
    (Number.double (.ofInt (-1))).lessEqual (.integer (10 ^ 400)) = true ∧
      ∃ x y, exp.apply [.double (.ofInt (-1)), .boolean true] = .ok (.double x) ∧
        exp.apply [.number (.integer (10 ^ 400))] = .ok (.double y) ∧ x.LessEqual y ∧
        x ≠ .infinity false := by
  have ordered : (Number.double (.ofInt (-1))).lessEqual (.integer (10 ^ 400)) = true := by
    decide +kernel
  obtain ⟨x, y, answered, answered', kept, -⟩ := exponential_mono ordered [.boolean true] []
  obtain ⟨inOrder, finite⟩ := kept (by rintro ⟨i, same, -⟩; cases same)
  exact ⟨ordered, x, y, answered, answered', inOrder, finite (by decide +kernel)⟩

/-- The exponential of an integer too far below zero is not below that of zero, but infinite. -/
theorem exponential_tenToThe400_below_zero :
    (Number.integer (-10 ^ 400)).lessEqual (.integer 0) = true ∧
      exp.apply [.number (.integer (-10 ^ 400))] = .ok (.double (.infinity false)) ∧
      exp.apply [.number (.integer 0)] = .ok (.double (.ofInt 1)) ∧
      ¬ (Double.infinity false).LessEqual (.ofInt 1) := by
  have undershoots : (Number.integer (-10 ^ 400)).Undershoots := ⟨_, rfl, by decide +kernel⟩
  have one : exponentialOf (.integer 0) = .ofInt 1 := by decide +kernel
  refine ⟨by decide +kernel, ?_, ?_, by unfold LessEqual; decide +kernel⟩
  · rw [apply_exp, exponentialOf_of_undershoots undershoots]
  · rw [apply_exp, one]

end MathFunction

end DynamicScope
