import DynamicScope.Proofs.Double.Range
import DynamicScope.Proofs.Run.Parts
import DynamicScope.Proofs.Value.Doubles
import DynamicScope.Run.Execute

/-! What counts as false.
Any value can be tested but an integer that is too large for a double, which a test converts to one. So
the operators that test their operands, conditionals and loops do not fail by a test but for such an
integer. -/

namespace DynamicScope

namespace Double

theorem isZero_iff {x : Double} : x.isZero = true ↔ ∃ negative, x = .zero negative := by
  constructor
  · intro zero
    cases x with
    | nan | infinity => cases zero
    | finite negative units rep =>
      cases units with
      | zero => exact ⟨negative, rfl⟩
      | succ n => cases zero
  · rintro ⟨negative, rfl⟩
    rfl

theorem not_isNaN_of_ofInt? {n : Int} {x : Double} (h : ofInt? n = some x) : x.isNaN = false := by
  unfold ofInt? ofInt ofRatio at h
  split at h
  · cases h
    rfl
  · cases h

end Double

namespace Number

/-- Zero, as an integer or as a double of either sign, and NaN. -/
inductive CountsFalse : Number → Prop
  | zero : CountsFalse (.integer 0)
  | doubleZero (negative : Bool) : CountsFalse (.double (.zero negative))
  | nan : CountsFalse (.double .nan)

theorem isZero_integer (n : Int) : (integer n).isZero = decide (n = 0) := by
  have scale : (unitsPerOne : Int) ≠ 0 := Int.ne_of_gt (Int.natCast_pos.mpr unitsPerOne_pos)
  have place : (integer n).isZero = decide (Place.at (n * unitsPerOne) = .at (0 * unitsPerOne)) := rfl
  rw [place, decide_eq_decide, Place.at.injEq]
  exact Int.mul_eq_mul_right_iff scale

theorem countsFalse_integer {n : Int} : (integer n).CountsFalse ↔ n = 0 := by
  constructor
  · rintro ⟨⟩
    rfl
  · rintro rfl
    exact .zero

theorem countsFalse_double {x : Double} :
    (double x).CountsFalse ↔ x.isZero = true ∨ x.isNaN = true := by
  constructor
  · intro h
    cases h with
    | doubleZero negative => exact .inl rfl
    | nan => exact .inr rfl
  · rintro (zero | nan)
    · obtain ⟨negative, rfl⟩ := Double.isZero_iff.mp zero
      exact .doubleZero negative
    · cases x with
      | nan => exact .nan
      | _ => cases nan

/-- Whether a number is an integer that is too large for a double. -/
def ExceedsDoubles (a : Number) : Prop :=
  ∃ n : Int, a = .integer n ∧ Double.overflowThreshold ≤ n.natAbs

theorem isTrue_of_exceedsDoubles {a : Number} (h : a.ExceedsDoubles) :
    a.isTrue = .error .integerTooLarge := by
  obtain ⟨n, rfl, large⟩ := h
  have nonzero : n ≠ 0 := by
    rintro rfl
    exact absurd large (by decide +kernel)
  rw [isTrue, isZero_integer, decide_eq_false nonzero, toDouble, Double.ofInt?_eq_none_iff.mpr large]
  rfl

theorem isTrue_of_not_exceedsDoubles {a : Number} (h : ¬ a.ExceedsDoubles) :
    ∃ b, a.isTrue = .ok b ∧ (b = false ↔ a.CountsFalse) := by
  cases a with
  | integer n =>
    rw [countsFalse_integer]
    rw [isTrue, isZero_integer]
    by_cases zero : n = 0
    · exact ⟨false, by simp [zero], by simp [zero]⟩
    cases nearest : Double.ofInt? n with
    | none => exact absurd ⟨n, rfl, Double.ofInt?_eq_none_iff.mp nearest⟩ h
    | some x =>
      refine ⟨true, ?_, by simp [zero]⟩
      rw [decide_eq_false zero, toDouble, nearest]
      change Except.ok (!x.isNaN) = _
      rw [Double.not_isNaN_of_ofInt? nearest]
      rfl
  | double x =>
    rw [countsFalse_double, isTrue, isZero_double]
    cases x.isZero with
    | true => exact ⟨false, rfl, by simp⟩
    | false => exact ⟨!x.isNaN, rfl, by simp⟩

end Number

namespace Value

/-- The values that count as false: false, zero, NaN and the undefined value. -/
inductive CountsFalse : Value → Prop
  | boolean : CountsFalse (.boolean false)
  | number {n : Number} (h : n.CountsFalse) : CountsFalse (.number n)
  | undefined : CountsFalse .undefined

/-- Whether a value is an integer that is too large for a double. -/
def ExceedsDoubles (v : Value) : Prop :=
  ∃ n : Int, v = .number (.integer n) ∧ Double.overflowThreshold ≤ n.natAbs

theorem exceedsDoubles_number {n : Number} :
    (Value.number n).ExceedsDoubles ↔ n.ExceedsDoubles := by
  simp [ExceedsDoubles, Number.ExceedsDoubles]

theorem isTrue_of_exceedsDoubles {v : Value} (h : v.ExceedsDoubles) :
    v.isTrue = .error (.number .integerTooLarge) := by
  obtain ⟨n, rfl, large⟩ := h
  rw [isTrue, Number.isTrue_of_exceedsDoubles ⟨n, rfl, large⟩]
  rfl

theorem isTrue_of_not_exceedsDoubles {v : Value} (h : ¬ v.ExceedsDoubles) :
    ∃ b, v.isTrue = .ok b ∧ (b = false ↔ v.CountsFalse) := by
  cases v with
  | number n =>
    obtain ⟨b, tested, falsity⟩ :=
      Number.isTrue_of_not_exceedsDoubles (mt exceedsDoubles_number.mpr h)
    have counted : n.CountsFalse ↔ (Value.number n).CountsFalse := by
      constructor
      · exact .number
      · rintro (_ | given | _)
        exact given
    exact ⟨b, by rw [isTrue, tested]; rfl, falsity.trans counted⟩
  | boolean b =>
    refine ⟨b, rfl, fun same => same ▸ .boolean, ?_⟩
    rintro ⟨⟩
    rfl
  | undefined => exact ⟨false, rfl, iff_of_true rfl .undefined⟩
  | _ =>
    refine ⟨true, rfl, iff_of_false Bool.true_eq_false.mp ?_⟩
    rintro ⟨⟩

theorem unary_not {v : Value} {b : Bool} (tested : v.isTrue = .ok b) :
    unary (written "!") v = .ok (.boolean !b) := by
  change (do return .boolean !(← v.isTrue) : Except Failure Value) = _
  rw [tested]
  rfl

theorem binary_both {v v' : Value} {b b' : Bool} (tested : v.isTrue = .ok b)
    (tested' : v'.isTrue = .ok b') : binary (written "&&") v v' = .ok (.boolean (b && b')) := by
  change applyOperator "&&" v v' .both = _
  rw [applyOperator, tested, tested']
  cases b <;> rfl

theorem binary_either {v v' : Value} {b b' : Bool} (tested : v.isTrue = .ok b)
    (tested' : v'.isTrue = .ok b') : binary (written "||") v v' = .ok (.boolean (b || b')) := by
  change applyOperator "||" v v' .either = _
  rw [applyOperator, tested, tested']
  cases b <;> rfl

end Value

namespace Setup

open Machine

/-- A test of an integer that is too large for a double fails. Any other value is tested, and counts as
false exactly if it is false, zero, NaN or the undefined value; so negations, conjunctions and
disjunctions of such values return, a conditional goes on with one of its branches, and the condition of
a loop returns once its event is recorded. -/
theorem tests_within_doubles (setup : Setup) (v : Value) :
    (v.ExceedsDoubles → v.isTrue = .error (.number .integerTooLarge)) ∧
    (¬ v.ExceedsDoubles → ∃ b, v.isTrue = .ok b ∧ (b = false ↔ v.CountsFalse) ∧
      Value.unary (Value.written "!") v = .ok (.boolean !b) ∧
      (∀ v' : Value, ¬ v'.ExceedsDoubles → ∃ b', (b' = false ↔ v'.CountsFalse) ∧
        Value.binary (Value.written "&&") v v' = .ok (.boolean (b && b')) ∧
        Value.binary (Value.written "||") v v' = .ok (.boolean (b || b'))) ∧
      (∀ (calls : Nat) (env : EnvRef) (test first second : Ast) (w u : World),
        (setup.evaluate calls env test).run w = .ok v u →
        (setup.evaluate calls env (.conditional test first second)).run w =
          (setup.evaluate calls env (if b then first else second)).run u) ∧
      ∀ (budget : Budget) (env : EnvRef) (test : Ast) (w u : World),
        (setup.evaluate budget.calls env test).run w = .ok v u →
        (setup.condition budget env test).run w = (do
          record setup 3 fun _ => do return .condition (← v.toText)
          return b : Machine Bool).run u) := by
  refine ⟨Value.isTrue_of_exceedsDoubles, fun within => ?_⟩
  obtain ⟨b, tested, falsity⟩ := Value.isTrue_of_not_exceedsDoubles within
  refine ⟨b, tested, falsity, Value.unary_not tested, fun v' within' => ?_, ?_, ?_⟩
  · obtain ⟨b', tested', falsity'⟩ := Value.isTrue_of_not_exceedsDoubles within'
    exact ⟨b', falsity', Value.binary_both tested tested', Value.binary_either tested tested'⟩
  · intro calls env test first second w u evaluated
    rw [evaluate_conditional, run_bind_of_ok evaluated, tested, lift_ok_bind]
  · intro budget env test w u evaluated
    rw [condition, run_bind_of_ok evaluated, tested]
    rfl

/-- Negation fails on an integer that is too large for a double, where it should answer false. -/
theorem unary_not_tenToThe400 :
    Value.unary (Value.written "!") (.number (.integer (10 ^ 400))) =
      .error (.number .integerTooLarge) := by
  have large : (Value.number (.integer (10 ^ 400))).ExceedsDoubles :=
    ⟨10 ^ 400, rfl, by decide +kernel⟩
  change (do return .boolean !(← Value.isTrue _) : Except Failure Value) = _
  rw [Value.isTrue_of_exceedsDoubles large]
  rfl

end Setup

end DynamicScope
