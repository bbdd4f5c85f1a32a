import Mathlib.Algebra.Field.Rat
import Mathlib.Data.Rat.Cast.CharZero
import Mathlib.Order.WithBot
import DynamicScope.Number.Basic
import DynamicScope.Proofs.Double.Rounding

/-! Exact values of numbers.
The value of a double is a rational number or infinite, that of an integer is the integer itself. Two
places are one place exactly if they stand for one value, so comparing places compares values, also
of an integer with a double. -/

namespace DynamicScope

def Double.value? : Double → Option (WithBot (WithTop ℚ))
  | .nan => none
  | .infinity negative => some (if negative then ⊥ else ⊤)
  | .finite negative units _ =>
    some (((if negative then -(units : ℚ) else units) / unitsPerOne : ℚ) : WithTop ℚ)

def Number.value? : Number → Option (WithBot (WithTop ℚ))
  | .double x => x.value?
  | .integer n => some ((n : ℚ) : WithTop ℚ)

theorem Double.toInt?_finite_iff {negative : Bool} {units : Nat} {rep : Representable units} {n : Int} :
    (finite negative units rep).toInt? = some n ↔ signed negative units = n * unitsPerOne := by
  have whole : units % unitsPerOne = 0 ↔ (unitsPerOne : Int) ∣ signed negative units := by
    rw [← Nat.dvd_iff_mod_eq_zero, ← Int.natCast_dvd_natCast]
    cases negative with
    | false => exact Iff.rfl
    | true => exact Int.dvd_neg.symm
  have quotient (divides : (unitsPerOne : Int) ∣ signed negative units) :
      (if negative then -((units / unitsPerOne : Nat) : Int) else (units / unitsPerOne : Nat)) =
        signed negative units / unitsPerOne := by
    cases negative with
    | false => exact Int.natCast_ediv units unitsPerOne
    | true => exact (Int.neg_ediv_of_dvd (Int.dvd_neg.mp divides)).symm
  have scale : (unitsPerOne : Int) ≠ 0 := Int.ne_of_gt (Int.natCast_pos.mpr unitsPerOne_pos)
  rw [toInt?, Option.ite_none_right_eq_some, Option.some_inj, whole]
  constructor
  · rintro ⟨divides, same⟩
    exact (Int.ediv_eq_iff_eq_mul_left scale divides).mp ((quotient divides).symm.trans same)
  · intro same
    have divides : (unitsPerOne : Int) ∣ signed negative units := same ▸ Int.dvd_mul_left _ _
    exact ⟨divides, (quotient divides).trans ((Int.ediv_eq_iff_eq_mul_left scale divides).mpr same)⟩

def Place.value : Place → WithBot (WithTop ℚ)
  | .bottom => ⊥
  | .at units => ((units / unitsPerOne : ℚ) : WithTop ℚ)
  | .top => ⊤

theorem unitsPerOne_ne_zero : (unitsPerOne : ℚ) ≠ 0 :=
  Nat.cast_ne_zero.mpr unitsPerOne_pos.ne'

theorem Place.value_injective : Function.Injective Place.value := by
  intro a b same
  have nonzero := unitsPerOne_ne_zero
  unfold value at same
  -- Only that the scale is not zero matters here; as a numeral it would be too large.
  generalize (unitsPerOne : ℚ) = scale at same nonzero
  cases a <;> cases b <;> simp [div_left_inj' nonzero] at same ⊢
  assumption

theorem Number.value?_eq (n : Number) : n.value? = n.place?.map Place.value := by
  cases n with
  | integer n =>
    have cancelled : (n : ℚ) = ((n * unitsPerOne : Int) : ℚ) / unitsPerOne := by
      rw [Int.cast_mul, Int.cast_natCast, mul_div_cancel_right₀ _ unitsPerOne_ne_zero]
    rw [value?, cancelled]
    rfl
  | double x =>
    cases x with
    | nan => rfl
    | infinity negative => cases negative <;> rfl
    | finite negative units h =>
      have signed : ((Double.signed negative units : Int) : ℚ) =
          if negative then -(units : ℚ) else units := by
        cases negative <;> simp [Double.signed]
      rw [value?, Double.value?, ← signed]
      rfl

theorem Number.equal_of_ne_nan {m n : Number} (h : m ≠ .double .nan) :
    m.equal n = decide (m.place? = n.place?) := by
  obtain ⟨p, place⟩ : ∃ p, m.place? = some p := by
    cases m with
    | integer k => exact ⟨_, rfl⟩
    | double x =>
      cases x with
      | nan => exact absurd rfl h
      | infinity | finite => exact ⟨_, rfl⟩
  rw [equal, place]
  cases n.place? <;> simp

end DynamicScope
