import Mathlib.Tactic.SplitIfs
import DynamicScope.Proofs.Double.Rounding

/-! Rounding is monotone.
A larger ratio is never rounded to a smaller magnitude: at one place the significands are in order, and
between two places there is a power of two that the rounding of neither ratio passes. -/

namespace DynamicScope.Double

theorem roundHalfEven_mono_left (den : Nat) {num num' : Nat} (h : num ≤ num') :
    roundHalfEven num den ≤ roundHalfEven num' den := by
  have quotient : num / den ≤ num' / den := Nat.div_le_div_right h
  rcases Nat.lt_or_eq_of_le quotient with less | same
  · have low := roundHalfEven_le num den
    have high := roundHalfEven_eq_or num' den
    omega
  · have parts := Nat.div_add_mod num den
    have parts' := Nat.div_add_mod num' den
    rw [same] at parts
    have rest : num % den ≤ num' % den := by omega
    simp only [roundHalfEven, same]
    split_ifs <;> omega

theorem log2_mono {m n : Nat} (h : m ≤ n) : m.log2 ≤ n.log2 := by
  rcases Nat.eq_zero_or_pos m with rfl | positive
  · simp
  · have nonzero : n ≠ 0 := by omega
    exact (Nat.le_log2 nonzero).mpr (Nat.le_trans (Nat.log2_self_le (Nat.ne_of_gt positive)) h)

variable {num den num' den' : Nat} (positive : 0 < den) (positive' : 0 < den')
  (h : num * den' ≤ num' * den)

include positive positive' h

theorem roundHalfEven_mono : roundHalfEven num den ≤ roundHalfEven num' den' := by
  rw [← roundHalfEven_mul_right num den positive', ← roundHalfEven_mul_right num' den' positive,
    Nat.mul_comm den' den]
  exact roundHalfEven_mono_left _ h

theorem quotient_mono : num / den ≤ num' / den' := by
  rw [← Nat.mul_div_mul_right num den positive', ← Nat.mul_div_mul_right num' den' positive,
    Nat.mul_comm den' den]
  exact Nat.div_le_div_right h

theorem roundRatio_mono : roundRatio num den ≤ roundRatio num' den' := by
  have place : lastPlace num den ≤ lastPlace num' den' :=
    Nat.sub_le_sub_right (log2_mono (quotient_mono positive positive' h)) 52
  rcases Nat.lt_or_eq_of_le place with less | same
  · have long : lastPlace num' den' + 52 = (num' / den').log2 := by
      unfold lastPlace at less ⊢
      omega
    have nonzero : num' / den' ≠ 0 := by
      intro zero
      rw [zero, Nat.log2_zero] at long
      omega
    have leading : 2 ^ (lastPlace num' den' + 52) ≤ num' / den' := by
      rw [long]
      exact Nat.log2_self_le nonzero
    calc
      roundRatio num den ≤ 2 ^ 53 * 2 ^ lastPlace num den :=
        Nat.mul_le_mul_right _ (roundHalfEven_place_le num den)
      _ = 2 ^ (53 + lastPlace num den) := (Nat.pow_add ..).symm
      _ ≤ 2 ^ (lastPlace num' den' + 52) := Nat.pow_le_pow_right Nat.zero_lt_two (by omega)
      _ ≤ roundRatio num' den' := le_roundRatio leading
  · have power : 0 < Nat.pow 2 (lastPlace num' den') := Nat.two_pow_pos _
    rw [roundRatio, roundRatio, same]
    refine Nat.mul_le_mul_right _ (roundHalfEven_mono (Nat.mul_pos positive power)
      (Nat.mul_pos positive' power) ?_)
    rw [← Nat.mul_assoc, ← Nat.mul_assoc]
    exact Nat.mul_le_mul_right _ h

end DynamicScope.Double
