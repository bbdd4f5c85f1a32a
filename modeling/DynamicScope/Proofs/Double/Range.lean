import Mathlib.Tactic.Ring
import DynamicScope.Proofs.Double.Rounding

/-! The integers of the double range.
The largest double is 2^1024 - 2^971. An integer is rounded to infinity from the middle between it and
2^1024 on, since a tie goes to the even significand. -/

namespace DynamicScope.Double

theorem succ_le_roundHalfEven_iff {num den low : Nat} (positive : 0 < den) (odd : low % 2 = 1) :
    low + 1 ≤ roundHalfEven num den ↔ (2 * low + 1) * den ≤ 2 * num := by
  have parts := Nat.div_add_mod num den
  have rest := Nat.mod_lt num positive
  have tie : (2 * low + 1) * den = 2 * (den * low) + den := by ring
  rcases Nat.lt_trichotomy (num / den) low with below | same | above
  · have step : den * (num / den + 1) ≤ den * low := Nat.mul_le_mul_left den below
    rw [Nat.mul_succ] at step
    have rounded := roundHalfEven_le num den
    omega
  · rw [same] at parts
    simp only [roundHalfEven, same]
    split
    · omega
    · split
      · omega
      · split <;> omega
  · have step : den * (low + 1) ≤ den * (num / den) := Nat.mul_le_mul_left den above
    rw [Nat.mul_succ] at step
    have rounded := roundHalfEven_eq_or num den
    omega

theorem two_pow_le_roundRatio_iff {den : Nat} (positive : 0 < den) (num place : Nat) :
    2 ^ (53 + place) ≤ roundRatio num den ↔ (2 ^ 54 - 1) * (den * 2 ^ place) ≤ 2 * num := by
  have here : lastPlace num den = (num / den).log2 - 52 := rfl
  have power : 0 < 2 ^ place := Nat.two_pow_pos place
  have top : 2 ^ (53 + place) = 2 ^ 53 * 2 ^ place := Nat.pow_add ..
  have scaled (k : Nat) : k * (den * 2 ^ place) = k * 2 ^ place * den := by ring
  rcases Nat.lt_trichotomy ((num / den).log2 - 52) place with lower | same | higher
  · have short : num / den < 2 ^ 52 * 2 ^ place := by
      refine Nat.lt_of_lt_of_le Nat.lt_log2_self ?_
      rw [← Nat.pow_add]
      exact Nat.pow_le_pow_right Nat.zero_lt_two (by omega)
    have below : num < 2 ^ 52 * (den * 2 ^ place) := by
      rw [scaled]
      exact (Nat.div_lt_iff_lt_mul positive).mp short
    have rounded : roundRatio num den ≤ 2 ^ 52 * 2 ^ place := by
      have step := Nat.mul_le_mul_right (Nat.pow 2 (lastPlace num den))
        (roundHalfEven_place_le num den)
      rw [here, Nat.pow_eq, Nat.pow_eq, ← Nat.pow_add] at step
      rw [roundRatio, here, Nat.pow_eq, ← Nat.pow_add]
      exact Nat.le_trans step (Nat.pow_le_pow_right Nat.zero_lt_two (by omega))
    constructor <;> intro h <;> omega
  · have significand : roundRatio num den = roundHalfEven num (den * 2 ^ place) * 2 ^ place := by
      rw [roundRatio, here, same, Nat.pow_eq]
    rw [significand, top, Nat.mul_le_mul_right_iff power]
    exact succ_le_roundHalfEven_iff (Nat.mul_pos positive power) (by decide)
  · have long : 2 ^ (53 + place) ≤ num / den :=
      Nat.le_trans (Nat.pow_le_pow_right Nat.zero_lt_two (by omega))
        (Nat.log2_self_le (by intro zero; rw [zero] at higher; simp at higher))
    have above : 2 ^ 53 * (den * 2 ^ place) ≤ num := by
      rw [scaled, ← top]
      exact (Nat.le_div_iff_mul_le positive).mp long
    have rounded : 2 ^ (53 + place) ≤ roundRatio num den := le_roundRatio long
    exact iff_of_true rounded (by omega)

def overflowThreshold : Nat := 2 ^ 1024 - 2 ^ 970

theorem ofRatio_bounded?_eq_none (negative : Bool) (num den : Nat) :
    (ofRatio negative num den).bounded? = none ↔ unitsBound ≤ roundRatio num den := by
  unfold ofRatio
  split
  · rename_i below
    exact iff_of_false (Option.some_ne_none _) (Nat.not_le_of_lt below)
  · rename_i beyond
    exact iff_of_true rfl (Nat.le_of_not_lt beyond)

theorem unitsBound_le_roundRatio_iff {den : Nat} (positive : 0 < den) (num : Nat) :
    unitsBound ≤ roundRatio num den ↔ overflowThreshold * (den * unitsPerOne) ≤ num := by
  obtain ⟨bits, bound, bits_eq⟩ := unitsBound_eq
  obtain ⟨scale, one, scale_eq⟩ := unitsPerOne_eq
  have place : bits = 53 + 2045 := bits_eq
  have threshold : (2 ^ 54 - 1) * 2 ^ 2045 = 2 * (overflowThreshold * 2 ^ scale) := by
    rw [scale_eq]
    decide +kernel
  have scaled : (2 ^ 54 - 1) * (den * 2 ^ 2045) =
      2 * (overflowThreshold * (den * 2 ^ scale)) := by
    rw [Nat.mul_left_comm, threshold]
    ring
  rw [bound, place, two_pow_le_roundRatio_iff positive, scaled, one,
    Nat.mul_le_mul_left_iff (by decide)]

theorem ofInt?_eq_none_iff {n : Int} : ofInt? n = none ↔ overflowThreshold ≤ n.natAbs := by
  rw [ofInt?, ofInt, ofRatio_bounded?_eq_none, unitsBound_le_roundRatio_iff Nat.zero_lt_one,
    Nat.one_mul, Nat.mul_le_mul_right_iff unitsPerOne_pos]

end DynamicScope.Double
