import Mathlib.Algebra.Order.Field.Rat
import Mathlib.Algebra.Order.Ring.Abs
import Mathlib.Algebra.Order.Ring.Cast
import Mathlib.Tactic.Linarith
import DynamicScope.Proofs.Double.Monotone
import DynamicScope.Proofs.Double.Range
import DynamicScope.Proofs.Number.Nearest
import DynamicScope.Proofs.Number.Value

/-! Rounding to the nearest double.
No magnitude of at most 53 significant bits is nearer to a ratio than what it is rounded to, and if
another one is as near, the significand of the result is even. Among the multiples of the last place
this is so because integers are rounded so; a magnitude that is none of them is below the power of two
that the ratio has reached, which is one. Between two magnitudes of even significands there is always
a third, so the nearest double is only one. -/

namespace DynamicScope.Double

/-- How far a number of units is from a ratio, over its denominator. -/
def offset (num den units : Nat) : Nat := ((units * den : Nat) - (num : ℤ)).natAbs

theorem offset_mul (num den units scale : Nat) :
    offset num den (units * scale) = offset num (den * scale) units := by
  rw [offset, offset, Nat.mul_assoc, Nat.mul_comm scale den]

theorem offset_roundHalfEven {den : Nat} (positive : 0 < den) (num k : Nat) :
    offset num den (roundHalfEven num den) ≤ offset num den k ∧
    (offset num den (roundHalfEven num den) = offset num den k →
      k = roundHalfEven num den ∨ roundHalfEven num den % 2 = 0) := by
  have parts := Nat.div_add_mod num den
  have rest := Nat.mod_lt num positive
  have next : (num / den + 1) * den = num / den * den + den := Nat.succ_mul ..
  have below (h : k < num / den) : k * den + den ≤ num / den * den := by
    rw [← Nat.succ_mul]
    exact Nat.mul_le_mul_right den h
  have above (h : num / den + 1 < k) : num / den * den + den + den ≤ k * den := by
    rw [← next, ← Nat.succ_mul]
    exact Nat.mul_le_mul_right den h
  have apart : k < num / den ∨ k = num / den ∨ k = num / den + 1 ∨ num / den + 1 < k := by omega
  rw [Nat.mul_comm] at parts
  simp only [offset, roundHalfEven]
  rcases apart with h | rfl | rfl | h
  · have far := below h
    split_ifs <;> omega
  · split_ifs <;> omega
  · split_ifs <;> omega
  · have far := above h
    split_ifs <;> omega

def significand (units : Nat) : Nat := units / 2 ^ (units.log2 - 52)

theorem significand_mul_two_pow {bits place : Nat} (most : bits ≤ 2 ^ 53)
    (least : place = 0 ∨ 2 ^ 52 ≤ bits) (even : bits % 2 = 0) :
    significand (bits * 2 ^ place) % 2 = 0 := by
  rcases Nat.eq_or_lt_of_le most with rfl | less
  · have carried : (2 ^ 53 * 2 ^ place).log2 - 52 = place + 1 := by
      rw [← Nat.pow_add, Nat.log2_two_pow]
      omega
    rw [significand, carried, ← Nat.pow_add, Nat.pow_div (by omega) Nat.zero_lt_two,
      (by omega : 53 + place - (place + 1) = 52)]
  · have here : (bits * 2 ^ place).log2 - 52 = place := by
      rcases least with rfl | least
      · rw [Nat.pow_zero, Nat.mul_one, Nat.sub_eq_zero_iff_le]
        rcases Nat.eq_zero_or_pos bits with rfl | positive
        · simp
        · exact Nat.le_of_lt_succ ((Nat.log2_lt (Nat.ne_of_gt positive)).mpr less)
      · have leading : (bits * 2 ^ place).log2 = 52 + place := by
          have power : 0 < 2 ^ place := Nat.two_pow_pos place
          rw [Nat.log2_eq_iff (Nat.mul_ne_zero (by omega) (Nat.ne_of_gt power)),
            Nat.add_right_comm 52 place 1, Nat.pow_add, Nat.pow_add 2 (52 + 1)]
          exact ⟨Nat.mul_le_mul_right _ least, Nat.mul_lt_mul_of_pos_right less power⟩
        omega
    rw [significand, here, Nat.mul_div_cancel _ (Nat.two_pow_pos place), even]

theorem two_pow_le_of_lastPlace {num den : Nat} (h : lastPlace num den ≠ 0) :
    2 ^ (52 + lastPlace num den) ≤ num / den := by
  have bits : 52 + lastPlace num den = (num / den).log2 := by
    unfold lastPlace at h ⊢
    omega
  rw [bits]
  refine Nat.log2_self_le fun zero => h ?_
  rw [lastPlace, zero, Nat.log2_zero]

section

variable {den : Nat} (positive : 0 < den) (num : Nat) {units : Nat}

include positive

theorem offset_roundRatio (h : 2 ^ (units.log2 - 52) ∣ units) :
    offset num den (roundRatio num den) ≤ offset num den units ∧
    (offset num den (roundRatio num den) = offset num den units →
      units = roundRatio num den ∨ significand (roundRatio num den) % 2 = 0) := by
  have most := roundHalfEven_place_le num den
  have full (own : lastPlace num den ≠ 0) : 2 ^ 52 * (den * 2 ^ lastPlace num den) ≤ num := by
    have long := two_pow_le_of_lastPlace own
    rw [Nat.le_div_iff_mul_le positive, Nat.pow_add] at long
    rwa [Nat.mul_comm den, ← Nat.mul_assoc]
  rw [roundRatio]
  simp only [Nat.pow_eq] at most ⊢
  generalize lastPlace num den = place at most full ⊢
  have scaled : 0 < den * 2 ^ place := Nat.mul_pos positive (Nat.two_pow_pos place)
  have nearest := offset_roundHalfEven scaled num
  have least : place = 0 ∨ 2 ^ 52 ≤ roundHalfEven num (den * 2 ^ place) := by
    refine (Nat.eq_zero_or_pos place).imp_right fun own => ?_
    have low := (Nat.le_div_iff_mul_le scaled).mpr (full (Nat.ne_of_gt own))
    rcases roundHalfEven_eq_or num (den * 2 ^ place) with same | same <;> omega
  have even (h : roundHalfEven num (den * 2 ^ place) % 2 = 0) :
      significand (roundHalfEven num (den * 2 ^ place) * 2 ^ place) % 2 = 0 :=
    significand_mul_two_pow most least h
  rw [offset_mul]
  by_cases multiple : 2 ^ place ∣ units
  · obtain ⟨k, rfl⟩ := multiple
    rw [Nat.mul_comm (2 ^ place) k, offset_mul]
    exact ⟨(nearest k).1, fun same => ((nearest k).2 same).imp (congrArg (· * 2 ^ place)) even⟩
  · -- The power of two that the ratio has reached is a multiple of the last place.
    have finer : units.log2 - 52 < place :=
      Nat.lt_of_not_le fun coarse => multiple (Nat.dvd_trans (Nat.pow_dvd_pow 2 coarse) h)
    have short : units < 2 ^ 52 * 2 ^ place := by
      rw [← Nat.pow_add]
      exact Nat.lt_of_lt_of_le Nat.lt_log2_self (Nat.pow_le_pow_right Nat.zero_lt_two (by omega))
    have reached := full (by omega)
    have below : units * den < 2 ^ 52 * (den * 2 ^ place) := by
      rw [Nat.mul_comm den, ← Nat.mul_assoc]
      exact Nat.mul_lt_mul_of_pos_right short positive
    have nearer := (nearest (2 ^ 52)).1
    have less : offset num (den * 2 ^ place) (2 ^ 52) < offset num den units := by
      unfold offset
      omega
    exact ⟨by omega, fun same => by omega⟩

omit positive

variable (negative negative' : Bool)

theorem natAbs_signed (units : Nat) : (signed negative units).natAbs = units := by
  cases negative with
  | false => rfl
  | true => exact Int.natAbs_neg _

theorem signed_mul (units scale : Nat) :
    signed negative (units * scale) = signed negative units * scale := by
  cases negative with
  | false => exact Int.natCast_mul ..
  | true => exact (congrArg Neg.neg (Int.natCast_mul ..)).trans (Int.neg_mul ..).symm

theorem natAbs_signed_sub (units : Nat) :
    (signed negative units * den - signed negative num).natAbs = offset num den units := by
  rw [offset, Int.natCast_mul]
  cases negative with
  | false => rfl
  | true =>
    have turned : signed true units * den - signed true num = -((units : ℤ) * den - num) := by
      simp only [signed, if_true]
      ring
    rw [turned, Int.natAbs_neg]

theorem natAbs_signed_sub_of_ne (opposite : negative' ≠ negative) (units : Nat) :
    (signed negative' units * den - signed negative num).natAbs = units * den + num := by
  have size : ((units * den + num : Nat) : ℤ) = units * den + num := by push_cast; rfl
  cases negative <;> cases negative' <;>
    simp only [signed, Bool.false_eq_true, if_true, if_false, Int.neg_mul] <;>
    first | exact absurd rfl opposite | omega

include positive

theorem natAbs_signed_roundRatio (h : 2 ^ (units.log2 - 52) ∣ units) :
    (signed negative (roundRatio num den) * den - signed negative num).natAbs ≤
      (signed negative' units * den - signed negative num).natAbs ∧
    ((signed negative (roundRatio num den) * den - signed negative num).natAbs =
      (signed negative' units * den - signed negative num).natAbs →
      signed negative' units = signed negative (roundRatio num den) ∨
        significand (roundRatio num den) % 2 = 0) := by
  rw [natAbs_signed_sub]
  by_cases same : negative' = negative
  · subst same
    rw [natAbs_signed_sub]
    obtain ⟨nearest, tie⟩ := offset_roundRatio positive num h
    exact ⟨nearest, fun equal => (tie equal).imp_left (congrArg _)⟩
  · obtain ⟨nearest, tie⟩ := offset_roundRatio positive num (dvd_zero (2 ^ (Nat.log2 0 - 52)))
    have zero : offset num den 0 = num := by simp [offset]
    rw [zero] at nearest tie
    rw [natAbs_signed_sub_of_ne num negative negative' same]
    refine ⟨Nat.le_trans nearest (Nat.le_add_left ..), fun equal => ?_⟩
    have none : units = 0 := by
      have nothing : units * den = 0 := by omega
      exact (Nat.mul_eq_zero.mp nothing).resolve_right (Nat.ne_of_gt positive)
    subst none
    refine (tie (by omega)).imp_left fun rounded => ?_
    rw [← rounded]
    cases negative <;> cases negative' <;> rfl

end

/-! ### The nearest double to a rational number -/

def HasValue (x : Double) (r : ℚ) : Prop :=
  x.value? = some ((r : WithTop ℚ) : WithBot (WithTop ℚ))

/-- Whether a double is the nearest one to a rational number. Within the double range it is finite, and
no other finite double is nearer, or as near unless the significand is even; beyond, it is infinite. -/
inductive Nearest (q : ℚ) : Double → Prop
  | finite {negative : Bool} {units : Nat} {rep : Representable units} {r : ℚ}
    (value : (Double.finite negative units rep).HasValue r)
    (within : |q| < overflowThreshold) (sign : q ≠ 0 → negative = decide (q < 0))
    (closest : ∀ (y : Double) (s : ℚ), y.HasValue s →
      |r - q| ≤ |s - q| ∧ (|r - q| = |s - q| → s = r ∨ significand units % 2 = 0)) :
    Nearest q (.finite negative units rep)
  | infinity {negative : Bool} (beyond : overflowThreshold ≤ |q|)
    (sign : negative = decide (q < 0)) : Nearest q (.infinity negative)

def rational (negative : Bool) (units : Nat) : ℚ := (signed negative units : ℤ) / unitsPerOne

theorem hasValue_finite (negative : Bool) {units : Nat} (rep : Representable units) :
    (Double.finite negative units rep).HasValue (rational negative units) :=
  Number.value?_eq (.double (.finite negative units rep))

theorem HasValue.eq_rational {negative : Bool} {units : Nat} {rep : Representable units} {r : ℚ}
    (h : (Double.finite negative units rep).HasValue r) : r = rational negative units := by
  rw [HasValue, hasValue_finite negative rep] at h
  simpa using h.symm

theorem HasValue.exists_units {x : Double} {r : ℚ} (h : x.HasValue r) :
    ∃ negative units, Representable units ∧ r = rational negative units := by
  cases x with
  | nan => cases h
  | infinity negative => cases negative <;> cases h
  | finite negative units rep => exact ⟨negative, units, rep, h.eq_rational⟩

section

variable {den : Nat} (positive : 0 < den)

include positive

theorem scale_pos : (0 : ℚ) < den * unitsPerOne :=
  mul_pos (Nat.cast_pos.mpr positive) (Nat.cast_pos.mpr unitsPerOne_pos)

variable {negative : Bool} {num : Nat} {q : ℚ}
  (scaled : q * (den * unitsPerOne) = (signed negative num : ℤ))

include scaled

theorem abs_rational_sub_mul (negative' : Bool) (units : Nat) :
    |rational negative' units - q| * (den * unitsPerOne) =
      ((signed negative' units * den - signed negative num).natAbs : ℚ) := by
  have cancelled : rational negative' units * (den * unitsPerOne) =
      (signed negative' units * den : ℤ) := by
    rw [rational, mul_left_comm, div_mul_cancel₀ _ unitsPerOne_ne_zero, mul_comm, Int.cast_mul,
      Int.cast_natCast]
  calc
    _ = |(rational negative' units - q) * (den * unitsPerOne)| := by
      rw [abs_mul, abs_of_pos (scale_pos positive)]
    _ = |((signed negative' units * den - signed negative num : ℤ) : ℚ)| := by
      rw [sub_mul, cancelled, scaled, Int.cast_sub]
    _ = _ := by rw [Nat.cast_natAbs, Int.cast_abs]

theorem abs_mul_eq : |q| * (den * unitsPerOne) = num := by
  have size : |((signed negative num : ℤ) : ℚ)| = num := by
    rw [← Int.cast_abs, ← Nat.cast_natAbs, natAbs_signed]
  rw [← abs_of_pos (scale_pos positive), ← abs_mul, scaled, size]

theorem eq_decide_of_ne_zero (h : q ≠ 0) : negative = decide (q < 0) := by
  have scale := scale_pos positive
  cases negative with
  | false =>
    have above : 0 ≤ q * (den * unitsPerOne) := by
      rw [scaled]
      exact Int.cast_nonneg (Int.natCast_nonneg num)
    exact (decide_eq_false (not_lt.mpr (nonneg_of_mul_nonneg_left above scale))).symm
  | true =>
    have below : q * (den * unitsPerOne) ≤ 0 := by
      rw [scaled]
      exact Int.cast_nonpos.mpr (Int.neg_nonpos_of_nonneg (Int.natCast_nonneg num))
    exact (decide_eq_true (lt_of_le_of_ne (nonpos_of_mul_nonpos_left below scale) h)).symm

theorem overflowThreshold_le_abs_iff :
    (overflowThreshold : ℚ) ≤ |q| ↔ unitsBound ≤ roundRatio num den := by
  rw [unitsBound_le_roundRatio_iff positive, ← mul_le_mul_iff_left₀ (scale_pos positive),
    abs_mul_eq positive scaled, ← Nat.cast_mul, ← Nat.cast_mul, Nat.cast_le]

theorem nearest_ofRatio : Nearest q (ofRatio negative num den) := by
  have beyond_iff := overflowThreshold_le_abs_iff positive scaled
  unfold ofRatio
  split
  · rename_i below
    have rep : Representable (roundRatio num den) := ⟨below, roundRatio_dvd num den⟩
    refine .finite (hasValue_finite negative rep)
      (not_le.mp fun beyond => Nat.not_le_of_lt below (beyond_iff.mp beyond))
      (eq_decide_of_ne_zero positive scaled) fun y s value => ?_
    obtain ⟨negative', units, rep', rfl⟩ := value.exists_units
    have distance := abs_rational_sub_mul positive scaled
    obtain ⟨nearest, tie⟩ := natAbs_signed_roundRatio positive num negative negative' rep'.2
    rw [← mul_le_mul_iff_left₀ (scale_pos positive),
      ← mul_left_inj' (ne_of_gt (scale_pos positive)), distance, distance, Nat.cast_le,
      Nat.cast_inj]
    exact ⟨nearest, fun same => (tie same).imp_left fun equal => by rw [rational, equal, rational]⟩
  · rename_i beyond
    have large : (overflowThreshold : ℚ) ≤ |q| := beyond_iff.mpr (Nat.le_of_not_lt beyond)
    refine .infinity large (eq_decide_of_ne_zero positive scaled ?_)
    rintro rfl
    rw [abs_zero, Nat.cast_nonpos] at large
    exact absurd large (by decide +kernel)

end

theorem nearest_ofInt? {n : Int} {x : Double} (h : ofInt? n = some x) :
    Nearest n x := by
  have same : x = ofRatio (decide (n < 0)) (n.natAbs * unitsPerOne) 1 := by
    change (ofInt n).bounded? = some x at h
    rw [← ofInt]
    generalize ofInt n = y at h ⊢
    cases y with
    | infinity => cases h
    | _ => exact (Option.some.inj h).symm
  rw [same]
  refine nearest_ofRatio Nat.zero_lt_one ?_
  rw [signed_natAbs_mul, Nat.cast_one, one_mul, Int.cast_mul, Int.cast_natCast]

theorem nearest_toDouble (d : Decimal) (negative : Bool) :
    Nearest ((signed negative d.digits : ℤ) * 10 ^ d.exponent)
      (d.toDouble negative) := by
  have tens : (10 : ℚ) ^ d.exponent * 10 ^ (-d.exponent).toNat = 10 ^ d.exponent.toNat := by
    rw [← zpow_natCast, ← zpow_natCast, ← zpow_add₀ (by decide)]
    congr 1
    omega
  rw [Decimal.toDouble_eq_ofRatio, Decimal.ratio_eq]
  refine nearest_ofRatio (Nat.pow_pos (by decide)) ?_
  rw [signed_mul, signed_mul, Int.cast_mul, Int.cast_mul, Int.cast_natCast,
    Int.cast_natCast, Nat.cast_pow, Nat.cast_pow, Nat.cast_ofNat, ← tens]
  ring

/-! ### Only one double is nearest -/

theorem two_dvd_of_significand {units : Nat} (rep : Representable units)
    (even : significand units % 2 = 0) : 2 ^ (units.log2 - 52) * 2 ∣ units := by
  have divides : 2 ^ (units.log2 - 52) ∣ units := rep.2
  have step := Nat.mul_dvd_mul_left (2 ^ (units.log2 - 52)) (Nat.dvd_of_mod_eq_zero even)
  rwa [significand, Nat.mul_div_cancel' divides] at step

theorem exists_between {units units' : Nat} (rep : Representable units) (rep' : Representable units')
    (even : significand units % 2 = 0) (even' : significand units' % 2 = 0) (h : units < units') :
    ∃ between, Representable between ∧ units < between ∧ between < units' := by
  have places : units.log2 - 52 ≤ units'.log2 - 52 :=
    Nat.sub_le_sub_right (log2_mono (Nat.le_of_lt h)) 52
  have divides := two_dvd_of_significand rep even
  have divides' : 2 ^ (units.log2 - 52) * 2 ∣ units' :=
    Nat.dvd_trans (Nat.mul_dvd_mul_right (Nat.pow_dvd_pow 2 places) 2)
      (two_dvd_of_significand rep' even')
  have short : units < 2 ^ 53 * 2 ^ (units.log2 - 52) := by
    rw [← Nat.pow_add]
    exact Nat.lt_of_lt_of_le Nat.lt_log2_self (Nat.pow_le_pow_right Nat.zero_lt_two (by omega))
  generalize units.log2 - 52 = place at divides divides' short
  obtain ⟨half, rfl⟩ := divides
  obtain ⟨half', rfl⟩ := divides'
  have power : 0 < 2 ^ place := Nat.two_pow_pos place
  have less : half < half' := Nat.lt_of_mul_lt_mul_left h
  have bits : 2 * half + 1 ≤ 2 ^ 53 := by
    rw [Nat.mul_assoc, Nat.mul_comm, Nat.mul_lt_mul_right power] at short
    exact short
  have below : (2 * half + 1) * 2 ^ place < 2 ^ place * 2 * half' := by
    rw [Nat.mul_assoc, Nat.mul_comm (2 ^ place), Nat.mul_lt_mul_right power]
    omega
  refine ⟨(2 * half + 1) * 2 ^ place, ⟨Nat.lt_trans below rep'.1, dvd_of_le_two_pow _ _ bits⟩, ?_, below⟩
  rw [Nat.mul_assoc, Nat.mul_comm (2 ^ place), Nat.mul_lt_mul_right power]
  omega

theorem rational_inj {negative : Bool} {units units' : Nat} :
    rational negative units = rational negative units' ↔ units = units' := by
  refine ⟨fun same => ?_, congrArg _⟩
  rw [rational, rational, div_left_inj' unitsPerOne_ne_zero, Int.cast_inj] at same
  rw [← natAbs_signed negative units, same, natAbs_signed]

theorem rational_zero (negative : Bool) : rational negative 0 = 0 := by
  have none : signed negative 0 = 0 := by cases negative <;> rfl
  rw [rational, none, Int.cast_zero, zero_div]

theorem rational_lt {negative negative' : Bool} {units units' : Nat}
    (h : signed negative units < signed negative' units') :
    rational negative units < rational negative' units' :=
  div_lt_div_of_pos_right (Int.cast_lt.mpr h) (Nat.cast_pos.mpr unitsPerOne_pos)

theorem abs_sub_lt_of_between {q r s t : ℚ} (equal : |r - q| = |s - q|)
    (h : r < t ∧ t < s ∨ s < t ∧ t < r) : |t - q| < |r - q| := by
  rcases abs_eq_abs.mp equal with same | opposite
  · rcases h with ⟨left, right⟩ | ⟨left, right⟩ <;> linarith
  · rw [abs_lt]
    rcases h with ⟨left, right⟩ | ⟨left, right⟩
    · have size := neg_le_abs (r - q)
      constructor <;> linarith
    · have size := le_abs_self (r - q)
      constructor <;> linarith

theorem not_lt_of_closest {q : ℚ} {negative : Bool} {units units' : Nat} (rep : Representable units)
    (rep' : Representable units') (even : significand units % 2 = 0)
    (even' : significand units' % 2 = 0)
    (equal : |rational negative units - q| = |rational negative units' - q|)
    (closest : ∀ between, Representable between →
      |rational negative units - q| ≤ |rational negative between - q|) : ¬ units < units' := by
  intro h
  obtain ⟨between, representable, above, below⟩ := exists_between rep rep' even even' h
  refine not_lt.mpr (closest between representable) (abs_sub_lt_of_between equal ?_)
  cases negative with
  | false => exact .inl ⟨rational_lt (Int.ofNat_lt.mpr above), rational_lt (Int.ofNat_lt.mpr below)⟩
  | true =>
    exact .inr ⟨rational_lt (Int.neg_lt_neg (Int.ofNat_lt.mpr below)),
      rational_lt (Int.neg_lt_neg (Int.ofNat_lt.mpr above))⟩

theorem eq_zero_of_closest {negative : Bool} {units : Nat}
    (closest : |rational negative units - 0| ≤ |rational false 0 - 0|) : units = 0 := by
  rwa [rational_zero, sub_zero, sub_zero, abs_zero, abs_nonpos_iff, ← rational_zero negative,
    rational_inj] at closest

theorem Nearest.unique {q : ℚ} {x y : Double} (hx : Nearest q x) (hy : Nearest q y) :
    x = y ∨ x.isZero = true ∧ y.isZero = true := by
  cases hx with
  | infinity beyond sign =>
    cases hy with
    | infinity _ sign' => exact .inl (by rw [sign, sign'])
    | finite _ within => exact absurd within (not_lt.mpr beyond)
  | @finite negative units rep r value within sign closest =>
    cases hy with
    | infinity beyond => exact absurd within (not_lt.mpr beyond)
    | @finite negative' units' rep' s value' within' sign' closest' =>
      have equal := le_antisymm (closest _ _ value').1 (closest' _ _ value).1
      have tie := (closest _ _ value').2 equal
      have tie' := (closest' _ _ value).2 equal.symm
      obtain rfl := value.eq_rational
      obtain rfl := value'.eq_rational
      by_cases zero : q = 0
      · subst zero
        obtain rfl := eq_zero_of_closest (closest _ _ (hasValue_finite false representable_zero)).1
        obtain rfl := eq_zero_of_closest (closest' _ _ (hasValue_finite false representable_zero)).1
        exact .inr ⟨rfl, rfl⟩
      obtain rfl : negative = negative' := (sign zero).trans (sign' zero).symm
      by_cases same : units = units'
      · subst same
        exact .inl rfl
      -- Two that are equally near are both even, and then one between them is nearer.
      have even := tie.resolve_left fun h => same (rational_inj.mp h).symm
      have even' := tie'.resolve_left fun h => same (rational_inj.mp h)
      rcases Nat.lt_or_gt_of_ne same with less | greater
      · exact absurd less (not_lt_of_closest rep rep' even even' equal
          fun _ other => (closest _ _ (hasValue_finite negative other)).1)
      · exact absurd greater (not_lt_of_closest rep' rep even' even equal.symm
          fun _ other => (closest' _ _ (hasValue_finite negative other)).1)

end DynamicScope.Double
