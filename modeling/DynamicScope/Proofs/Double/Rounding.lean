import Mathlib.Algebra.Group.Nat.Defs
import DynamicScope.Double.Decimal

/-! Rounding to the nearest double.
Rounding looks at the ratio only, so two numerals of one value are read as one double, however many
zeros either ends with, and the bounds beyond which a numeral is not computed agree with what would
be computed. A magnitude of a double is rounded to itself; so the shortest numeral of a magnitude,
which was found by reading, is read back whatever the search has come to. -/

namespace DynamicScope

theorem unitsPerOne_eq : ∃ bits, unitsPerOne = 2 ^ bits ∧ bits = 1074 :=
  ⟨unitsPerOne.log2, by decide +kernel, by decide +kernel⟩

theorem unitsPerOne_pos : 0 < unitsPerOne := by
  obtain ⟨bits, power, -⟩ := unitsPerOne_eq
  exact power ▸ Nat.two_pow_pos bits

theorem unitsBound_eq : ∃ bits, unitsBound = 2 ^ bits ∧ bits = 2098 :=
  ⟨unitsBound.log2, by decide +kernel, by decide +kernel⟩

namespace Double

theorem roundHalfEven_mul_right (num den : Nat) {k : Nat} (h : 0 < k) :
    roundHalfEven (num * k) (den * k) = roundHalfEven num den := by
  have twice : 2 * (num * k % (den * k)) = 2 * (num % den) * k := by
    rw [Nat.mul_mod_mul_right, Nat.mul_assoc]
  simp only [roundHalfEven, twice, Nat.mul_div_mul_right num den h, Nat.mul_lt_mul_right h]

theorem roundHalfEven_eq_or (num den : Nat) :
    roundHalfEven num den = num / den ∨ roundHalfEven num den = num / den + 1 := by
  simp only [roundHalfEven]
  split
  · exact .inl rfl
  · split
    · exact .inr rfl
    · split
      · exact .inl rfl
      · exact .inr rfl

theorem roundHalfEven_of_dvd {num den : Nat} (positive : 0 < den) (h : den ∣ num) :
    roundHalfEven num den = num / den := by
  simp only [roundHalfEven, Nat.mod_eq_zero_of_dvd h]
  exact if_pos positive

theorem ofRatio_mul_right (negative : Bool) (num den : Nat) {k : Nat} (h : 0 < k) :
    ofRatio negative (num * k) (den * k) = ofRatio negative num den := by
  have place : lastPlace (num * k) (den * k) = lastPlace num den := by
    rw [lastPlace, lastPlace, Nat.mul_div_mul_right num den h]
  have same : roundRatio (num * k) (den * k) = roundRatio num den := by
    rw [roundRatio, roundRatio, place, Nat.mul_right_comm, roundHalfEven_mul_right _ _ h]
  simp only [ofRatio, same]

theorem ofRatio_congr (negative : Bool) {num den num' den' : Nat} (positive : 0 < den)
    (positive' : 0 < den') (h : num * den' = num' * den) :
    ofRatio negative num den = ofRatio negative num' den' := by
  rw [← ofRatio_mul_right negative num den positive', h, Nat.mul_comm den den',
    ofRatio_mul_right negative num' den' positive]

theorem ofRatio_of_roundRatio (negative : Bool) {num den units : Nat}
    (h : roundRatio num den = units) (rep : Representable units) :
    ofRatio negative num den = .finite negative units rep := by
  subst h
  exact dif_pos rep.1

theorem roundRatio_of_representable {units : Nat} (rep : Representable units) :
    roundRatio units 1 = units := by
  have place : lastPlace units 1 = units.log2 - 52 := by rw [lastPlace, Nat.div_one]
  have divides : 1 * Nat.pow 2 (units.log2 - 52) ∣ units := by rw [Nat.one_mul]; exact rep.2
  have positive : 0 < 1 * Nat.pow 2 (units.log2 - 52) := by
    rw [Nat.one_mul]; exact Nat.two_pow_pos _
  rw [roundRatio, place, roundHalfEven_of_dvd positive divides, Nat.one_mul,
    Nat.div_mul_cancel rep.2]

theorem roundRatio_eq_zero {num den : Nat} (h : 2 * num < den) : roundRatio num den = 0 := by
  have less : num < den := by omega
  have place : lastPlace num den = 0 := by rw [lastPlace, Nat.div_eq_of_lt less]; rfl
  have one : den * Nat.pow 2 0 = den := Nat.mul_one den
  rw [roundRatio, place, one, roundHalfEven, Nat.div_eq_of_lt less, Nat.mod_eq_of_lt less]
  simp only [if_pos h, Nat.zero_mul]

theorem le_roundRatio {num den bits : Nat} (h : 2 ^ bits ≤ num / den) :
    2 ^ bits ≤ roundRatio num den := by
  have nonzero : num / den ≠ 0 := Nat.ne_of_gt (Nat.lt_of_lt_of_le (Nat.two_pow_pos bits) h)
  have place : lastPlace num den ≤ (num / den).log2 := Nat.sub_le _ _
  have low : num / den / Nat.pow 2 (lastPlace num den) ≤
      roundHalfEven num (den * Nat.pow 2 (lastPlace num den)) := by
    rw [Nat.div_div_eq_div_mul]
    rcases roundHalfEven_eq_or num (den * Nat.pow 2 (lastPlace num den)) with same | same <;> omega
  have leading : 2 ^ ((num / den).log2 - lastPlace num den) ≤
      num / den / Nat.pow 2 (lastPlace num den) := by
    rw [Nat.pow_eq, Nat.le_div_iff_mul_le (Nat.two_pow_pos _), ← Nat.pow_add,
      Nat.sub_add_cancel place]
    exact Nat.log2_self_le nonzero
  calc
    2 ^ bits ≤ 2 ^ (num / den).log2 :=
      Nat.pow_le_pow_right Nat.zero_lt_two ((Nat.le_log2 nonzero).mpr h)
    _ = 2 ^ ((num / den).log2 - lastPlace num den) * Nat.pow 2 (lastPlace num den) := by
      rw [Nat.pow_eq, ← Nat.pow_add, Nat.sub_add_cancel place]
    _ ≤ roundRatio num den := Nat.mul_le_mul_right _ (Nat.le_trans leading low)

theorem ofRatio_of_le (negative : Bool) {num den : Nat} (h : unitsBound ≤ num / den) :
    ofRatio negative num den = .infinity negative := by
  obtain ⟨bits, power, -⟩ := unitsBound_eq
  rw [power] at h
  have large := le_roundRatio h
  rw [← power] at large
  exact dif_neg (Nat.not_lt_of_le large)

end Double

namespace Decimal

open Double

theorem ratio_eq (d : Decimal) :
    d.ratio = (d.digits * unitsPerOne * 10 ^ d.exponent.toNat, 10 ^ (-d.exponent).toNat) := by
  obtain ⟨digits, exponent⟩ := d
  cases exponent with
  | ofNat k =>
    have none : (-(Int.ofNat k)).toNat = 0 := by simp
    exact Prod.ext rfl (by rw [none]; rfl)
  | negSucc k => exact Prod.ext (Nat.mul_one _).symm rfl

theorem two_pow_le {digits bound bits exponent : Nat} (nonzero : digits ≠ 0)
    (h : bound ≤ bits + 3 * exponent) :
    2 ^ bound ≤ digits * 2 ^ bits * 10 ^ exponent := by
  have tens : 2 ^ (3 * exponent) ≤ 10 ^ exponent := by
    rw [Nat.pow_mul]
    exact Nat.pow_le_pow_left (by decide) exponent
  calc
    2 ^ bound ≤ 2 ^ (bits + 3 * exponent) := Nat.pow_le_pow_right Nat.zero_lt_two h
    _ = 2 ^ bits * 2 ^ (3 * exponent) := Nat.pow_add ..
    _ ≤ digits * 2 ^ bits * 10 ^ exponent :=
      Nat.mul_le_mul (Nat.le_mul_of_pos_left _ (Nat.pos_of_ne_zero nonzero)) tens

theorem two_mul_lt {digits bits exponent : Nat} (h : digits.log2 + bits + 2 ≤ exponent) :
    2 * (digits * 2 ^ bits) < 10 ^ exponent := by
  have below : digits < 2 ^ (digits.log2 + 1) := Nat.lt_log2_self
  calc
    2 * (digits * 2 ^ bits) < 2 * (2 ^ (digits.log2 + 1) * 2 ^ bits) :=
      Nat.mul_lt_mul_of_pos_left (Nat.mul_lt_mul_of_pos_right below (Nat.two_pow_pos _))
        Nat.zero_lt_two
    _ = 2 ^ (digits.log2 + bits + 2) := by
      rw [← Nat.pow_add, Nat.mul_comm, ← Nat.pow_succ]
      congr 1
      omega
    _ ≤ 2 ^ exponent := Nat.pow_le_pow_right Nat.zero_lt_two h
    _ ≤ 10 ^ exponent := Nat.pow_le_pow_left (by decide) _

theorem toDouble_eq_ofRatio (negative : Bool) (d : Decimal) :
    d.toDouble negative = .ofRatio negative d.ratio.1 d.ratio.2 := by
  rw [ratio_eq]
  unfold toDouble
  split
  · rename_i zero
    have positive : 0 < 10 ^ (-d.exponent).toNat := Nat.pow_pos (by decide)
    rw [zero, Nat.zero_mul, Nat.zero_mul]
    exact (ofRatio_of_roundRatio negative (roundRatio_eq_zero positive) representable_zero).symm
  rename_i nonzero
  obtain ⟨bits, one, bits_eq⟩ := unitsPerOne_eq
  split
  · rename_i large
    have exponent : (-d.exponent).toNat = 0 := by omega
    refine (ofRatio_of_le negative ?_).symm
    obtain ⟨bound, power, bound_eq⟩ := unitsBound_eq
    rw [exponent, Nat.pow_zero, Nat.div_one, power, one]
    exact two_pow_le nonzero (by omega)
  split
  · rename_i small
    have exponent : d.exponent.toNat = 0 := by omega
    refine (ofRatio_of_roundRatio negative (roundRatio_eq_zero ?_) representable_zero).symm
    rw [exponent, Nat.pow_zero, Nat.mul_one, one]
    exact two_mul_lt (by omega)
  · rw [ratio_eq]

theorem toDouble_mul_pow (negative : Bool) (digits zeros : Nat) (exponent : Int) :
    toDouble negative ⟨digits * 10 ^ zeros, exponent⟩ =
      toDouble negative ⟨digits, exponent + zeros⟩ := by
  rw [toDouble_eq_ofRatio, toDouble_eq_ofRatio, ratio_eq, ratio_eq]
  refine ofRatio_congr negative (Nat.pow_pos (by decide)) (Nat.pow_pos (by decide)) ?_
  have exponents : zeros + exponent.toNat + (-(exponent + zeros)).toNat =
      (exponent + zeros).toNat + (-exponent).toNat := by omega
  calc
    digits * 10 ^ zeros * unitsPerOne * 10 ^ exponent.toNat * 10 ^ (-(exponent + zeros)).toNat =
        digits * unitsPerOne * (10 ^ zeros * 10 ^ exponent.toNat *
          10 ^ (-(exponent + zeros)).toNat) := by
      simp only [Nat.mul_assoc, Nat.mul_left_comm]
    _ = digits * unitsPerOne * (10 ^ (exponent + zeros).toNat * 10 ^ (-exponent).toNat) := by
      rw [← Nat.pow_add, ← Nat.pow_add, exponents, Nat.pow_add]
    _ = digits * unitsPerOne * 10 ^ (exponent + zeros).toNat * 10 ^ (-exponent).toNat := by
      rw [Nat.mul_assoc (digits * unitsPerOne)]

end Decimal

namespace Double

theorem toDouble_of_readsBack (negative : Bool) {units : Nat} {d : Decimal}
    (h : readsBack units d = true) (rep : Representable units) :
    d.toDouble negative = .finite negative units rep := by
  unfold readsBack at h
  rw [Decimal.toDouble_eq_ofRatio] at h ⊢
  refine ofRatio_of_roundRatio negative ?_ rep
  by_cases bounded : roundRatio d.ratio.1 d.ratio.2 < unitsBound
  · rw [ofRatio, dif_pos bounded] at h
    exact beq_iff_eq.mp h
  · rw [ofRatio, dif_neg bounded] at h
    cases h

theorem readsBack_of_onGrid? {units : Nat} {place : Int} {d : Decimal}
    (found : onGrid? units place = some d) : readsBack units d = true := by
  unfold onGrid? at found
  generalize overPowerOfTen units place = ratio at found
  obtain ⟨num, den⟩ := ratio
  dsimp only at found
  cases below : readsBack units ⟨num / den, place⟩ <;>
    cases above : readsBack units ⟨num / den + 1, place⟩ <;> rw [below, above] at found
  · cases found
  · cases found
    exact above
  · cases found
    exact below
  · cases found
    rcases roundHalfEven_eq_or num den with same | same
    · rw [same]
      exact below
    · rw [same]
      exact above

theorem toDouble_of_expanded (negative : Bool) {units fives places : Nat} {d : Decimal}
    (digits : d.digits = units * fives) (exponent : d.exponent = -(places : Int))
    (tens : fives * unitsPerOne = 10 ^ places) (rep : Representable units) :
    d.toDouble negative = .finite negative units rep := by
  have up : (-(places : Int)).toNat = 0 := by simp
  have down : (- -(places : Int)).toNat = places := by simp
  rw [Decimal.toDouble_eq_ofRatio, Decimal.ratio_eq, digits, exponent, up, down,
    ← ofRatio_of_roundRatio negative (roundRatio_of_representable rep) rep]
  refine ofRatio_congr negative (Nat.pow_pos (by decide)) Nat.zero_lt_one ?_
  rw [Nat.mul_one, Nat.pow_zero, Nat.mul_one, Nat.mul_assoc, tens]

theorem toDouble_expansion (negative : Bool) {units : Nat} (rep : Representable units) :
    (expansion units).toDouble negative = .finite negative units rep :=
  toDouble_of_expanded negative rfl rfl (by decide +kernel) rep

theorem toDouble_shortest (negative : Bool) {units : Nat} (rep : Representable units) :
    (shortest units).toDouble negative = .finite negative units rep := by
  unfold shortest
  dsimp only
  generalize found : ((List.range 17).findSome? fun (n : Nat) =>
    onGrid? units (leadingPlace units - n)) = nearest
  cases nearest with
  | none => exact toDouble_expansion negative rep
  | some d =>
    obtain ⟨n, -, onGrid⟩ := List.exists_of_findSome?_eq_some found
    exact toDouble_of_readsBack negative (readsBack_of_onGrid? onGrid) rep

end Double

end DynamicScope
