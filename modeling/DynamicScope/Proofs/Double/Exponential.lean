import DynamicScope.Double.Exponential
import DynamicScope.Proofs.Number.Rounded

/-! The exponential is monotone.
Each step of its computation is monotone in natural numbers: the terms, their sum and the squarings. A
negative argument has the reciprocal of the same number, which is at most one. What is rounded in the
end is a ratio, and rounding is monotone. -/

namespace DynamicScope.Double

theorem exponentialTerms_mono (steps : Nat) {y y' term term' : Nat} (hy : y ≤ y')
    (hterm : term ≤ term') (index : Nat) :
    exponentialTerms steps y term index ≤ exponentialTerms steps y' term' index := by
  induction steps generalizing term term' index with
  | zero => exact Nat.le_refl 0
  | succ steps ih =>
    have next : term * y / fixedOne / (index + 1) ≤ term' * y' / fixedOne / (index + 1) :=
      Nat.div_le_div_right (Nat.div_le_div_right (Nat.mul_le_mul hterm hy))
    exact Nat.add_le_add hterm (ih next (index + 1))

theorem squareRepeatedly_mono (steps : Nat) {z z' : Nat} (h : z ≤ z') :
    squareRepeatedly steps z ≤ squareRepeatedly steps z' := by
  induction steps generalizing z z' with
  | zero => exact h
  | succ steps ih => exact ih (Nat.div_le_div_right (Nat.mul_le_mul h h))

theorem fixedOne_pos : 0 < fixedOne := by decide +kernel

theorem fixedOne_le_squareRepeatedly (steps : Nat) {z : Nat} (h : fixedOne ≤ z) :
    fixedOne ≤ squareRepeatedly steps z := by
  induction steps generalizing z with
  | zero => exact h
  | succ steps ih =>
    exact ih ((Nat.le_div_iff_mul_le fixedOne_pos).mpr (Nat.mul_le_mul h h))

theorem fixedExponential_mono {units units' : Nat} (h : units ≤ units') :
    fixedExponential units ≤ fixedExponential units' :=
  squareRepeatedly_mono 24 (exponentialTerms_mono 32
    (Nat.div_le_div_right (Nat.mul_le_mul_right fixedOne h)) (Nat.le_refl _) 0)

theorem fixedOne_le_fixedExponential (units : Nat) : fixedOne ≤ fixedExponential units :=
  fixedOne_le_squareRepeatedly 24 (Nat.le_add_right fixedOne _)

theorem fixedExponential_pos (units : Nat) : 0 < fixedExponential units :=
  Nat.lt_of_lt_of_le fixedOne_pos (fixedOne_le_fixedExponential units)

theorem fixedExponential_zero : fixedExponential 0 = fixedOne := by decide +kernel

/-! ### Rounded ratios in order -/

def LessEqual (x y : Double) : Prop := (Number.double x).lessEqual (.double y) = true

theorem ofRatio_ne_nan (negative : Bool) (num den : Nat) : ofRatio negative num den ≠ .nan := by
  intro same
  unfold ofRatio at same
  split at same <;> cases same

theorem lessEqual_infinity {x : Double} (h : x ≠ .nan) : x.LessEqual (.infinity false) :=
  Number.lessEqual_top fun same => h (Number.double.inj same)

theorem LessEqual.ne_nan {x y : Double} (h : x.LessEqual y) : y ≠ .nan := by
  rintro rfl
  exact (Number.ne_nan_of_lessEqual h).2 rfl

theorem ofRatio_lessEqual {num den num' den' : Nat} (positive : 0 < den) (positive' : 0 < den')
    (h : num * den' ≤ num' * den) : (ofRatio false num den).LessEqual (ofRatio false num' den') := by
  have rounded := roundRatio_mono positive positive' h
  by_cases bounded : roundRatio num' den' < unitsBound
  · have below : roundRatio num den < unitsBound := Nat.lt_of_le_of_lt rounded bounded
    rw [ofRatio, dif_pos below, ofRatio, dif_pos bounded]
    exact (Number.lessEqual_at rfl rfl).mpr (Int.ofNat_le.mpr rounded)
  · rw [ofRatio.eq_def false num' den', dif_neg bounded]
    exact lessEqual_infinity (ofRatio_ne_nan false num den)

theorem zero_lessEqual_ofRatio (num den : Nat) : (zero false).LessEqual (ofRatio false num den) := by
  unfold ofRatio
  split
  · exact (Number.lessEqual_at rfl rfl).mpr (Int.natCast_nonneg _)
  · rfl

/-! ### The exponential by places -/

/-- The exponential of a finite double, by the place of the double. -/
def exponentialAt (k : Int) : Double :=
  if k.natAbs < exponentialLimit then
    if k < 0 then ofRatio false (fixedOne * unitsPerOne) (fixedExponential k.natAbs)
    else ofRatio false (fixedExponential k.natAbs * unitsPerOne) fixedOne
  else if k < 0 then zero false
  else .infinity false

theorem exponentialLimit_pos : 0 < exponentialLimit := by decide +kernel

theorem exp_of_place? {x : Double} {k : Int} (h : x.place? = some (.at k)) :
    x.exp = exponentialAt k := by
  cases x with
  | nan => cases h
  | infinity negative => cases negative <;> cases h
  | finite negative units rep =>
    cases h
    cases negative with
    | false =>
      have above : ¬ (units : Int) < 0 := by omega
      simp only [exp, exponentialAt, signed, Bool.false_eq_true, if_false, above, Int.natAbs_natCast]
    | true =>
      rcases Nat.eq_zero_or_pos units with rfl | positive
      · have none : signed true 0 = 0 := rfl
        rw [none, exponentialAt, Int.natAbs_zero, if_pos exponentialLimit_pos,
          if_neg (Int.lt_irrefl 0), exp, if_pos exponentialLimit_pos, fixedExponential_zero]
      · have below : -(units : Int) < 0 := by omega
        simp only [exp, exponentialAt, signed, if_true, below, Int.natAbs_neg, Int.natAbs_natCast]

theorem zero_lessEqual_exponentialAt (k : Int) : (zero false).LessEqual (exponentialAt k) := by
  unfold exponentialAt
  split
  · split
    · exact zero_lessEqual_ofRatio _ _
    · exact zero_lessEqual_ofRatio _ _
  · split <;> rfl

theorem exponentialAt_of_le {k : Int} (h : exponentialLimit ≤ k) :
    exponentialAt k = .infinity false := by
  have outside : ¬ k.natAbs < exponentialLimit := by omega
  have above : ¬ k < 0 := by omega
  rw [exponentialAt, if_neg outside, if_neg above]

theorem exponentialAt_of_le_neg {k : Int} (h : k ≤ -exponentialLimit) :
    exponentialAt k = zero false := by
  have limit := exponentialLimit_pos
  have outside : ¬ k.natAbs < exponentialLimit := by omega
  have below : k < 0 := by omega
  rw [exponentialAt, if_neg outside, if_pos below]

theorem exponentialAt_mono {j k : Int} (h : j ≤ k) :
    (exponentialAt j).LessEqual (exponentialAt k) := by
  by_cases infinite : exponentialLimit ≤ k
  · rw [exponentialAt_of_le infinite]
    exact lessEqual_infinity (zero_lessEqual_exponentialAt j).ne_nan
  by_cases vanishing : j ≤ -exponentialLimit
  · rw [exponentialAt_of_le_neg vanishing]
    exact zero_lessEqual_exponentialAt k
  have inside : j.natAbs < exponentialLimit ∧ k.natAbs < exponentialLimit := by omega
  rw [exponentialAt, if_pos inside.1, exponentialAt, if_pos inside.2]
  by_cases before : j < 0
  · rw [if_pos before]
    by_cases after : k < 0
    · rw [if_pos after]
      exact ofRatio_lessEqual (fixedExponential_pos _) (fixedExponential_pos _)
        (Nat.mul_le_mul_left _ (fixedExponential_mono (by omega)))
    · rw [if_neg after]
      refine ofRatio_lessEqual (fixedExponential_pos _) fixedOne_pos (Nat.mul_le_mul
        (Nat.mul_le_mul_right _ ?_) ?_) <;> exact fixedOne_le_fixedExponential _
  · have after : ¬ k < 0 := by omega
    rw [if_neg before, if_neg after]
    exact ofRatio_lessEqual fixedOne_pos fixedOne_pos (Nat.mul_le_mul_right _
      (Nat.mul_le_mul_right _ (fixedExponential_mono (by omega))))

/-! ### Where the exponential becomes infinite -/

theorem add_place_le {units units' : Nat} (rep : Representable units) (rep' : Representable units')
    (h : units < units') : units + 2 ^ (units.log2 - 52) ≤ units' := by
  have places : units.log2 - 52 ≤ units'.log2 - 52 :=
    Nat.sub_le_sub_right (log2_mono (Nat.le_of_lt h)) 52
  have divides : 2 ^ (units.log2 - 52) ∣ units' - units :=
    Nat.dvd_sub (Nat.dvd_trans (Nat.pow_dvd_pow 2 places) rep'.2) rep.2
  have gap := Nat.le_of_dvd (Nat.sub_pos_of_lt h) divides
  omega

/-- The largest double of which the exponential is finite, 709.782712893384. -/
def greatestExponent : Double := .finite false (6243314768165359 * Nat.pow 2 1031) (by decide +kernel)

theorem exists_greatestExponent : ∃ units rep, greatestExponent = .finite false units rep ∧
    exponentialAt units ≠ .infinity false ∧
    exponentialAt (units + 2 ^ (units.log2 - 52) : Nat) = .infinity false :=
  ⟨_, _, rfl, by decide +kernel, by decide +kernel⟩

theorem LessEqual.eq_infinity {y : Double} (h : LessEqual (.infinity false) y) :
    y = .infinity false := by
  cases y with
  | infinity negative =>
    cases negative with
    | false => rfl
    | true => cases h
  | nan | finite => cases h

theorem exp_eq_infinity_iff {x : Double} :
    x.exp = .infinity false ↔ (Number.double greatestExponent).less (.double x) = true := by
  obtain ⟨units, rep, same, finite, infinite⟩ := exists_greatestExponent
  have order {k : Int} (h : x.place? = some (.at k)) :
      (Number.double greatestExponent).less (.double x) = true ↔ (units : Int) < k := by
    have placed : (Number.double x).place? = some (.at k) := h
    have placed' : (Number.double greatestExponent).place? = some (.at units) := by rw [same]; rfl
    rw [Number.less, placed, placed', Place.less_at]
  cases x with
  | nan =>
    refine iff_of_false (fun reached => ?_) (fun above => ?_)
    · cases reached
    · rw [same] at above
      cases above
  | infinity negative =>
    rw [same]
    cases negative <;> simp [exp, zero, Number.less, Number.place?, place?, Place.less]
  | finite negative units' rep' =>
    rw [exp_of_place? rfl, order rfl]
    constructor
    · intro reached
      by_contra below
      have kept := exponentialAt_mono (Int.not_lt.mp below)
      rw [reached] at kept
      exact finite kept.eq_infinity
    · intro above
      have positive : negative = false := by
        cases negative with
        | false => rfl
        | true =>
          simp only [signed, if_true] at above
          omega
      subst positive
      have next : units + 2 ^ (units.log2 - 52) ≤ units' :=
        add_place_le rep rep' (Int.ofNat_lt.mp above)
      have kept := exponentialAt_mono (Int.ofNat_le.mpr next)
      rw [infinite] at kept
      exact kept.eq_infinity

end DynamicScope.Double
