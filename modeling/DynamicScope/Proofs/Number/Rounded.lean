import DynamicScope.Proofs.Double.Monotone
import DynamicScope.Proofs.Double.Range
import DynamicScope.Proofs.Number.Nearest

/-! Conversion to a double keeps the order.
Numbers that are not infinite have their places in units, and the double that such a number is
converted to has the rounded place. Rounding places is monotone, so it does not matter which of two
numbers in order is an integer and which a double. -/

namespace DynamicScope

namespace Double

/-- The place to which a place is rounded, however far out it is. -/
def roundUnits (k : Int) : Int := signed (k < 0) (roundRatio k.natAbs 1)

theorem roundUnits_mono {j k : Int} (h : j ≤ k) : roundUnits j ≤ roundUnits k := by
  have larger {m n : Nat} (le : m ≤ n) : roundRatio m 1 ≤ roundRatio n 1 :=
    roundRatio_mono Nat.one_pos Nat.one_pos (Nat.mul_le_mul_right 1 le)
  unfold roundUnits
  by_cases negative : k < 0
  · have before : j < 0 := by omega
    have outer := larger (show k.natAbs ≤ j.natAbs by omega)
    simp only [before, negative, decide_true, signed, if_true]
    omega
  · by_cases before : j < 0
    · simp only [before, negative, decide_true, decide_false, signed, if_true, Bool.false_eq_true,
        if_false]
      omega
    · have outer := larger (show j.natAbs ≤ k.natAbs by omega)
      simp only [before, negative, decide_false, signed, Bool.false_eq_true, if_false]
      omega

theorem roundUnits_signed (negative : Bool) {units : Nat} (rep : Representable units) :
    roundUnits (signed negative units) = signed negative units := by
  have size : (signed negative units).natAbs = units := by
    cases negative <;> simp [signed]
  rw [roundUnits, size, roundRatio_of_representable rep]
  cases negative with
  | false => simp [signed]
  | true =>
    rcases Nat.eq_zero_or_pos units with rfl | positive
    · simp [signed]
    · have below : signed true units < 0 := by
        simp only [signed, if_true]
        omega
      rw [decide_eq_true below]

theorem place?_ofInt? {n : Int} {x : Double} (h : ofInt? n = some x) :
    x.place? = some (.at (roundUnits (n * unitsPerOne))) := by
  have scale : (0 : Int) < unitsPerOne := Int.natCast_pos.mpr unitsPerOne_pos
  have sign : n * unitsPerOne < 0 ↔ n < 0 := by
    refine ⟨fun below => ?_, fun below => Int.mul_neg_of_neg_of_pos below scale⟩
    by_contra above
    exact absurd below (Int.not_lt_of_ge (Int.mul_nonneg (Int.not_lt.mp above) (Int.le_of_lt scale)))
  have size : (n * (unitsPerOne : Int)).natAbs = n.natAbs * unitsPerOne := by
    rw [Int.natAbs_mul, Int.natAbs_natCast]
  unfold ofInt? ofInt ofRatio at h
  split at h
  · cases h
    simp only [roundUnits, sign, size]
    rfl
  · cases h

end Double

namespace Number

variable {m n : Number} {j k : Int}

theorem lessEqual_at (hm : m.place? = some (.at j)) (hn : n.place? = some (.at k)) :
    m.lessEqual n = true ↔ j ≤ k := by
  rw [lessEqual, less, equal, hm, hn, Bool.or_eq_true, Place.less_at, decide_eq_true_iff,
    Place.at.injEq]
  omega

theorem lessEqual_top (h : m ≠ .double .nan) :
    m.lessEqual (.double (.infinity false)) = true := by
  cases m with
  | integer n => rfl
  | double x =>
    cases x with
    | nan => exact absurd rfl h
    | infinity negative => cases negative <;> rfl
    | finite negative units rep => rfl

theorem eq_of_place?_bottom (h : m.place? = some .bottom) : m = .double (.infinity true) := by
  cases m with
  | integer n => cases h
  | double x =>
    cases x with
    | infinity negative =>
      cases negative with
      | true => rfl
      | false => cases h
    | nan | finite => cases h

theorem eq_of_place?_top (h : m.place? = some .top) : m = .double (.infinity false) := by
  cases m with
  | integer n => cases h
  | double x =>
    cases x with
    | infinity negative =>
      cases negative with
      | true => cases h
      | false => rfl
    | nan | finite => cases h

theorem ne_nan_of_lessEqual (h : m.lessEqual n = true) :
    m ≠ .double .nan ∧ n ≠ .double .nan := by
  constructor
  · rintro rfl
    cases h
  · rintro rfl
    revert h
    unfold lessEqual less equal
    cases m.place? <;> nofun

theorem lessEqual_cases (h : m.lessEqual n = true) :
    m = .double (.infinity true) ∨ n = .double (.infinity false) ∨
      ∃ j k, m.place? = some (.at j) ∧ n.place? = some (.at k) ∧ j ≤ k := by
  cases hm : m.place? with
  | none => simp [lessEqual, less, equal, hm] at h
  | some p =>
    cases hn : n.place? with
    | none => simp [lessEqual, less, equal, hm, hn] at h
    | some q =>
      cases p with
      | bottom => exact .inl (eq_of_place?_bottom hm)
      | top =>
        cases q with
        | top => exact .inr (.inl (eq_of_place?_top hn))
        | _ => simp [lessEqual, less, equal, hm, hn, Place.less] at h
      | «at» j =>
        cases q with
        | bottom => simp [lessEqual, less, equal, hm, hn, Place.less] at h
        | top => exact .inr (.inl (eq_of_place?_top hn))
        | «at» k => exact .inr (.inr ⟨j, k, rfl, rfl, (lessEqual_at hm hn).mp h⟩)

theorem place?_toDouble {x : Double} (hm : m.place? = some (.at k)) (converted : m.toDouble = .ok x) :
    x.place? = some (.at (Double.roundUnits k)) := by
  cases m with
  | double x =>
    cases converted
    cases x with
    | nan => cases hm
    | infinity negative => cases negative <;> cases hm
    | finite negative units rep =>
      cases hm
      rw [Double.roundUnits_signed negative rep]
      rfl
  | integer n =>
    cases hm
    rw [toDouble] at converted
    cases found : Double.ofInt? n with
    | none =>
      rw [found] at converted
      cases converted
    | some y =>
      rw [found] at converted
      cases converted
      exact Double.place?_ofInt? found

end Number

end DynamicScope
