import DynamicScope.Number.Basic
import DynamicScope.Proofs.Double.Rounding

/-! Numbers of one place as doubles.
An integer that is equal to a double is rounded to that double. So equal numbers become one double, but
for the zeros, which are two; NaN is equal to nothing. -/

namespace DynamicScope

namespace Double

def Definite (x : Double) : Prop := x ≠ .nan ∧ x ≠ .zero true

variable {negative negative' : Bool} {units units' : Nat}

theorem Definite.positive {rep : Representable units} (h : (finite negative units rep).Definite) :
    units = 0 → negative = false := by
  rintro rfl
  cases negative with
  | false => rfl
  | true => exact absurd rfl h.2

theorem signed_inj (h : units = 0 → negative = false) (h' : units' = 0 → negative' = false)
    (same : signed negative units = signed negative' units') :
    negative = negative' ∧ units = units' := by
  cases negative <;> cases negative' <;> simp [signed] at same h h' ⊢ <;> omega

theorem signed_natAbs_mul (n : Int) (k : Nat) :
    signed (decide (n < 0)) (n.natAbs * k) = n * k := by
  by_cases below : n < 0
  · have size : (n.natAbs : Int) = -n := by omega
    rw [decide_eq_true below, signed, if_pos rfl, Int.natCast_mul, size, Int.neg_mul, Int.neg_neg]
  · have size : (n.natAbs : Int) = n := by omega
    rw [decide_eq_false below, signed, if_neg Bool.false_ne_true, Int.natCast_mul, size]

theorem ofInt?_of_signed {n : Int} {rep : Representable units}
    (definite : (finite negative units rep).Definite) (same : signed negative units = n * unitsPerOne) :
    ofInt? n = some (.finite negative units rep) := by
  have zero : n.natAbs * unitsPerOne = 0 → decide (n < 0) = false := fun h => by
    have size := (Nat.mul_eq_zero.mp h).resolve_right (Nat.ne_of_gt unitsPerOne_pos)
    exact decide_eq_false (by omega)
  obtain ⟨sign, size⟩ :=
    signed_inj definite.positive zero (same.trans (signed_natAbs_mul n unitsPerOne).symm)
  have rounded : ofInt n = .finite negative units rep := by
    rw [ofInt, ← sign, ← size]
    exact ofRatio_of_roundRatio _ (roundRatio_of_representable rep) rep
  rw [ofInt?, rounded]
  rfl

theorem eq_of_place? {x y : Double} (hx : x.Definite) (hy : y.Definite)
    (h : x.place? = y.place?) : x = y := by
  cases x with
  | nan => exact absurd rfl hx.1
  | infinity negative =>
    cases y with
    | infinity negative' => cases negative <;> cases negative' <;> first | rfl | cases h
    | _ => cases negative <;> cases h
  | finite negative units rep =>
    cases y with
    | finite negative' units' rep' =>
      obtain ⟨rfl, rfl⟩ := signed_inj hx.positive hy.positive (Place.at.inj (Option.some.inj h))
      rfl
    | infinity negative' => cases negative' <;> cases h
    | nan => cases h

end Double

namespace Number

def Definite : Number → Prop
  | .double x => x.Definite
  | .integer _ => True

theorem toDouble_integer_of_place? {n : Int} {x : Double} (definite : x.Definite)
    (same : x.place? = (integer n).place?) : (integer n).toDouble = .ok x := by
  cases x with
  | nan => exact absurd rfl definite.1
  | infinity negative => cases negative <;> cases same
  | finite negative units rep =>
    have value : Double.signed negative units = n * (unitsPerOne : Int) :=
      Place.at.inj (Option.some.inj same)
    rw [toDouble, Double.ofInt?_of_signed definite value]
    rfl

theorem toDouble_eq_of_place? {m n : Number} (hm : m.Definite) (hn : n.Definite)
    (same : m.place? = n.place?) : m.toDouble = n.toDouble := by
  cases m with
  | double x =>
    cases n with
    | double y => rw [Double.eq_of_place? hm hn same]
    | integer k => exact (toDouble_integer_of_place? hm same).symm
  | integer j =>
    cases n with
    | double y => exact toDouble_integer_of_place? hn same.symm
    | integer k =>
      have units : j * (unitsPerOne : Int) = k * unitsPerOne := Place.at.inj (Option.some.inj same)
      rw [Int.eq_of_mul_eq_mul_right (Int.ne_of_gt (Int.natCast_pos.mpr unitsPerOne_pos)) units]

end Number

end DynamicScope
