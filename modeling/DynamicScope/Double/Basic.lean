/-!
Double-precision numbers as exact values. A finite double is a sign and a natural number of units,
one unit being 2^-1074, the smallest positive double; so sums, products and comparisons are exact
integer arithmetic, and rounding is one function on natural numbers. `ofRatio` is that rounding:
to the nearest double, ties to the even significand, and infinity beyond the largest double.
-/

namespace DynamicScope

/-- The number of units in one, 2^1074. -/
def unitsPerOne : Nat := Nat.pow 2 1074

def unitsBound : Nat := Nat.pow 2 2098

/-- The magnitudes of finite doubles: below 2^1024 and of at most 53 significant bits. -/
def Representable (units : Nat) : Prop :=
  units < unitsBound ∧ Nat.pow 2 (units.log2 - 52) ∣ units

instance (units : Nat) : Decidable (Representable units) :=
  inferInstanceAs (Decidable (_ ∧ _))

/-- A double. There is one NaN, since no operation here tells two of them apart. -/
inductive Double
  | nan
  | infinity (negative : Bool)
  | finite (negative : Bool) (units : Nat) (representable : Representable units)
  deriving DecidableEq

namespace Double

theorem representable_zero : Representable 0 := by decide +kernel

def zero (negative : Bool) : Double := .finite negative 0 representable_zero

instance : Inhabited Double := ⟨zero false⟩

def roundHalfEven (num den : Nat) : Nat :=
  let low := num / den
  let twice := 2 * (num % den)
  if twice < den then low
  else if den < twice then low + 1
  else if low % 2 = 0 then low
  else low + 1

/-- The exponent of the last of 53 significant bits of `num / den`. -/
def lastPlace (num den : Nat) : Nat := (num / den).log2 - 52

/-- `num / den` to 53 significant bits, but to no finer place than a unit. -/
def roundRatio (num den : Nat) : Nat :=
  roundHalfEven num (den * Nat.pow 2 (lastPlace num den)) * Nat.pow 2 (lastPlace num den)

theorem roundHalfEven_le (num den : Nat) : roundHalfEven num den ≤ num / den + 1 := by
  simp only [roundHalfEven]
  split
  · omega
  · split
    · omega
    · split <;> omega

theorem roundHalfEven_place_le (num den : Nat) :
    roundHalfEven num (den * Nat.pow 2 (lastPlace num den)) ≤ Nat.pow 2 53 := by
  have below : num / den < Nat.pow 2 ((num / den).log2 + 1) := Nat.lt_log2_self
  refine Nat.le_trans (roundHalfEven_le _ _) (Nat.succ_le_of_lt ?_)
  simp only [Nat.pow_eq] at below ⊢
  rw [← Nat.div_div_eq_div_mul, Nat.div_lt_iff_lt_mul (Nat.two_pow_pos _), ← Nat.pow_add]
  refine Nat.lt_of_lt_of_le below (Nat.pow_le_pow_right (by decide) ?_)
  simp only [lastPlace]
  omega

theorem dvd_of_le_two_pow (significand place : Nat) (h : significand ≤ Nat.pow 2 53) :
    Nat.pow 2 ((significand * Nat.pow 2 place).log2 - 52) ∣ significand * Nat.pow 2 place := by
  simp only [Nat.pow_eq] at h ⊢
  by_cases zero : significand = 0
  · simp [zero]
  rcases Nat.eq_or_lt_of_le h with top | less
  · rw [top, ← Nat.pow_add, Nat.log2_two_pow]
    exact Nat.pow_dvd_pow 2 (by omega)
  · refine Nat.dvd_trans (Nat.pow_dvd_pow 2 ?_) (Nat.dvd_mul_left _ _)
    have bits := (Nat.log2_lt (Nat.mul_ne_zero zero (Nat.ne_of_gt (Nat.two_pow_pos place)))).2
      (Nat.pow_add 2 53 place ▸ Nat.mul_lt_mul_of_pos_right less (Nat.two_pow_pos place))
    omega

theorem roundRatio_dvd (num den : Nat) :
    Nat.pow 2 ((roundRatio num den).log2 - 52) ∣ roundRatio num den :=
  dvd_of_le_two_pow _ _ (roundHalfEven_place_le num den)

/-- The double nearest to `num / den` units, with the given sign. -/
def ofRatio (negative : Bool) (num den : Nat) : Double :=
  if h : roundRatio num den < unitsBound then
    .finite negative (roundRatio num den) ⟨h, roundRatio_dvd num den⟩
  else .infinity negative

def ofInt (n : Int) : Double := ofRatio (n < 0) (n.natAbs * unitsPerOne) 1

def bounded? : Double → Option Double
  | .infinity _ => none
  | d => some d

def ofInt? (n : Int) : Option Double := (ofInt n).bounded?

def isNaN : Double → Bool
  | .nan => true
  | _ => false

def isInfinite : Double → Bool
  | .infinity _ => true
  | _ => false

def isZero : Double → Bool
  | .finite _ 0 _ => true
  | _ => false

def units? : Double → Option Int
  | .finite negative units _ => some (if negative then -(units : Int) else units)
  | _ => none

def toInt? : Double → Option Int
  | .finite negative units _ =>
    if units % unitsPerOne = 0 then
      some (if negative then -((units / unitsPerOne : Nat) : Int) else (units / unitsPerOne : Nat))
    else none
  | _ => none

end Double

end DynamicScope
