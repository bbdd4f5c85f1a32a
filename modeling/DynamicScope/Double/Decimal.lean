import DynamicScope.Double.Arithmetic

/-!
Decimal numerals and doubles. `Decimal.toDouble` rounds a numeral to the nearest double, and
`Double.shortest` is a numeral of fewest digits that rounds back, so that reading what was written
gives the double again.
-/

namespace DynamicScope

structure Decimal where
  digits : Nat
  exponent : Int
  deriving DecidableEq

namespace Decimal

def ratio (d : Decimal) : Nat × Nat :=
  match d.exponent with
  | .ofNat k => (d.digits * unitsPerOne * Nat.pow 10 k, 1)
  | .negSucc k => (d.digits * unitsPerOne, Nat.pow 10 (k + 1))

/-- The nearest double. Numerals far beyond the doubles are not computed: from 10^401 on they are
infinite, and below 2^-1100 they are zero. -/
def toDouble (negative : Bool) (d : Decimal) : Double :=
  if d.digits = 0 then .zero negative
  else if d.exponent > 400 then .infinity negative
  else if d.exponent + d.digits.log2 + 1100 < 0 then .zero negative
  else .ofRatio negative d.ratio.1 d.ratio.2

end Decimal

namespace Double

def overPowerOfTen (units : Nat) : Int → Nat × Nat
  | .ofNat k => (units, unitsPerOne * Nat.pow 10 k)
  | .negSucc k => (units * Nat.pow 10 (k + 1), unitsPerOne)

def readsBack (units : Nat) (d : Decimal) : Bool :=
  match d.toDouble false with
  | .finite _ n _ => n == units
  | _ => false

/-- The multiple of `10^place` that rounds to the magnitude, if one of its two neighbours does: the
nearer one if both do, and of two equally near ones the even one. -/
def onGrid? (units : Nat) (place : Int) : Option Decimal :=
  let (num, den) := overPowerOfTen units place
  let below : Decimal := ⟨num / den, place⟩
  let above : Decimal := ⟨num / den + 1, place⟩
  match readsBack units below, readsBack units above with
  | true, true => some ⟨roundHalfEven num den, place⟩
  | true, false => some below
  | false, true => some above
  | false, false => none

/-- The exponent of the leading decimal digit. The factor is a little less than the decimal
logarithm of two, and no double is close enough to a power of ten to show the difference. -/
def leadingPlace (units : Nat) : Int :=
  let estimate := ((units.log2 : Int) - 1074) * 78913 / 262144
  let (num, den) := overPowerOfTen units (estimate + 1)
  if den ≤ num then estimate + 1 else estimate

def expansion (units : Nat) : Decimal := ⟨units * Nat.pow 5 1074, -1074⟩

/-- The numeral of fewest digits, up to 17, that rounds to the magnitude. -/
def shortest (units : Nat) : Decimal :=
  let leading := leadingPlace units
  ((List.range 17).findSome? fun (n : Nat) => onGrid? units (leading - n)).getD (expansion units)

end Double

end DynamicScope
