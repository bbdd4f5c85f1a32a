import DynamicScope.Double.Arithmetic

/-!
The exponential function and the natural logarithm in fixed-point arithmetic on natural numbers,
rounded once at the end.

The exponential halves its argument 24 times, sums Taylor terms, and squares 24 times. All of its
steps are monotone on natural numbers, and negative arguments go through the reciprocal, so the
rounded function is monotone as well. The logarithm splits off the power of two and sums the
series of the inverse hyperbolic tangent.
-/

namespace DynamicScope.Double

def fractionBits : Nat := 448

def fixedOne : Nat := Nat.pow 2 fractionBits

/-- The Taylor terms of the exponential at `y` from the `index`-th on, which is `term`. -/
def exponentialTerms : Nat → Nat → Nat → Nat → Nat
  | 0, _, _, _ => 0
  | steps + 1, y, term, index =>
    term + exponentialTerms steps y (term * y / fixedOne / (index + 1)) (index + 1)

def squareRepeatedly : Nat → Nat → Nat
  | 0, z => z
  | steps + 1, z => squareRepeatedly steps (z * z / fixedOne)

def fixedExponential (units : Nat) : Nat :=
  squareRepeatedly 24 (exponentialTerms 32 (units * fixedOne / (unitsPerOne * Nat.pow 2 24)) fixedOne 0)

/-- The magnitudes from which on the exponential is beyond the doubles, upwards or downwards. -/
def exponentialLimit : Nat := 1024 * unitsPerOne

def exp : Double → Double
  | .nan => .nan
  | .infinity negative => if negative then zero false else .infinity false
  | .finite false units _ =>
    if units < exponentialLimit then ofRatio false (fixedExponential units * unitsPerOne) fixedOne
    else .infinity false
  | .finite true units _ =>
    if units < exponentialLimit then ofRatio false (fixedOne * unitsPerOne) (fixedExponential units)
    else zero false

/-- The odd powers `power`, `power * square`, … over the odd numbers from `odd` on, summed. -/
def oddPowerTerms : Nat → Nat → Nat → Nat → Nat
  | 0, _, _, _ => 0
  | steps + 1, square, power, odd =>
    power / odd + oddPowerTerms steps square (power * square / fixedOne) (odd + 2)

/-- Twice the inverse hyperbolic tangent of `num / den`, the logarithm of
`(den + num) / (den - num)`, for a ratio of at most one third. -/
def fixedLogarithm (num den : Nat) : Nat :=
  let ratio := num * fixedOne / den
  2 * oddPowerTerms 150 (ratio * ratio / fixedOne) ratio 1

/-- The natural logarithm: NaN below zero and minus infinity at both zeros. -/
def ln : Double → Double
  | .nan => .nan
  | .infinity negative => if negative then .nan else .infinity false
  | .finite negative units _ =>
    if units = 0 then .infinity true
    else if negative then .nan
    else
      let power := Nat.pow 2 units.log2
      let twos : Int := (units.log2 : Int) - 1074
      let sum : Int := twos * fixedLogarithm 1 3 + fixedLogarithm (units - power) (units + power)
      ofRatio (sum < 0) (sum.natAbs * unitsPerOne) fixedOne

end DynamicScope.Double
