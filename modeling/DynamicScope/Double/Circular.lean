import DynamicScope.Double.Arithmetic

/-!
Sine and cosine in fixed-point arithmetic, rounded once at the end. The fractional part is long
enough to reduce the largest double by the quarter turn and to hold the smallest double exactly.
-/

namespace DynamicScope.Double

def pi : Double := .finite false (884279719003555 * Nat.pow 2 1026) (by decide +kernel)

def angleBits : Nat := 1500

def angleOne : Nat := Nat.pow 2 angleBits

/-- The alternating sum of the powers of a reciprocal over the odd numbers from `odd` on. -/
def arctangentTerms : Nat → Nat → Nat → Nat → Int
  | 0, _, _, _ => 0
  | steps + 1, reciprocal, power, odd =>
    (power / odd : Nat) -
      arctangentTerms steps reciprocal (power / (reciprocal * reciprocal)) (odd + 2)

def arctangent (reciprocal : Nat) : Int :=
  arctangentTerms 330 reciprocal (angleOne / reciprocal) 1

/-- The quarter turn π/2, by Machin's formula. -/
def quarterTurn : Nat := (2 * (4 * arctangent 5 - arctangent 239)).toNat

/-- The alternating sum of Taylor terms whose factorials end at `index`, every second one. -/
def circularTerms : Nat → Nat → Nat → Nat → Int
  | 0, _, _, _ => 0
  | steps + 1, square, term, index =>
    (term : Int) - circularTerms steps square
      (term * square / angleOne / ((index + 1) * (index + 2))) (index + 2)

def quarterSine (angle : Nat) : Int :=
  circularTerms 90 (angle * angle / angleOne) angle 1

def quarterCosine (angle : Nat) : Int :=
  circularTerms 90 (angle * angle / angleOne) angleOne 0

def fixedSine (angle : Nat) : Int :=
  let rest := angle % quarterTurn
  match angle / quarterTurn % 4 with
  | 0 => quarterSine rest
  | 1 => quarterCosine rest
  | 2 => -quarterSine rest
  | _ => -quarterCosine rest

def fixedCosine (angle : Nat) : Int :=
  let rest := angle % quarterTurn
  match angle / quarterTurn % 4 with
  | 0 => quarterCosine rest
  | 1 => -quarterSine rest
  | 2 => -quarterCosine rest
  | _ => quarterSine rest

/-- A magnitude as a fixed-point angle, which is exact. -/
def fixedAngle (units : Nat) : Nat := units * Nat.pow 2 (angleBits - 1074)

def ofFixed (negative : Bool) (value : Int) : Double :=
  ofRatio (negative != decide (value < 0)) (value.natAbs * unitsPerOne) angleOne

def sin : Double → Double
  | .nan => .nan
  | .infinity _ => .nan
  | .finite negative units _ => ofFixed negative (fixedSine (fixedAngle units))

def cos : Double → Double
  | .nan => .nan
  | .infinity _ => .nan
  | .finite _ units _ => ofFixed false (fixedCosine (fixedAngle units))

end DynamicScope.Double
