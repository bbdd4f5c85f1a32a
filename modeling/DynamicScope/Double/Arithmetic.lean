import DynamicScope.Double.Basic

/-!
Arithmetic on doubles: each operation computes the exact result on units and rounds once. The
special values follow IEEE 754: NaN is contagious, opposite infinities cancel to NaN, a zero sum of
nonzero terms is positive, and a product or quotient carries the product of the signs.
-/

namespace DynamicScope.Double

def negate : Double → Double
  | .nan => .nan
  | .infinity negative => .infinity (!negative)
  | .finite negative units h => .finite (!negative) units h

def signed (negative : Bool) (units : Nat) : Int :=
  if negative then -(units : Int) else units

def add : Double → Double → Double
  | .nan, _ => .nan
  | _, .nan => .nan
  | .infinity a, .infinity b => if a = b then .infinity a else .nan
  | .infinity a, .finite .. => .infinity a
  | .finite .., .infinity b => .infinity b
  | .finite a m _, .finite b n _ =>
    let sum := signed a m + signed b n
    if sum = 0 then zero (a && b) else ofRatio (sum < 0) sum.natAbs 1

def sub (x y : Double) : Double := add x (negate y)

def mul : Double → Double → Double
  | .nan, _ => .nan
  | _, .nan => .nan
  | .infinity a, .infinity b => .infinity (a != b)
  | .infinity a, .finite b n _ => if n = 0 then .nan else .infinity (a != b)
  | .finite a m _, .infinity b => if m = 0 then .nan else .infinity (a != b)
  | .finite a m _, .finite b n _ => ofRatio (a != b) (m * n) unitsPerOne

def div : Double → Double → Double
  | .nan, _ => .nan
  | _, .nan => .nan
  | .infinity _, .infinity _ => .nan
  | .infinity a, .finite b _ _ => .infinity (a != b)
  | .finite a _ _, .infinity b => zero (a != b)
  | .finite a m _, .finite b n _ =>
    if n = 0 then
      if m = 0 then .nan else .infinity (a != b)
    else ofRatio (a != b) (m * unitsPerOne) n

/-- The remainder of truncated division, which has the sign of the dividend. -/
def rem : Double → Double → Double
  | .nan, _ => .nan
  | _, .nan => .nan
  | .infinity _, _ => .nan
  | .finite a m h, .infinity _ => .finite a m h
  | .finite a m _, .finite _ n _ =>
    if n = 0 then .nan else ofRatio a (m % n) 1

end DynamicScope.Double
