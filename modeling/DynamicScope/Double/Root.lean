import DynamicScope.Double.Arithmetic

/-!
Square root and Euclidean norm, each rounded once from an exact integer square root. One extra bit
of the root, and a last bit that says whether the root is inexact, decide the rounding.
-/

namespace DynamicScope.Double

/-- The integer square root, one binary digit per step. -/
def rootSteps : Nat → Nat → Nat
  | 0, _ => 0
  | steps + 1, n =>
    let root := 2 * rootSteps steps (n / 4)
    if (root + 1) * (root + 1) ≤ n then root + 1 else root

def integerRoot (n : Nat) : Nat := rootSteps (n.log2 / 2 + 1) n

/-- The double nearest to the square root of `n`, taken in units. -/
def ofRoot (n : Nat) : Double :=
  let root := integerRoot (n * Nat.pow 2 128)
  let inexact := if root * root = n * Nat.pow 2 128 then 0 else 1
  ofRatio false (2 * root + inexact) (Nat.pow 2 65)

def sqrt : Double → Double
  | .nan => .nan
  | .infinity negative => if negative then .nan else .infinity false
  | .finite negative units h =>
    if units = 0 then .finite negative units h
    else if negative then .nan
    else ofRoot (units * unitsPerOne)

/-- The square root of the sum of squares: infinite as soon as one term is, else NaN as soon as one
term is. -/
def hypot (xs : List Double) : Double :=
  if xs.any isInfinite then .infinity false
  else if xs.any isNaN then .nan
  else ofRoot ((xs.filterMap units?).foldr (fun n total => n.natAbs * n.natAbs + total) 0)

end DynamicScope.Double
