import DynamicScope.Double.Text

/-!
Numbers: doubles, and integers of any size. Comparison is exact, by the place of a number on the
line from minus to plus infinity, also between an integer and a double.
-/

namespace DynamicScope

inductive Number
  | double (x : Double)
  | integer (n : Int)
  deriving DecidableEq

def integerDigitLimit : Nat := 4300

/-- A place on the line from minus to plus infinity, in units. -/
inductive Place
  | bottom
  | at (units : Int)
  | top
  deriving DecidableEq

namespace Place

def less : Place → Place → Bool
  | .bottom, .bottom => false
  | .bottom, _ => true
  | .at m, .at n => m < n
  | .at _, .top => true
  | _, _ => false

theorem less_at (m n : Int) : less (.at m) (.at n) = true ↔ m < n := decide_eq_true_iff

end Place

/-- The place of a double; NaN has none. -/
def Double.place? : Double → Option Place
  | .nan => none
  | .infinity negative => some (if negative then .bottom else .top)
  | .finite negative units _ => some (.at (signed negative units))

inductive NumberError
  | integerTooLarge
  | quotientTooLarge
  | remainderUndefined
  deriving DecidableEq

namespace Number

def place? : Number → Option Place
  | .double x => x.place?
  | .integer n => some (.at (n * unitsPerOne))

def equal (a b : Number) : Bool :=
  match a.place?, b.place? with
  | some p, some q => p = q
  | _, _ => false

def less (a b : Number) : Bool :=
  match a.place?, b.place? with
  | some p, some q => p.less q
  | _, _ => false

def lessEqual (a b : Number) : Bool := a.less b || a.equal b

def isZero (a : Number) : Bool := a.equal (.integer 0)

def toDouble : Number → Except NumberError Double
  | .double x => .ok x
  | .integer n => (Double.ofInt? n).elim (.error .integerTooLarge) .ok

/-- Neither zero nor NaN. An integer is looked at as a double, so it has to be within the range. -/
def isTrue (a : Number) : Except NumberError Bool :=
  if a.isZero then .ok false else return !(← a.toDouble).isNaN

def negate : Number → Number
  | .double x => .double x.negate
  | .integer n => .integer (-n)

/-- An operation that is exact on integers and otherwise works on doubles. -/
def mixed (onIntegers : Int → Int → Int) (onDoubles : Double → Double → Double) :
    Number → Number → Except NumberError Number
  | .integer m, .integer n => .ok (.integer (onIntegers m n))
  | a, b => do
    let x ← a.toDouble
    let y ← b.toDouble
    return .double (onDoubles x y)

def add : Number → Number → Except NumberError Number := mixed (· + ·) Double.add

def sub : Number → Number → Except NumberError Number := mixed (· - ·) Double.sub

def mul : Number → Number → Except NumberError Number := mixed (· * ·) Double.mul

def integerQuotient (m n : Int) : Except NumberError Number :=
  match Double.ofRatio (decide (m < 0) != decide (n < 0)) (m.natAbs * unitsPerOne) n.natAbs with
  | .infinity _ => .error .quotientTooLarge
  | x => .ok (.double x)

def div : Number → Number → Except NumberError Number
  | .integer m, .integer n => integerQuotient m n
  | a, b => do
    let x ← a.toDouble
    let y ← b.toDouble
    return .double (x.div y)

/-- The remainder of doubles, undefined for an infinite dividend and for the divisor zero unless the
other operand is NaN. -/
def rem (a b : Number) : Except NumberError Number := do
  let x ← a.toDouble
  let y ← b.toDouble
  if (x.isInfinite && !y.isNaN) || (y.isZero && !x.isNaN) then .error .remainderUndefined
  else .ok (.double (x.rem y))

/-- The exact value of a number that is an integer. -/
def toInt? : Number → Option Int
  | .double x => x.toInt?
  | .integer n => some n

end Number

end DynamicScope
