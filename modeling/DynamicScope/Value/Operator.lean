import DynamicScope.Value.Basic

/-!
Operators on values, and reading an element of an array. An operator is written as a document; only
some strings are operators.
-/

namespace DynamicScope

inductive Arithmetic
  | add
  | sub
  | mul
  | div
  | rem
  deriving DecidableEq

inductive Comparison
  | less
  | lessEqual
  | greater
  | greaterEqual
  deriving DecidableEq

inductive BinaryOperator
  | arithmetic (op : Arithmetic)
  | comparison (op : Comparison)
  | equal
  | unequal
  | both
  | either
  deriving DecidableEq

namespace BinaryOperator

def symbols : List (String × BinaryOperator) :=
  [("+", .arithmetic .add), ("-", .arithmetic .sub), ("*", .arithmetic .mul),
    ("/", .arithmetic .div), ("%", .arithmetic .rem), ("<", .comparison .less),
    ("<=", .comparison .lessEqual), (">", .comparison .greater),
    (">=", .comparison .greaterEqual), ("==", .equal), ("!=", .unequal), ("&&", .both),
    ("||", .either)]

def ofSymbol? (symbol : String) : Option BinaryOperator := symbols.lookup symbol

end BinaryOperator

namespace Arithmetic

def divides : Arithmetic → Bool
  | .div => true
  | .rem => true
  | _ => false

def apply : Arithmetic → Number → Number → Except NumberError Number
  | .add => Number.add
  | .sub => Number.sub
  | .mul => Number.mul
  | .div => Number.div
  | .rem => Number.rem

end Arithmetic

def Comparison.apply : Comparison → Number → Number → Bool
  | .less, a, b => a.less b
  | .lessEqual, a, b => a.lessEqual b
  | .greater, a, b => b.less a
  | .greaterEqual, a, b => b.lessEqual a

namespace Value

def fault {α : Type} (f : Fault) : Except Failure α := .error f.raised

def numericOperands (symbol : String) : Value → Value → Except Failure (Number × Number)
  | .number m, .number n => .ok (m, n)
  | a, b => fault (.operandKinds symbol a.kind b.kind)

def equalOperands (symbol : String) (a b : Value) : Except Failure Bool :=
  if a.kind = b.kind then .ok (a.equal b) else fault (.operandKinds symbol a.kind b.kind)

def applyOperator (symbol : String) (a b : Value) : BinaryOperator → Except Failure Value
  | .arithmetic op => do
    let (m, n) ← numericOperands symbol a b
    if op.divides && n.isZero then fault (.divisionByZero symbol)
    else return .number (← liftNumber (op.apply m n))
  | .comparison op => do
    let (m, n) ← numericOperands symbol a b
    return .boolean (op.apply m n)
  | .equal => do return .boolean (← equalOperands symbol a b)
  | .unequal => do return .boolean !(← equalOperands symbol a b)
  | .both => do if ← a.isTrue then return .boolean (← b.isTrue) else return .boolean false
  | .either => do if ← a.isTrue then return .boolean true else return .boolean (← b.isTrue)

def binary (operator : Json) (a b : Value) : Except Failure Value :=
  match operator with
  | .scalar (.string (.proper symbol)) =>
    match BinaryOperator.ofSymbol? symbol with
    | some op => applyOperator symbol a b op
    | none => fault (.binaryOperator operator)
  | .scalar _ => fault (.binaryOperator operator)
  | document => .error (.notAName document.className)

def unary (operator : Json) (operand : Value) : Except Failure Value :=
  match operator with
  | .scalar (.string (.proper "-")) =>
    match operand with
    | .number n => .ok (.number n.negate)
    | value => fault (.negatedKind value.kind)
  | .scalar (.string (.proper "!")) => do return .boolean !(← operand.isTrue)
  | operator => fault (.unaryOperator operator)

/-- The element at a number, undefined unless the number is the place of an element. -/
def element (items : List Value) (index : Number) : Value :=
  match index.toInt? with
  | some (.ofNat k) => items.getD k .undefined
  | _ => .undefined

/-- The element at an index, where a boolean counts as zero or one. -/
def elementAt (items : List Value) : Value → Except Failure Value
  | .number n => .ok (element items n)
  | .boolean b => .ok (element items (.integer (if b then 1 else 0)))
  | value => .error (.notAnIndex value.className)

def subscript : Value → Value → Except Failure Value
  | .array _ items, .number index => .ok (element items index)
  | target, index => fault (.subscript target.kind index.kind)

end Value

end DynamicScope
