import DynamicScope.Failure

/-!
Values. Numbers, booleans and the undefined value are what they say; an array or a function also has
an identity, which tells it from every other one. Texts and nothing only enter from outside.
-/

namespace DynamicScope

inductive MathFunction
  | sqrt
  | sin
  | cos
  | ln
  | exp
  | hypot
  deriving DecidableEq

namespace MathFunction

def name : MathFunction → String
  | .sqrt => "sqrt"
  | .sin => "sin"
  | .cos => "cos"
  | .ln => "ln"
  | .exp => "exp"
  | .hypot => "hypot"

def arity : MathFunction → Option Nat
  | .hypot => none
  | _ => some 1

def all : List MathFunction := [.sqrt, .sin, .cos, .ln, .exp, .hypot]

end MathFunction

/-- A function that is not written in the language: one of the library, or a native one, which has a
place in the list of natives. -/
inductive Builtin
  | math (f : MathFunction)
  | native (name : String) (arity : Option Nat) (index : Nat)
  deriving DecidableEq

namespace Builtin

def name : Builtin → String
  | .math f => f.name
  | .native name _ _ => name

def arity : Builtin → Option Nat
  | .math f => f.arity
  | .native _ arity _ => arity

end Builtin

inductive Value
  | number (n : Number)
  | boolean (b : Bool)
  | array (identity : Nat) (items : List Value)
  | builtin (identity : Nat) (f : Builtin)
  /-- A function of the language: its parameters and its body, and no environment. -/
  | function (identity : Nat) (parameters body : Ast)
  | undefined
  | text (s : String)
  | nothing

namespace Value

instance : Inhabited Value := ⟨.undefined⟩

def double (x : Double) : Value := .number (.double x)

def kind : Value → Kind
  | .number _ => .number
  | .boolean _ => .boolean
  | .array .. => .array
  | .builtin .. => .function
  | .function .. => .function
  | .undefined => .undefined
  | .text _ => .text
  | .nothing => .nothing

def className : Value → String
  | .number (.double _) => "float"
  | .number (.integer _) => "int"
  | .boolean _ => "bool"
  | .array .. => "list"
  | .builtin .. => "BuiltinFunction"
  | .function .. => "UserFunction"
  | .undefined => "Undefined"
  | .text _ => "str"
  | .nothing => "NoneType"

/-- Whether a name bound to the value counts as bound. -/
def isPresent : Value → Bool
  | .undefined => false
  | .nothing => false
  | _ => true

def liftNumber {α : Type} : Except NumberError α → Except Failure α
  | .ok a => .ok a
  | .error e => .error (.number e)

/-- Truth: false, zero, NaN and the undefined value are false. -/
def isTrue : Value → Except Failure Bool
  | .boolean b => .ok b
  | .number n => liftNumber n.isTrue
  | .undefined => .ok false
  | _ => .ok true

/-- Equality of values of the same kind: arrays and functions by identity, all others by value. -/
def equal : Value → Value → Bool
  | .number a, .number b => a.equal b
  | .boolean a, .boolean b => a = b
  | .array a _, .array b _ => a = b
  | .builtin a _, .builtin b _ => a = b
  | .function a _ _, .function b _ _ => a = b
  | .undefined, .undefined => true
  | .text a, .text b => a = b
  | .nothing, .nothing => true
  | _, _ => false

end Value

end DynamicScope
