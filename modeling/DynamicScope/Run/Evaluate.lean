import DynamicScope.Number.Reader
import DynamicScope.Run.Machine
import DynamicScope.Value.Display
import DynamicScope.Value.Operator

/-!
Evaluation of expressions. A function has no environment of its own: its body is evaluated in a copy
of the caller's environment, overlaid by the parameters. Evaluation recurs on the tree; only entering
a body takes from the number of nested calls that are left.
-/

namespace DynamicScope

def Json.numeralValue (value : Json) : Except Failure Double :=
  match value with
  | .scalar (.number n) => Value.liftNumber n.toDouble
  | .scalar (.bool b) => Value.liftNumber (Number.integer (if b then 1 else 0)).toDouble
  | .scalar (.string t) =>
    match t.string?.bind fun s => Reading.double? s.toList with
    | some x => .ok x
    | none => .error (.numeralText t)
  | document => .error (.numeralClass document.className)

def Setup.callBuiltin (setup : Setup) (f : Builtin) (arguments : List Value) : Machine Value := do
  match f with
  | .math f => Machine.lift (f.apply arguments)
  | .native _ _ index =>
    match setup.natives[index]? with
    | some (_, native) =>
      let w ← get
      let (value, used) ← Machine.lift (native.apply w.nextIdentity arguments)
      let _ ← Machine.freshIdentities used
      return value
    | none => return .undefined

/-- How the body of a function is evaluated in the environment made for it. -/
abbrev BodyEvaluator := EnvRef → Ast → Machine Value

/-- The environment of a call: the caller's, overlaid by the parameters. -/
def callEnvironment (name : Json) (parameters : Ast) (arguments : List Value) (env : EnvRef) :
    Machine EnvRef := do
  let expected ← Machine.lift parameters.count?
  if arguments.length = expected then
    let names ← Machine.lift parameters.parameterNames
    let keys ← Machine.lift (names.mapM Name.ofJson?)
    Machine.merged env (keys.zip arguments)
  else Machine.fault (.arity name expected arguments.length)

def Setup.call (setup : Setup) (enter : BodyEvaluator) (name : Json) (f : Value)
    (arguments : List Value) (env : EnvRef) : Machine Value := do
  Machine.record setup 2 fun _ => do
    return .call (← name.plainText) (← Value.toTextAll arguments)
  match f with
  | .builtin _ f => setup.callBuiltin f arguments
  | .function _ parameters body =>
    let inner ← callEnvironment name parameters arguments env
    enter inner body
  | value => Machine.fault (.notAFunction name value.kind)

mutual

/-- The value of an expression, where `enter` evaluates the bodies of functions. -/
def Setup.evaluateWith (setup : Setup) (enter : BodyEvaluator) (env : EnvRef) :
    Ast → Machine Value
  | .numeral value => do return .double (← Machine.lift value.numeralValue)
  | .booleanLiteral b => return .boolean b
  | .identifier name => Machine.read env name
  | .unary operator expression => do
    let operand ← setup.evaluateWith enter env expression
    Machine.lift (Value.unary operator operand)
  | .binary operator left right => do
    let a ← setup.evaluateWith enter env left
    let b ← setup.evaluateWith enter env right
    Machine.record setup 3 fun _ => do
      return .binary (← a.toText) (← operator.plainText) (← b.toText)
    Machine.lift (Value.binary operator a b)
  | .conditional test consequent alternate => do
    let value ← setup.evaluateWith enter env test
    if ← Machine.lift value.isTrue then setup.evaluateWith enter env consequent
    else setup.evaluateWith enter env alternate
  | .arrayLiteral elements => do
    let items ← setup.evaluateParts enter env elements
    return .array (← Machine.freshIdentity) items
  | .subscript array index => do
    let target ← setup.evaluateWith enter env array
    let place ← setup.evaluateWith enter env index
    Machine.lift (Value.subscript target place)
  | .call callee args => do
    let name ← Machine.lift callee.name?
    let f ← Machine.lookup? env name
    let arguments ← setup.evaluateParts enter env args
    match f with
    | some f => setup.call enter name f arguments env
    | none => Machine.fault (.undeclared name)
  | tree => throw (.notAnExpression tree.qualifiedClass)

/-- The values of the parts of a list; a string has its characters as parts, which have no value. -/
def Setup.evaluateParts (setup : Setup) (enter : BodyEvaluator) (env : EnvRef) :
    Ast → Machine (List Value)
  | .list items => setup.evaluateAll enter env items
  | .scalar (.string t) =>
    if t.codes.isEmpty then return [] else throw (.notAnExpression (Scalar.string t).className)
  | tree => throw (.notAList tree.className)

def Setup.evaluateAll (setup : Setup) (enter : BodyEvaluator) (env : EnvRef) :
    List Ast → Machine (List Value)
  | [] => return []
  | item :: items => do
    let value ← setup.evaluateWith enter env item
    return value :: (← setup.evaluateAll enter env items)

end

/-- The value of an expression when so many calls may be nested. -/
def Setup.evaluate (setup : Setup) : Nat → BodyEvaluator
  | 0 => setup.evaluateWith fun _ _ => throw .exhausted
  | calls + 1 => setup.evaluateWith (setup.evaluate calls)

end DynamicScope
