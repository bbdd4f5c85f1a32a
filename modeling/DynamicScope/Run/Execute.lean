import DynamicScope.Run.Evaluate

/-!
Execution of statements. A statement takes an environment and the output so far to an environment and
an output: a declaration goes on in a new environment, an assignment changes the one it is given, and
a loop evaluates its condition in the environment that it started with.
-/

namespace DynamicScope

/-- The values printed so far. Printing makes a new output, which has an identity of its own. -/
structure Output where
  identity : Nat
  values : List Value

structure State where
  env : EnvRef
  output : Output

def repeatWhile (test : Machine Bool) (body : State → Machine State) :
    Nat → State → Machine State
  | 0, _ => throw .exhausted
  | iterations + 1, s => do
    if ← test then repeatWhile test body iterations (← body s) else return s

def State.declare (s : State) (id : Ast) (value : Value) : Machine State := do
  let key ← Machine.lift (id.name?.bind Name.ofJson?)
  return { s with env := ← Machine.extended s.env key value }

def State.print (s : State) (value : Value) : Machine State := do
  return { s with output := ⟨← Machine.freshIdentity, s.output.values ++ [value]⟩ }

def Setup.condition (setup : Setup) (budget : Budget) (env : EnvRef) (expression : Ast) :
    Machine Bool := do
  let value ← setup.evaluate budget.calls env expression
  Machine.record setup 3 fun _ => do return .condition (← value.toText)
  Machine.lift value.isTrue

mutual

def Setup.execute (setup : Setup) (budget : Budget) : Ast → State → Machine State
  | .variableDeclaration id expression, s => do
    let value ← setup.evaluate budget.calls s.env expression
    Machine.record setup 2 fun _ => do
      let name ← id.name?
      return .declaration (← name.plainText) (← value.toText)
    s.declare id value
  | .functionDeclaration id parameters expression, s => do
    let value := Value.function (← Machine.freshIdentity) parameters expression
    Machine.record setup 2 fun _ => do
      let name ← id.name?
      return .definition (← name.plainText) (← Value.functionText parameters)
    s.declare id value
  | .assignment id expression, s => do
    let value ← setup.evaluate budget.calls s.env expression
    let name ← Machine.lift id.name?
    Machine.assign s.env name value
    Machine.record setup 2 fun _ => do
      return .assignment (← name.plainText) (← value.toText)
    return s
  | .printStatement expression, s => do
    let value ← setup.evaluate budget.calls s.env expression
    Machine.record setup 2 fun _ => do return .print (← value.toText)
    s.print value
  | .whileStatement expression body, s =>
    repeatWhile (setup.condition budget s.env expression) (setup.execute budget body)
      budget.iterations s
  | .block statements, s => setup.executeParts budget statements s
  | tree, _ => throw (.notAStatement tree.qualifiedClass)

/-- The state after the statements of a list; the characters of a string are no statements. -/
def Setup.executeParts (setup : Setup) (budget : Budget) : Ast → State → Machine State
  | .list items, s => setup.executeAll budget items s
  | .scalar (.string t), s =>
    if t.codes.isEmpty then return s else throw (.notAStatement (Scalar.string t).className)
  | tree, _ => throw (.notAList tree.className)

def Setup.executeAll (setup : Setup) (budget : Budget) : List Ast → State → Machine State
  | [], s => return s
  | item :: items, s => do setup.executeAll budget items (← setup.execute budget item s)

end

end DynamicScope
