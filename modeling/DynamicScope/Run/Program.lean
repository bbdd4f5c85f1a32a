import DynamicScope.Run.Execute

/-!
Runs of whole programs. A run starts in a fresh environment with the library and the native functions
and answers the printed values.
-/

namespace DynamicScope

/-- The block of a tree that is run; a loop has one as well. -/
def Ast.block? : Ast → Except Failure Ast
  | .program body => .ok body
  | .whileStatement _ body => .ok body
  | tree => .error (.missingPart tree.className "block")

def Ast.program? : Ast → Except Failure Ast
  | .program body => .ok (.program body)
  | tree => .error (.missingPart tree.className "run")

def Setup.runProgram (setup : Setup) (budget : Budget) (program : Ast) :
    Machine (List Value) := do
  Machine.record setup 1 fun _ => .ok .started
  let body ← Machine.lift program.block?
  let env ← setup.initialEnvironment
  let output : Output := ⟨← Machine.freshIdentity, []⟩
  let s ← setup.execute budget body ⟨env, output⟩
  Machine.record setup 1 fun _ => .ok (.finished s.output.values.length)
  return s.output.values

structure RunOutcome where
  result : Except Failure (List Value)
  trace : List Event

def Setup.run (setup : Setup) (budget : Budget) (program : Ast) : RunOutcome :=
  match (setup.runProgram budget program).run setup.startWorld with
  | .ok values w => ⟨.ok values, w.trace.toList⟩
  | .error e w => ⟨.error e, w.trace.toList⟩

def Budget.standard : Budget := ⟨300, 1000000000000000000⟩

end DynamicScope
