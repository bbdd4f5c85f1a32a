import DynamicScope.Proofs.Run.Machine
import DynamicScope.Proofs.Run.Visits
import DynamicScope.Proofs.Value.Written
import DynamicScope.Run.Program

/-! What a run comes to, by the execution of its block.
Starting a run and telling that it has finished cannot fail, at any level of the trace. What is left is
the execution of the block in the first environment. -/

namespace DynamicScope

open Machine

theorem Machine.recorded_of_proper {event : Unit → Except Failure Event} {e : Event} {s : String}
    (formed : event () = .ok e) (proper : e.text = .proper s) (setup : Setup) (level : Nat) :
    recorded setup level event = .ok (if level ≤ setup.level then some e else none) := by
  unfold recorded
  rw [formed, ok_bind, proper, Text.surrogateRun?_proper]
  split <;> rfl

namespace Setup

variable (setup : Setup)

def traceWith (level : Nat) (e : Event) (trace : Array Event) : Array Event :=
  if level ≤ setup.level then trace.push e else trace

theorem run_record_of_proper {e : Event} {s : String} (proper : e.text = .proper s) (level : Nat)
    (w : World) :
    (record setup level fun _ => .ok e).run w =
      .ok () { w with trace := setup.traceWith level e w.trace } := by
  rw [run_record, recorded_of_proper rfl proper, traceWith]
  by_cases shown : level ≤ setup.level
  · rw [if_pos shown, if_pos shown]
  · rw [if_neg shown, if_neg shown]

def firstBindings : Bindings := (mathBindings setup.natives.length).insertAll setup.nativeBindings

def firstState : State := ⟨0, setup.natives.length + MathFunction.all.length, []⟩

def firstWorld : World where
  store := ⟨#[setup.firstBindings]⟩
  nextIdentity := setup.natives.length + MathFunction.all.length + 1
  trace := setup.traceWith 1 .started #[]

/-- The visits of a run, which has none if there is no block to execute. -/
def runVisits (budget : Budget) (program : Ast) : List Visit :=
  match program.block? with
  | .ok body => setup.visits budget body setup.firstState setup.firstWorld
  | .error _ => []

def entryBindings (w : World) : Bindings :=
  (mathBindings w.nextIdentity).insertAll setup.nativeBindings

def entryState (w : World) : State :=
  ⟨w.store.environments.size, w.nextIdentity + MathFunction.all.length, []⟩

def entryWorld (w : World) : World where
  store := (w.store.new (setup.entryBindings w)).2
  nextIdentity := w.nextIdentity + MathFunction.all.length + 1
  trace := setup.traceWith 1 .started w.trace

def ended : EStateM.Result Failure World State → EStateM.Result Failure World (List Value)
  | .ok t u =>
    .ok t.output.values
      { u with trace := setup.traceWith 1 (.finished t.output.values.length) u.trace }
  | .error e u => .error e u

theorem run_runProgram_of_block {program body : Ast} (block : program.block? = .ok body)
    (budget : Budget) (w : World) :
    (setup.runProgram budget program).run w =
      setup.ended ((setup.execute budget body (entryState w)).run (setup.entryWorld w)) := by
  have started := setup.run_record_of_proper (e := .started) rfl 1 w
  have ran : (setup.runProgram budget program).run w =
      (do
        let t ← setup.execute budget body (entryState w)
        record setup 1 fun _ => .ok (.finished t.output.values.length)
        return t.output.values : Machine (List Value)).run (setup.entryWorld w) := by
    unfold runProgram
    rw [EStateM.run_bind, started, block]
    rfl
  rw [ran, EStateM.run_bind]
  cases (setup.execute budget body (entryState w)).run (setup.entryWorld w) with
  | error e u => rfl
  | ok t u =>
    dsimp only
    rw [EStateM.run_bind, setup.run_record_of_proper rfl]
    rfl

theorem run_runProgram_of_no_block {program : Ast} {e : Failure} (block : program.block? = .error e)
    (budget : Budget) (w : World) :
    (setup.runProgram budget program).run w =
      .error e { w with trace := setup.traceWith 1 .started w.trace } := by
  have started := setup.run_record_of_proper (e := .started) rfl 1 w
  unfold runProgram
  rw [EStateM.run_bind, started, block]
  rfl

def outcome : EStateM.Result Failure World State → RunOutcome
  | .ok t u =>
    ⟨.ok t.output.values,
      (setup.traceWith 1 (.finished t.output.values.length) u.trace).toList⟩
  | .error e u => ⟨.error e, u.trace.toList⟩

/-- A run that starts in a world, and not in the one before all runs. -/
def runIn (budget : Budget) (program : Ast) (w : World) : RunOutcome :=
  match (setup.runProgram budget program).run { w with trace := #[] } with
  | .ok values v => ⟨.ok values, v.trace.toList⟩
  | .error e v => ⟨.error e, v.trace.toList⟩

theorem run_eq_runIn (budget : Budget) (program : Ast) :
    setup.run budget program = setup.runIn budget program setup.startWorld := rfl

theorem runIn_of_block {program body : Ast} (block : program.block? = .ok body)
    (budget : Budget) (w : World) :
    setup.runIn budget program w =
      setup.outcome ((setup.execute budget body (entryState w)).run
        (setup.entryWorld { w with trace := #[] })) := by
  rw [runIn, setup.run_runProgram_of_block block]
  change (match setup.ended ((setup.execute budget body (entryState w)).run _) with
    | .ok values v => (⟨.ok values, v.trace.toList⟩ : RunOutcome)
    | .error e v => ⟨.error e, v.trace.toList⟩) = _
  cases (setup.execute budget body (entryState w)).run _ <;> rfl

theorem runIn_of_no_block {program : Ast} {e : Failure} (block : program.block? = .error e)
    (budget : Budget) (w : World) :
    setup.runIn budget program w = ⟨.error e, (setup.traceWith 1 .started #[]).toList⟩ := by
  rw [runIn, setup.run_runProgram_of_no_block block]

theorem run_eq_of_block {program body : Ast} (block : program.block? = .ok body)
    (budget : Budget) :
    setup.run budget program =
      setup.outcome ((setup.execute budget body setup.firstState).run setup.firstWorld) :=
  setup.runIn_of_block block budget setup.startWorld

theorem run_eq_of_no_block {program : Ast} {e : Failure} (block : program.block? = .error e)
    (budget : Budget) :
    setup.run budget program = ⟨.error e, setup.firstWorld.trace.toList⟩ :=
  setup.runIn_of_no_block block budget setup.startWorld

end Setup

end DynamicScope
