import DynamicScope.Proofs.Origin.Evaluate

/-! The objects that execution makes.
A visit makes what the evaluation that it starts makes, and the execution of a function's declaration
makes that function. So the log with what the visits make, one after another, accounts for the world
that an execution leaves, and has every object that was printed. -/

namespace DynamicScope

open Machine Origin

def State.From (log : List Value) (s : State) : Prop := ∀ v ∈ s.output.values, v.From log

theorem State.From.mono {log log' : List Value} {s : State} (more : log <+: log') (h : s.From log) :
    s.From log' := fun v listed => (h v listed).mono more

def Visit.Accounted (log : List Value) : Visit → Prop
  | .statement _ s w => w.Accounted log ∧ s.From log
  | .condition _ _ w => w.Accounted log

namespace Setup

variable (setup : Setup) (budget : Budget)

/-- What happens at a visit: the visit itself, and the evaluations in the course of its own. -/
def happenings (visit : Visit) : List Happening :=
  .visited visit :: ((visit.evaluation? budget.calls).elim [] setup.evaluations).map .evaluated

def madeAt (visit : Visit) : List Value := (setup.happenings budget visit).filterMap setup.made?

abbrev PassesVisits {α : Type} (log : List Value) (visits : List Visit)
    (R : List Value → α → Prop) (x : EStateM.Result Failure World α) : Prop :=
  Passage (setup.madeAt budget) Visit.Accounted log visits R x

variable {setup budget} {log : List Value} {s : State} {w : World}

theorem madeAt_of_evaluation? {visit : Visit} {x : Evaluation}
    (started : visit.evaluation? budget.calls = some x) :
    setup.madeAt budget visit = setup.made x := by
  have none : setup.made? (.visited visit) = none := by
    unfold made?
    split
    · rename_i same
      cases same
    · rename_i same
      cases same
      cases started
    · rfl
  rw [madeAt, happenings, List.filterMap_cons_none none, started]
  exact List.filterMap_map

theorem leaves_declare (here : w.Accounted log) (output : s.From log) (id : Ast) {value : Value}
    (held : value.From log) : Leaves log (State.From log) ((s.declare id value).run w) := by
  unfold State.declare
  cases id.name?.bind Name.ofJson? with
  | error e => exact .error here
  | ok key =>
    refine .ok (here.merged s.env fun other listed => ?_) output
    obtain rfl := List.mem_singleton.mp listed
    exact held

theorem leaves_print (here : w.Accounted log) (output : s.From log) {value : Value}
    (held : value.From log) : Leaves log (State.From log) ((s.print value).run w) := by
  refine .ok (here.skipped 1) fun v listed => ?_
  rcases List.mem_append.mp listed with old | new
  · exact output v old
  · obtain rfl := List.mem_singleton.mp new
    exact held

theorem leaves_evaluation (natives : setup.natives = []) (here : w.Accounted log) {visit : Visit}
    {env : EnvRef} {part : Ast}
    (started : visit.evaluation? budget.calls = some ⟨budget.calls, env, part, w⟩) :
    Leaves (log ++ setup.madeAt budget visit) (Value.From (log ++ setup.madeAt budget visit))
      ((setup.evaluate budget.calls env part).run w) := by
  rw [madeAt_of_evaluation? started]
  exact logs natives ⟨budget.calls, env, part, w⟩ log here

theorem passes_condition (natives : setup.natives = []) (here : w.Accounted log) (env : EnvRef)
    (test : Ast) :
    setup.PassesVisits budget log [.condition test env w] (fun _ _ => True)
      ((setup.condition budget env test).run w) := by
  refine .single here ?_
  refine .bind (leaves_evaluation natives here rfl) fun value _ world _ => ?_
  refine .bind (.record world _ _ _) fun _ _ world _ => ?_
  exact .lift world fun _ _ => trivial

theorem passes_statement (natives : setup.natives = []) (here : w.Accounted log)
    (output : s.From log) {tree : Ast} (noLoop : ∀ test body, tree ≠ .whileStatement test body)
    (noBlock : ∀ statements, tree ≠ .block statements) :
    setup.PassesVisits budget log [.statement tree s w] State.From
      ((setup.execute budget tree s).run w) := by
  refine .single ⟨here, output⟩ ?_
  have kept : s.From (log ++ setup.madeAt budget (.statement tree s w)) :=
    output.mono (List.prefix_append _ _)
  cases tree with
  | variableDeclaration id part =>
    rw [execute]
    refine .bind (leaves_evaluation natives here rfl) fun value _ world held => ?_
    exact .bind (.record world _ _ _) fun _ _ world _ => leaves_declare world kept id held
  | functionDeclaration id parameters body =>
    rw [execute]
    have made : Leaves (log ++ [.function w.nextIdentity parameters body])
        (fun i => i = w.nextIdentity) (freshIdentity.run w) := .ok (here.made rfl) rfl
    refine .bind made fun i _ world same => ?_
    subst same
    refine .bind (.record world _ _ _) fun _ _ world _ => ?_
    exact leaves_declare world kept id (Value.from_function parameters body)
  | assignment id part =>
    rw [execute]
    refine .bind (leaves_evaluation natives here rfl) fun value _ world held => ?_
    refine .bind (.lift world (R := fun _ => True) fun _ _ => trivial) fun name _ world _ => ?_
    refine .bind (.assign world s.env name held) fun _ _ world _ => ?_
    exact .bind (.record world _ _ _) fun _ _ world _ => .pure world kept
  | printStatement part =>
    rw [execute]
    refine .bind (leaves_evaluation natives here rfl) fun value _ world held => ?_
    exact .bind (.record world _ _ _) fun _ _ world _ => leaves_print world kept held
  | whileStatement test body => exact absurd rfl (noLoop test body)
  | block statements => exact absurd rfl (noBlock statements)
  | _ =>
    change Leaves (log ++ []) _ _
    rw [List.append_nil]
    exact .throw here _

theorem passes_repeatWhile {check : World → Visit} {test : Machine Bool}
    {body : State → Machine State} {inside : State → World → List Visit}
    (checked : ∀ {log w}, w.Accounted log →
      setup.PassesVisits budget log [check w] (fun _ _ => True) (test.run w))
    (each : ∀ {log s w}, w.Accounted log → s.From log →
      setup.PassesVisits budget log (inside s w) State.From ((body s).run w))
    (iterations : Nat) (here : w.Accounted log) (output : s.From log) :
    setup.PassesVisits budget log (repeatVisits check test body inside iterations s w) State.From
      ((repeatWhile test body iterations s).run w) := by
  induction iterations generalizing log s w with
  | zero => exact .quiet (.throw here _)
  | succ iterations ih =>
    rw [repeatVisits_succ, repeatWhile]
    refine (checked here).cons fun log' again v more world _ _ => ?_
    cases again with
    | false => exact .quiet (.pure world (output.mono more))
    | true => exact (each world (output.mono more)).bind fun _ t u _ world held _ => ih world held

mutual

theorem passes_execute (natives : setup.natives = []) (tree : Ast) (log : List Value) (s : State)
    (w : World) (here : w.Accounted log) (output : s.From log) :
    setup.PassesVisits budget log (setup.visits budget tree s w) State.From
      ((setup.execute budget tree s).run w) := by
  cases tree with
  | whileStatement test body =>
    rw [visits, execute]
    exact passes_repeatWhile (passes_condition natives · s.env test)
      (passes_execute natives body _ _ _) budget.iterations here output
  | block statements =>
    rw [visits, execute]
    exact passes_executeParts natives statements log s w here output
  | _ => exact passes_statement natives here output nofun nofun

theorem passes_executeParts (natives : setup.natives = []) (tree : Ast) (log : List Value)
    (s : State) (w : World) (here : w.Accounted log) (output : s.From log) :
    setup.PassesVisits budget log (setup.partVisits budget tree s w) State.From
      ((setup.executeParts budget tree s).run w) := by
  cases tree with
  | list items =>
    rw [partVisits, executeParts]
    exact passes_executeAll natives items log s w here output
  | scalar c =>
    cases c with
    | string t =>
      rw [executeParts]
      split
      · exact .quiet (.pure here output)
      · exact .quiet (.throw here _)
    | _ => exact .quiet (.throw here _)
  | _ => exact .quiet (.throw here _)

theorem passes_executeAll (natives : setup.natives = []) (items : List Ast) (log : List Value)
    (s : State) (w : World) (here : w.Accounted log) (output : s.From log) :
    setup.PassesVisits budget log (setup.allVisits budget items s w) State.From
      ((setup.executeAll budget items s).run w) := by
  cases items with
  | nil => exact .quiet (.pure here output)
  | cons item items =>
    rw [allVisits_cons, executeAll]
    exact (passes_execute natives item log s w here output).bind fun log' t v _ world held _ =>
      passes_executeAll natives items log' t v world held

end

end Setup

end DynamicScope
