import DynamicScope.Proofs.Run.Additions
import DynamicScope.Proofs.Tracing.Refinement

/-! What a trace tells of the printed values and of the end of a run.
Only print statements record print events, and only a statement that goes on to print records one. So
the print events of an execution are the texts of the values that its print statements have appended,
one each and in order, up to the end or the failure. -/

namespace DynamicScope

open Machine

def Event.printed? : Event → Option Text
  | .print text => some text
  | _ => none

def World.prints (w : World) : List Text := w.trace.toList.filterMap Event.printed?

theorem World.prints_push (w : World) (e : Event) :
    World.prints { w with trace := w.trace.push e } = w.prints ++ e.printed?.toList := by
  simp only [prints, Array.toList_push, List.filterMap_append]
  cases e <;> rfl

theorem World.prints_push_of_none (w : World) {e : Event} (other : e.printed? = none) :
    World.prints { w with trace := w.trace.push e } = w.prints := by
  rw [prints_push, other, Option.toList_none, List.append_nil]

theorem World.steady_prints : World.Steady fun w v => v.prints = w.prints where
  refl _ := rfl
  trans first second := second.trans first
  new _ _ := rfl
  next _ _ := rfl
  traced w e h := w.prints_push_of_none (by cases e <;> first | rfl | exact h.elim)

namespace Setup

variable (setup : Setup)

/-- The value that a visited print statement has appended to the output, if it could. -/
def printedAt (budget : Budget) : Visit → Option Value
  | .statement (.printStatement expression) s w =>
    match (setup.execute budget (.printStatement expression) s).run w with
    | .ok t _ => t.output.values.getLast?
    | .error _ _ => none
  | _ => none

def Shown (w v : World) (values : List Value) : Prop :=
  2 ≤ setup.level → v.prints.map Except.ok =
    w.prints.map Except.ok ++ values.map fun value => value.display.map Text.proper

/-- An execution from a state that has printed these values, whether it returns or fails. -/
inductive Tells (s : State) (w : World) (values : List Value) :
    EStateM.Result Failure World State → Prop
  | ok {t : State} {v : World} (output : t.output.values = s.output.values ++ values)
    (shown : setup.Shown w v values) : Tells s w values (.ok t v)
  | error {e : Failure} {v : World} (shown : setup.Shown w v values) : Tells s w values (.error e v)

variable {setup} {s t : State} {u v w : World} {values values' : List Value}

theorem Shown.same (h : v.prints = w.prints) : setup.Shown w v [] :=
  fun _ => by rw [h, List.map_nil, List.append_nil]

theorem Shown.trans (first : setup.Shown w v values) (second : setup.Shown v u values') :
    setup.Shown w u (values ++ values') := by
  intro level
  rw [second level, first level, List.map_append, List.append_assoc]

namespace Tells

theorem after {α : Type} {m : Machine α} {f : α → Machine State}
    (first : Follows (fun w v => v.prints = w.prints) m)
    (failed : ∀ e v, m.run w = .error e v → values = [])
    (rest : ∀ a v, m.run w = .ok a v → setup.Tells s v values ((f a).run v)) :
    setup.Tells s w values ((m >>= f).run w) := by
  have quiet := first w
  unfold Machine.after at quiet
  rw [EStateM.run_bind]
  cases ran : m.run w with
  | error e v =>
    rw [ran] at quiet
    obtain rfl := failed e v ran
    exact .error (.same quiet)
  | ok a v =>
    rw [ran] at quiet
    have told := rest a v ran
    dsimp only
    generalize (f a).run v = x at told ⊢
    cases told with
    | ok output shown => exact .ok output (Shown.trans (.same quiet) shown)
    | error shown => exact .error (Shown.trans (.same quiet) shown)

theorem trans {m : Machine State} {f : State → Machine State}
    {values' : State → World → List Value} (first : setup.Tells s w values (m.run w))
    (rest : ∀ t v, m.run w = .ok t v → setup.Tells t v (values' t v) ((f t).run v)) :
    setup.Tells s w (values ++ match m.run w with
      | .ok t v => values' t v
      | .error _ _ => []) ((m >>= f).run w) := by
  rw [EStateM.run_bind]
  generalize m.run w = x at first rest ⊢
  cases first with
  | error shown => exact .error (by rwa [List.append_nil])
  | @ok t v output shown =>
    have told := rest t v rfl
    dsimp only
    generalize (f t).run v = y at told ⊢
    cases told with
    | ok output' shown' =>
      exact .ok (by rw [output', output, List.append_assoc]) (shown.trans shown')
    | error shown' => exact .error (shown.trans shown')

end Tells

section Execution

variable (setup) (budget : Budget)

theorem silent_record {event : Unit → Except Failure Event}
    (other : ∀ e, event () = .ok e → e.printed? = none) (level : Nat) :
    Follows (fun w v => v.prints = w.prints) (record setup level event) :=
  follows_record World.steady_prints
    (fun e formed w => w.prints_push_of_none (other e formed)) setup level

theorem silent_condition (env : EnvRef) (test : Ast) :
    Follows (fun w v => v.prints = w.prints) (setup.condition budget env test) := by
  refine follows_bind World.steady_prints
    (setup.follows_evaluate World.steady_prints _ env test) fun value =>
      follows_bind World.steady_prints (silent_record setup (fun e formed => ?_) 3) fun _ =>
        follows_lift World.steady_prints _
  obtain ⟨text, -, formed⟩ := bind_eq_ok.mp formed
  cases formed
  rfl

theorem tells_declare (s : State) (id : Ast) (value : Value) (w : World) :
    setup.Tells s w [] ((s.declare id value).run w) := by
  unfold State.declare
  cases id.name?.bind Name.ofJson? with
  | error e => exact .error (.same rfl)
  | ok key => exact .ok (List.append_nil _).symm (.same rfl)

theorem tells_print (expression : Ast) (s : State) (w : World) :
    setup.Tells s w (setup.printedAt budget (.statement (.printStatement expression) s w)).toList
      ((setup.execute budget (.printStatement expression) s).run w) := by
  have evaluated := setup.follows_evaluate World.steady_prints budget.calls s.env expression w
  unfold Machine.after at evaluated
  rw [printedAt, execute, EStateM.run_bind]
  generalize (setup.evaluate budget.calls s.env expression).run w = x at evaluated ⊢
  cases x with
  | error e v => exact .error (.same evaluated)
  | ok value v =>
    dsimp only at evaluated ⊢
    rw [EStateM.run_bind, run_record]
    have last : (s.output.values ++ [value]).getLast?.toList = [value] := by
      rw [List.getLast?_concat]
      rfl
    rcases added : recorded setup 2 (fun _ => do return .print (← value.toText)) with
      e | (_ | event)
    · exact .error (.same evaluated)
    · have hidden := lt_of_recorded_none added
      exact .ok (congrArg _ last.symm) fun level => absurd level (Nat.not_le.mpr hidden)
    · obtain ⟨formed, written⟩ := of_recorded added
      obtain ⟨text, displayed, formed⟩ := bind_eq_ok.mp formed
      cases formed
      have whole : text.surrogateRun? = none := (Text.surrogateRun?_join written).1 text (by simp)
      have shown := value.display_of_written displayed whole
      refine .ok (congrArg _ last.symm) fun _ => ?_
      change (World.prints { v with trace := v.trace.push (.print text) }).map Except.ok =
        _ ++ (s.output.values ++ [value]).getLast?.toList.map fun value =>
          value.display.map Text.proper
      rw [last, v.prints_push, evaluated, List.map_append, List.map_singleton, shown]
      rfl

theorem tells_repeatWhile {expression : Ast} {env : EnvRef} {body : State → Machine State}
    {inside : State → World → List Visit}
    (each : ∀ s w, setup.Tells s w ((inside s w).filterMap (setup.printedAt budget)) ((body s).run w))
    (iterations : Nat) (s : State) (w : World) :
    setup.Tells s w
      ((repeatVisits (.condition expression env) (setup.condition budget env expression) body
        inside iterations s w).filterMap (setup.printedAt budget))
      ((repeatWhile (setup.condition budget env expression) body iterations s).run w) := by
  induction iterations generalizing s w with
  | zero => exact .error (.same rfl)
  | succ iterations ih =>
    rw [repeatWhile, repeatVisits]
    rw [List.filterMap_cons_none rfl]
    refine Tells.after (setup.silent_condition budget env expression) ?_ fun again v checked => ?_
    · intro e v failed
      rw [failed]
      rfl
    · rw [checked]
      cases again with
      | false => exact .ok (List.append_nil _).symm (.same rfl)
      | true =>
        have told := Tells.trans (each s v) fun t u _ => ih t u
        simp only [List.filterMap_append, if_true]
        generalize (body s).run v = x at told ⊢
        cases x <;> exact told

mutual

theorem tells_execute (tree : Ast) (s : State) (w : World) :
    setup.Tells s w ((setup.visits budget tree s w).filterMap (setup.printedAt budget))
      ((setup.execute budget tree s).run w) := by
  have steady := World.steady_prints
  have evaluated (expression : Ast) : Follows (fun w v => v.prints = w.prints)
      (setup.evaluate budget.calls s.env expression) := setup.follows_evaluate steady _ _ _
  cases tree with
  | variableDeclaration id expression =>
    rw [execute]
    refine Tells.after (evaluated expression) (fun _ _ _ => rfl) fun value _ _ =>
      Tells.after (silent_record setup (fun e formed => ?_) 2) (fun _ _ _ => rfl) fun _ v _ =>
        tells_declare setup s id value v
    obtain ⟨name, -, formed⟩ := bind_eq_ok.mp formed
    obtain ⟨quoted, -, formed⟩ := bind_eq_ok.mp formed
    obtain ⟨text, -, formed⟩ := bind_eq_ok.mp formed
    cases formed
    rfl
  | functionDeclaration id parameters expression =>
    rw [execute]
    refine Tells.after (follows_freshIdentity steady) (fun _ _ _ => rfl) fun identity _ _ =>
      Tells.after (silent_record setup (fun e formed => ?_) 2) (fun _ _ _ => rfl) fun _ v _ =>
        tells_declare setup s id _ v
    obtain ⟨name, -, formed⟩ := bind_eq_ok.mp formed
    obtain ⟨quoted, -, formed⟩ := bind_eq_ok.mp formed
    obtain ⟨text, -, formed⟩ := bind_eq_ok.mp formed
    cases formed
    rfl
  | assignment id expression =>
    rw [execute]
    refine Tells.after (evaluated expression) (fun _ _ _ => rfl) fun value _ _ =>
      Tells.after (follows_lift steady _) (fun _ _ _ => rfl) fun name _ _ =>
        Tells.after (follows_assign steady.refl (fun _ _ _ _ => rfl) s.env name value)
          (fun _ _ _ => rfl) fun _ _ _ =>
            Tells.after (silent_record setup (fun e formed => ?_) 2) (fun _ _ _ => rfl)
              fun _ _ _ => .ok (List.append_nil _).symm (.same rfl)
    obtain ⟨quoted, -, formed⟩ := bind_eq_ok.mp formed
    obtain ⟨text, -, formed⟩ := bind_eq_ok.mp formed
    cases formed
    rfl
  | printStatement expression =>
    have told := setup.tells_print budget expression s w
    have visit : setup.visits budget (.printStatement expression) s w =
        [.statement (.printStatement expression) s w] := rfl
    rw [visit, List.filterMap_cons, List.filterMap_nil]
    cases appended : setup.printedAt budget (.statement (.printStatement expression) s w) with
    | none => rwa [appended] at told
    | some value => rwa [appended] at told
  | whileStatement test body =>
    rw [execute, visits]
    exact tells_repeatWhile setup budget (tells_execute body) budget.iterations s w
  | block statements =>
    rw [execute, visits]
    exact tells_executeParts statements s w
  | _ => exact .error (.same rfl)

theorem tells_executeParts (tree : Ast) (s : State) (w : World) :
    setup.Tells s w ((setup.partVisits budget tree s w).filterMap (setup.printedAt budget))
      ((setup.executeParts budget tree s).run w) := by
  cases tree with
  | list items =>
    rw [executeParts, partVisits]
    exact tells_executeAll items s w
  | scalar c =>
    cases c with
    | string t =>
      rw [executeParts]
      split
      · exact .ok (List.append_nil _).symm (.same rfl)
      · exact .error (.same rfl)
    | _ => exact .error (.same rfl)
  | _ => exact .error (.same rfl)

theorem tells_executeAll (items : List Ast) (s : State) (w : World) :
    setup.Tells s w ((setup.allVisits budget items s w).filterMap (setup.printedAt budget))
      ((setup.executeAll budget items s).run w) := by
  cases items with
  | nil => exact .ok (List.append_nil _).symm (.same rfl)
  | cons item items =>
    rw [executeAll, allVisits, List.filterMap_append]
    have told := Tells.trans (tells_execute item s w) fun t v _ => tells_executeAll items t v
    generalize (setup.execute budget item s).run w = x at told ⊢
    cases x <;> exact told

end

/-- The values that the print statements of a run have appended, up to the end or the failure. -/
def printedValues (program : Ast) : List Value :=
  (setup.runVisits budget program).filterMap (setup.printedAt budget)

theorem printed?_traceWith {level : Nat} {e : Event} (other : e.printed? = none)
    (trace : Array Event) :
    (setup.traceWith level e trace).toList.filterMap Event.printed? =
      trace.toList.filterMap Event.printed? := by
  unfold traceWith
  split
  · simp [other]
  · rfl

theorem run_tells (program : Ast) :
    (∀ values, (setup.run budget program).result = .ok values →
      values = setup.printedValues budget program) ∧
    (2 ≤ setup.level → ((setup.run budget program).trace.filterMap Event.printed?).map Except.ok =
      (setup.printedValues budget program).map fun value => value.display.map Text.proper) := by
  have start : setup.firstWorld.prints = [] := setup.printed?_traceWith rfl #[]
  unfold printedValues runVisits
  cases block : program.block? with
  | error e =>
    rw [run_eq_of_no_block _ block]
    refine ⟨fun values same => ?_, fun _ => congrArg (List.map _) start⟩
    cases same
  | ok body =>
    have told := setup.tells_execute budget body setup.firstState setup.firstWorld
    rw [run_eq_of_block _ block]
    generalize (setup.execute budget body setup.firstState).run setup.firstWorld = x at told ⊢
    cases told with
    | ok output shown =>
      refine ⟨fun values same => ?_, fun level => ?_⟩
      · cases same
        exact output
      · have told := shown level
        rw [start] at told
        rw [outcome, printed?_traceWith setup rfl]
        exact told
    | error shown =>
      refine ⟨fun values same => ?_, fun level => ?_⟩
      · cases same
      · have told := shown level
        rw [start] at told
        exact told

end Execution

end Setup

namespace Session

end Session

end DynamicScope
