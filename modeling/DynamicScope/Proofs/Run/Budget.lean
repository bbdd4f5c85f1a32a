import DynamicScope.Proofs.Run.Evaluation
import DynamicScope.Proofs.Run.Outcome

/-! More room for a run.
What an evaluation or an execution comes to does not change when it is allowed more calls or more
repetitions, unless it used up what it was allowed. So there is one result to which a statement comes
when it is given enough, or none if it goes on for ever. -/

namespace DynamicScope

instance : LE Budget := ⟨fun b b' => b.calls ≤ b'.calls ∧ b.iterations ≤ b'.iterations⟩

/-- A result, and one with more room: the same, unless the first was cut off. -/
inductive Prolonged {α : Type} :
    EStateM.Result Failure World α → EStateM.Result Failure World α → Prop
  | cut (w : World) (y : EStateM.Result Failure World α) : Prolonged (.error .exhausted w) y
  | same (x : EStateM.Result Failure World α) : Prolonged x x

theorem Prolonged.eq {α : Type} {x y : EStateM.Result Failure World α} (h : Prolonged x y)
    (whole : ∀ w, x ≠ .error .exhausted w) : x = y := by
  cases h with
  | cut w y => exact absurd rfl (whole w)
  | same x => rfl

namespace Machine

variable {α β : Type}

def Prolongs (m m' : Machine α) : Prop := ∀ w, Prolonged (m.run w) (m'.run w)

theorem prolongs_refl (m : Machine α) : Prolongs m m := fun w => .same (m.run w)

theorem prolongs_throw_exhausted (m : Machine α) : Prolongs (throw .exhausted) m :=
  fun w => .cut w (m.run w)

theorem Prolonged.bind {m m' : Machine α} {f f' : α → Machine β} {w : World}
    (first : Prolonged (m.run w) (m'.run w))
    (rest : ∀ a v, m.run w = .ok a v → Prolonged ((f a).run v) ((f' a).run v)) :
    Prolonged ((m >>= f).run w) ((m' >>= f').run w) := by
  rw [EStateM.run_bind, EStateM.run_bind]
  generalize m.run w = x at first rest ⊢
  generalize m'.run w = x' at first ⊢
  cases first with
  | cut v y => exact .cut v _
  | same x =>
    cases x with
    | ok a v => exact rest a v rfl
    | error e v => exact .same _

theorem prolongs_bind {m m' : Machine α} {f f' : α → Machine β} (first : Prolongs m m')
    (rest : ∀ a, Prolongs (f a) (f' a)) : Prolongs (m >>= f) (m' >>= f') :=
  fun w => Prolonged.bind (first w) fun a v _ => rest a v

theorem prolongs_after (m : Machine α) {f f' : α → Machine β}
    (rest : ∀ a, Prolongs (f a) (f' a)) : Prolongs (m >>= f) (m >>= f') :=
  prolongs_bind (prolongs_refl m) rest

end Machine

namespace Setup

open Machine

variable (setup : Setup) {enter enter' : BodyEvaluator}

theorem prolongs_call (inside : ∀ env body, Prolongs (enter env body) (enter' env body))
    (name : Json) (f : Value) (arguments : List Value) (env : EnvRef) :
    Prolongs (setup.call enter name f arguments env) (setup.call enter' name f arguments env) := by
  refine prolongs_after _ fun _ => ?_
  cases f with
  | function i parameters body => exact prolongs_after _ fun inner => inside inner body
  | _ => exact prolongs_refl _

mutual

theorem prolongs_evaluateWith (inside : ∀ env body, Prolongs (enter env body) (enter' env body))
    (env : EnvRef) (tree : Ast) :
    Prolongs (setup.evaluateWith enter env tree) (setup.evaluateWith enter' env tree) := by
  cases tree with
  | unary operator part =>
    rw [evaluateWith, evaluateWith]
    exact prolongs_bind (prolongs_evaluateWith inside env part) fun _ => prolongs_refl _
  | binary operator first second =>
    rw [evaluateWith, evaluateWith]
    exact prolongs_bind (prolongs_evaluateWith inside env first) fun _ =>
      prolongs_bind (prolongs_evaluateWith inside env second) fun _ => prolongs_refl _
  | conditional test first second =>
    rw [evaluateWith, evaluateWith]
    refine prolongs_bind (prolongs_evaluateWith inside env test) fun _ =>
      prolongs_after _ fun chosen => ?_
    cases chosen with
    | true => exact prolongs_evaluateWith inside env first
    | false => exact prolongs_evaluateWith inside env second
  | arrayLiteral elements =>
    rw [evaluateWith, evaluateWith]
    exact prolongs_bind (prolongs_evaluateParts inside env elements) fun _ => prolongs_refl _
  | subscript array index =>
    rw [evaluateWith, evaluateWith]
    exact prolongs_bind (prolongs_evaluateWith inside env array) fun _ =>
      prolongs_bind (prolongs_evaluateWith inside env index) fun _ => prolongs_refl _
  | call callee args =>
    rw [evaluateWith, evaluateWith]
    refine prolongs_after _ fun name => prolongs_after _ fun found =>
      prolongs_bind (prolongs_evaluateParts inside env args) fun arguments => ?_
    cases found with
    | none => exact prolongs_refl _
    | some f => exact prolongs_call setup inside name f arguments env
  | _ => exact prolongs_refl _

theorem prolongs_evaluateParts (inside : ∀ env body, Prolongs (enter env body) (enter' env body))
    (env : EnvRef) (tree : Ast) :
    Prolongs (setup.evaluateParts enter env tree) (setup.evaluateParts enter' env tree) := by
  cases tree with
  | list items =>
    rw [evaluateParts, evaluateParts]
    exact prolongs_evaluateAll inside env items
  | scalar x => cases x <;> exact prolongs_refl _
  | _ => exact prolongs_refl _

theorem prolongs_evaluateAll (inside : ∀ env body, Prolongs (enter env body) (enter' env body))
    (env : EnvRef) (items : List Ast) :
    Prolongs (setup.evaluateAll enter env items) (setup.evaluateAll enter' env items) := by
  cases items with
  | nil => exact prolongs_refl _
  | cons item items =>
    rw [evaluateAll, evaluateAll]
    exact prolongs_bind (prolongs_evaluateWith inside env item) fun _ =>
      prolongs_bind (prolongs_evaluateAll inside env items) fun _ => prolongs_refl _

end

theorem prolongs_evaluate {calls calls' : Nat} (more : calls ≤ calls') (env : EnvRef) (tree : Ast) :
    Prolongs (setup.evaluate calls env tree) (setup.evaluate calls' env tree) := by
  induction calls generalizing calls' env tree with
  | zero =>
    rw [setup.evaluate_eq calls']
    exact setup.prolongs_evaluateWith (fun _ _ => prolongs_throw_exhausted _) env tree
  | succ calls ih =>
    obtain ⟨k, rfl⟩ := Nat.exists_eq_add_of_le' more
    exact setup.prolongs_evaluateWith (ih (Nat.le_add_left calls k)) env tree

theorem prolongs_condition {budget budget' : Budget} (more : budget ≤ budget') (env : EnvRef)
    (test : Ast) :
    Prolongs (setup.condition budget env test) (setup.condition budget' env test) :=
  prolongs_bind (setup.prolongs_evaluate more.1 env test) fun _ => prolongs_refl _

omit setup in
theorem prolongs_repeatWhile {test test' : Machine Bool} {body body' : State → Machine State}
    (checks : Prolongs test test') (each : ∀ s, Prolongs (body s) (body' s))
    {iterations iterations' : Nat} (more : iterations ≤ iterations') (s : State) :
    Prolongs (repeatWhile test body iterations s) (repeatWhile test' body' iterations' s) := by
  induction iterations generalizing iterations' s with
  | zero => exact prolongs_throw_exhausted _
  | succ iterations ih =>
    obtain ⟨k, rfl⟩ := Nat.exists_eq_add_of_le' more
    rw [← Nat.add_assoc, repeatWhile, repeatWhile]
    refine prolongs_bind checks fun again => ?_
    cases again with
    | true => exact prolongs_bind (each s) fun t => ih (Nat.le_add_left iterations k) t
    | false => exact prolongs_refl _

variable {budget budget' : Budget}

mutual

theorem prolongs_execute (more : budget ≤ budget') (tree : Ast) (s : State) :
    Prolongs (setup.execute budget tree s) (setup.execute budget' tree s) := by
  cases tree with
  | variableDeclaration id part | assignment id part | printStatement part =>
    rw [execute, execute]
    exact prolongs_bind (setup.prolongs_evaluate more.1 s.env part) fun _ => prolongs_refl _
  | whileStatement test body =>
    rw [execute, execute]
    exact prolongs_repeatWhile (setup.prolongs_condition more s.env test)
      (prolongs_execute more body) more.2 s
  | block statements =>
    rw [execute, execute]
    exact prolongs_executeParts more statements s
  | _ => exact prolongs_refl _

theorem prolongs_executeParts (more : budget ≤ budget') (tree : Ast) (s : State) :
    Prolongs (setup.executeParts budget tree s) (setup.executeParts budget' tree s) := by
  cases tree with
  | list items =>
    rw [executeParts, executeParts]
    exact prolongs_executeAll more items s
  | scalar x => cases x <;> exact prolongs_refl _
  | _ => exact prolongs_refl _

theorem prolongs_executeAll (more : budget ≤ budget') (items : List Ast) (s : State) :
    Prolongs (setup.executeAll budget items s) (setup.executeAll budget' items s) := by
  cases items with
  | nil => exact prolongs_refl _
  | cons item items =>
    rw [executeAll, executeAll]
    exact prolongs_bind (prolongs_execute more item s) fun t => prolongs_executeAll more items t

end

/-- A run with more room comes to the same, unless it used up what it was allowed. -/
theorem run_of_le (more : budget ≤ budget') (program : Ast) :
    (setup.run budget program).result = .error .exhausted ∨
      setup.run budget program = setup.run budget' program := by
  cases block : program.block? with
  | error e =>
    right
    rw [setup.run_eq_of_no_block block, setup.run_eq_of_no_block block]
  | ok body =>
    rw [setup.run_eq_of_block block, setup.run_eq_of_block block]
    have longer := setup.prolongs_execute more body setup.firstState setup.firstWorld
    generalize (setup.execute budget body setup.firstState).run setup.firstWorld = x at longer ⊢
    cases longer with
    | cut u y => exact .inl rfl
    | same x => exact .inr rfl

end Setup

/-- Whether a step comes to a result once it is allowed enough. -/
def Settles {α : Type} (m : Budget → Machine α) (w : World) (x : EStateM.Result Failure World α) :
    Prop :=
  (∃ budget, (m budget).run w = x) ∧ ∀ u, x ≠ .error .exhausted u

theorem settles_congr {α : Type} {m m' : Budget → Machine α} {w : World}
    (there : ∀ budget, ∃ budget', Prolonged ((m budget).run w) ((m' budget').run w))
    (back : ∀ budget, ∃ budget', Prolonged ((m' budget).run w) ((m budget').run w))
    (x : EStateM.Result Failure World α) : Settles m w x ↔ Settles m' w x := by
  have onward {m m' : Budget → Machine α}
      (there : ∀ budget, ∃ budget', Prolonged ((m budget).run w) ((m' budget').run w)) :
      Settles m w x → Settles m' w x := by
    rintro ⟨⟨budget, rfl⟩, whole⟩
    obtain ⟨budget', longer⟩ := there budget
    exact ⟨⟨budget', (longer.eq whole).symm⟩, whole⟩
  exact ⟨onward there, onward back⟩

theorem Setup.settles_unique (setup : Setup) {tree : Ast} {s : State} {w : World}
    {x y : EStateM.Result Failure World State}
    (first : Settles (fun budget => setup.execute budget tree s) w x)
    (second : Settles (fun budget => setup.execute budget tree s) w y) : x = y := by
  obtain ⟨⟨b, rfl⟩, whole⟩ := first
  obtain ⟨⟨b', rfl⟩, whole'⟩ := second
  have top : b ≤ ⟨max b.calls b'.calls, max b.iterations b'.iterations⟩ :=
    ⟨Nat.le_max_left _ _, Nat.le_max_left _ _⟩
  have top' : b' ≤ ⟨max b.calls b'.calls, max b.iterations b'.iterations⟩ :=
    ⟨Nat.le_max_right _ _, Nat.le_max_right _ _⟩
  exact (Prolonged.eq (setup.prolongs_execute top tree s w) whole).trans
    (Prolonged.eq (setup.prolongs_execute top' tree s w) whole').symm

end DynamicScope
