import DynamicScope.Proofs.Origin.Passage

/-! The arrays that evaluation makes.
An evaluation makes an array at each end of an evaluation of an array literal in its course, and
nothing else. So the log with these arrays accounts for the world that it leaves, and has every
object in its value, if there are no native functions. -/

namespace DynamicScope

open Machine Origin

/-- What happens in a run: evaluations end and visits are made. -/
inductive Happening
  | evaluated (x : Evaluation)
  | visited (visit : Visit)

namespace Setup

variable (setup : Setup)

/-- The object that is made there: an array by the evaluation of an array literal, if it returns, and
a function by the execution of its declaration. -/
def made? : Happening → Option Value
  | .evaluated ⟨calls, env, .arrayLiteral elements, w⟩ =>
    match (setup.evaluate calls env (.arrayLiteral elements)).run w with
    | .ok v _ => some v
    | .error _ _ => none
  | .visited (.statement (.functionDeclaration _ parameters body) _ w) =>
    some (.function w.nextIdentity parameters body)
  | _ => none

def made (x : Evaluation) : List Value :=
  (setup.evaluations x).filterMap fun y => setup.made? (.evaluated y)

variable {setup}

theorem made_eq (x : Evaluation) :
    setup.made x = (setup.parts x).flatMap setup.made ++ (setup.made? (.evaluated x)).toList := by
  have here : [x].filterMap (fun y => setup.made? (.evaluated y)) =
      (setup.made? (.evaluated x)).toList := by
    cases h : setup.made? (.evaluated x) <;> simp [h]
  rw [made, evaluations_eq, List.filterMap_append, List.filterMap_flatMap, here]
  rfl

/-- Whatever an evaluation finds in the log is in it afterwards, with what the evaluation makes. -/
def Logs (setup : Setup) (x : Evaluation) : Prop :=
  ∀ log, x.world.Accounted log →
    Leaves (log ++ setup.made x) (Value.From (log ++ setup.made x))
      ((setup.evaluate x.calls x.env x.tree).run x.world)

abbrev PassesParts {α : Type} (setup : Setup) (log : List Value) (parts : List Evaluation)
    (R : List Value → α → Prop) (x : EStateM.Result Failure World α) : Prop :=
  Passage setup.made (fun log y => y.world.Accounted log) log parts R x

variable {log : List Value} {calls : Nat} {env : EnvRef} {w : World}

theorem Logs.single {tree : Ast} (h : setup.Logs ⟨calls, env, tree, w⟩) (here : w.Accounted log) :
    setup.PassesParts log [⟨calls, env, tree, w⟩] (fun log v => v.From log)
      ((setup.evaluate calls env tree).run w) :=
  .single here (h log here)

theorem passes_itemParts {items : List Ast} (here : w.Accounted log)
    (each : ∀ y ∈ setup.itemParts calls env items w, setup.Logs y) :
    setup.PassesParts log (setup.itemParts calls env items w) (fun log vs => ∀ v ∈ vs, v.From log)
      ((setup.evaluateAll (setup.entering calls) env items).run w) := by
  induction items generalizing log w with
  | nil => exact .quiet (.pure here nofun)
  | cons item items ih =>
    rw [evaluateAll_cons]
    refine (Logs.single (each _ (.head _)) here).cons fun log' a v _ world held ran => ?_
    refine (ih world fun y listed => ?_).last fun log'' vs u more world' others _ => ?_
    · exact each y (.tail _ (mem_following.mpr ⟨a, v, ran, listed⟩))
    · exact .pure world' (List.forall_mem_cons.mpr ⟨held.mono more, others⟩)

theorem passes_listParts {tree : Ast} (here : w.Accounted log)
    (each : ∀ y ∈ setup.listParts calls env tree w, setup.Logs y) :
    setup.PassesParts log (setup.listParts calls env tree w) (fun log vs => ∀ v ∈ vs, v.From log)
      ((setup.evaluateParts (setup.entering calls) env tree).run w) := by
  by_cases listed : ∃ items, tree = .list items
  · obtain ⟨items, rfl⟩ := listed
    exact passes_itemParts here each
  · have other : ∀ items, tree ≠ .list items := fun items same => listed ⟨items, same⟩
    have none : setup.listParts calls env tree w = [] := by
      unfold listParts
      split
      · exact absurd rfl (other _)
      · rfl
    rw [none, evaluateParts_of_ne_list _ _ _ other]
    exact .quiet (.bind (.lift here (R := fun _ => True) fun _ _ => trivial)
      fun _ _ world _ => .pure world nofun)

theorem leaves_callBuiltin (natives : setup.natives = []) (here : w.Accounted log) (f : Builtin)
    (vs : List Value) :
    Leaves log (fun v => v.From log) ((setup.callBuiltin f vs).run w) := by
  rw [run_callBuiltin]
  cases f with
  | math f =>
    cases applied : f.apply vs with
    | error e =>
      rw [answer, applied]
      exact .error here
    | ok v =>
      rw [answer, applied]
      exact .ok (here.skipped 0) (Value.from_of_isPlain (MathFunction.apply_isPlain applied))
  | native name arity index =>
    rw [answer, natives]
    exact .ok (here.skipped 0) Value.from_undefined

theorem passes_call (natives : setup.natives = []) (here : w.Accounted log) (name : Json) (f : Value)
    {vs : List Value} (given : ∀ v ∈ vs, v.From log)
    (inside : ∀ y ∈ setup.bodyParts name env vs calls (some f) w, setup.Logs y) :
    setup.PassesParts log (setup.bodyParts name env vs calls (some f) w) (fun log v => v.From log)
      ((setup.call (setup.entering calls) name f vs env).run w) := by
  have recorded := Leaves.record here setup 2 fun _ => do
    return .call (← name.plainText) (← Value.toTextAll vs)
  cases f with
  | builtin i f =>
    have none : setup.bodyParts name env vs calls (some (.builtin i f)) w = [] := by
      cases calls <;> rfl
    rw [none]
    exact .quiet (recorded.bind fun _ _ world _ => leaves_callBuiltin natives world f vs)
  | function i parameters body =>
    have entered : Leaves log (fun _ => True) ((setup.entrance name parameters vs env).run w) :=
      recorded.bind fun _ _ world _ => .callEnvironment world name parameters given env
    rw [call_function]
    cases calls with
    | zero => exact .quiet (entered.bind fun _ _ world _ => .throw world _)
    | succ calls =>
      refine .following entered fun inner u world _ ran => ?_
      exact Logs.single (inside _ (mem_following.mpr ⟨inner, u, ran, .head _⟩)) world
  | _ =>
    cases calls <;> exact .quiet (recorded.bind fun _ _ world _ => .throw world _)

theorem passes_parts (natives : setup.natives = []) {tree : Ast} (here : w.Accounted log)
    (parts : ∀ y ∈ setup.parts ⟨calls, env, tree, w⟩, setup.Logs y)
    (plain : ∀ elements, tree ≠ .arrayLiteral elements) :
    setup.PassesParts log (setup.parts ⟨calls, env, tree, w⟩) (fun log v => v.From log)
      ((setup.evaluate calls env tree).run w) := by
  have started {y : Evaluation} (h : setup.Starts ⟨calls, env, tree, w⟩ y) : setup.Logs y :=
    parts y (mem_parts.mpr h)
  have evaluated := setup.evaluate_eq calls
  cases tree with
  | numeral value =>
    rw [evaluated]
    refine .quiet (.bind (.lift here (R := fun _ => True) fun _ _ => trivial) fun x _ world _ => ?_)
    exact .pure world (Value.from_of_isPlain rfl)
  | booleanLiteral b =>
    rw [evaluated]
    exact .quiet (.pure here (Value.from_of_isPlain rfl))
  | identifier name =>
    rw [evaluated]
    refine .quiet (.bind (.lookup? here env name) fun f _ world held => ?_)
    cases f with
    | none => exact .throw world _
    | some v => exact .pure world (held v rfl)
  | unary operator part =>
    rw [evaluate_unary]
    refine (Logs.single (started .operand) here).last fun _ a _ _ world _ _ => ?_
    exact .lift world fun v ran => Value.from_of_isPlain (Value.unary_isPlain ran)
  | binary operator first second =>
    rw [evaluate_binary]
    refine (Logs.single (started .left) here).cons fun _ a _ _ world _ ran => ?_
    refine (Logs.single (started (.right ran)) world).last fun _ b _ _ world _ _ => ?_
    refine .bind (.record world _ _ _) fun _ _ world _ => ?_
    exact .lift world fun v ran => Value.from_of_isPlain (Value.binary_isPlain ran)
  | conditional test first second =>
    rw [evaluate_conditional]
    refine (Logs.single (started .test) here).cons fun _ a _ _ world _ ran => ?_
    have decided := Leaves.lift world (R := fun b => a.isTrue = .ok b) fun _ => id
    refine .following decided fun b _ _ truth unchanged => ?_
    obtain ⟨-, rfl⟩ := of_lift_ok unchanged
    exact Logs.single (started (.chosen ran truth)) world
  | arrayLiteral elements => exact absurd rfl (plain elements)
  | subscript array index =>
    rw [evaluate_subscript]
    refine (Logs.single (started .array) here).cons fun _ a _ _ world held ran => ?_
    refine (Logs.single (started (.index ran)) world).last fun _ b _ more world _ _ => ?_
    refine .lift world fun v read => ?_
    obtain ⟨i, items, rfl, listed | rfl⟩ := Value.subscript_mem read
    · exact (held.element listed).mono more
    · exact Value.from_undefined
  | call callee args =>
    rw [evaluated, evaluateWith]
    have named := Leaves.lift here (R := fun name => callee.name? = .ok name) fun _ => id
    refine .following named fun name _ _ named unchanged => ?_
    obtain ⟨-, rfl⟩ := of_lift_ok unchanged
    refine .following (.lookup? here env name) fun f _ _ _ found => ?_
    obtain rfl := of_lookup?_ok found
    refine .bind (passes_listParts here fun y listed => ?_) fun log' vs v _ world given ran => ?_
    · obtain ⟨before, item, later, vs, v, rfl, ran, rfl⟩ := mem_listParts.mp listed
      exact started (.argument named found ran)
    · cases f with
      | none =>
        have none : setup.bodyParts name env vs calls none v = [] := by cases calls <;> rfl
        rw [none]
        exact .quiet (.throw world _)
      | some f =>
        refine passes_call natives world name f given fun y listed => ?_
        obtain ⟨fewer, i, parameters, body, inner, u, rfl, same, entered, rfl⟩ :=
          mem_bodyParts.mp listed
        cases same
        exact started (.body named found ran entered)
  | _ =>
    rw [evaluated]
    exact .quiet (.throw here _)

theorem sequence_leaves (natives : setup.natives = []) (x : Evaluation)
    (parts : ∀ y ∈ setup.parts x, setup.Logs y) (here : x.world.Accounted log) :
    Sequence setup.made (fun log y => y.world.Accounted log) log (setup.parts x) ∧
      Leaves (log ++ setup.made x) (Value.From (log ++ setup.made x))
        ((setup.evaluate x.calls x.env x.tree).run x.world) := by
  obtain ⟨calls, env, tree, w⟩ := x
  rw [made_eq, ← List.append_assoc]
  by_cases literal : ∃ elements, tree = .arrayLiteral elements
  · -- The array is made last, after all that its elements have made.
    obtain ⟨elements, rfl⟩ := literal
    have items := passes_listParts here
      (show ∀ y ∈ setup.listParts calls env elements w, setup.Logs y from parts)
    refine ⟨items.sequence, ?_⟩
    have left := items.leaves
    rw [made?, run_arrayLiteral]
    cases ran : (setup.evaluateParts (setup.entering calls) env elements).run w with
    | ok vs v =>
      rw [ran] at left
      cases left with
      | ok world held => exact .ok (world.made rfl) (Value.from_array held)
    | error e v =>
      rw [ran] at left
      cases left with
      | error world =>
        dsimp only
        rw [Option.toList_none, List.append_nil]
        exact .error world
  · have none : setup.made? (.evaluated ⟨calls, env, tree, w⟩) = none := by
      unfold made?
      split
      · rename_i same
        cases same
        exact absurd ⟨_, rfl⟩ literal
      · rename_i same
        cases same
      · rfl
    have passed := passes_parts natives here parts fun elements same => literal ⟨elements, same⟩
    rw [none, Option.toList_none, List.append_nil]
    exact ⟨passed.sequence, passed.leaves⟩

theorem logs (natives : setup.natives = []) (x : Evaluation) : setup.Logs x := by
  induction x using inductionOnParts setup with
  | step x parts => exact fun log here => (sequence_leaves natives x parts here).2

theorem accounted_of_reached (natives : setup.natives = []) {x y : Evaluation}
    (path : Relation.ReflTransGen setup.Starts x y) (here : x.world.Accounted log) :
    ∃ log', y.world.Accounted log' ∧ log' ++ setup.made y <+: log ++ setup.made x := by
  induction path with
  | refl => exact ⟨log, here, List.prefix_refl _⟩
  | @tail y z _ started ih =>
    obtain ⟨before, there, within⟩ := ih
    have parts := (sequence_leaves natives y (fun part _ => logs natives part) there).1
    obtain ⟨log', first, inside⟩ := parts.of_mem (mem_parts.mpr started)
    refine ⟨log', first, inside.trans (.trans ?_ within)⟩
    rw [made_eq y, ← List.append_assoc]
    exact List.prefix_append _ _

end Setup

end DynamicScope
