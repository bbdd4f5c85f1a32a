import DynamicScope.Proofs.Run.Descent
import DynamicScope.Proofs.Value.Ample

/-! Where a run uses up what it is allowed.
An evaluation does so only at a call of a function of the language where no more calls may be nested,
and an execution without loops only in one of its evaluations. -/

namespace DynamicScope

namespace Ast

def isLoop : Ast → Bool
  | .whileStatement .. => true
  | _ => false

def Loopless (tree : Ast) : Prop := ∀ part, tree.Contains part → part.isLoop = false

theorem Loopless.child {tree part : Ast} (h : tree.Loopless) (listed : part ∈ tree.children) :
    part.Loopless := (forall_contains_iff.mp h).2 part listed

theorem ample_noParts (tree : Ast) : Ample (tree.noParts .notAnExpression) := by
  unfold noParts
  split
  · exact .ok _
  · split
    · exact .ok _
    · exact .error rfl
  · exact .error rfl

end Ast

theorem ample_callBindings (name : Json) (parameters : Ast) (arguments : List Value) :
    Ample (callBindings name parameters arguments) := by
  refine parameters.ample_count?.bind fun expected => ?_
  split
  · refine parameters.ample_parameterNames.bind fun names => ?_
    exact (Ample.mapM Name.ample_ofJson? names).bind fun _ => .ok _
  · exact .fault _

namespace Machine

variable {α β : Type} {w u : World}

def Ample (m : Machine α) : Prop := ∀ w u, m.run w ≠ .error .exhausted u

theorem ample_pure (a : α) : Ample (pure a : Machine α) := by
  intro w u same
  cases same

theorem ample_throw {e : Failure} (h : e.isExhausted = false) : Ample (throw e : Machine α) := by
  intro w u same
  cases same
  cases h

theorem ample_get : Ample (get : Machine World) := by
  intro w u same
  cases same

theorem ample_modifyGet (f : World → α × World) : Ample (modifyGet f : Machine α) := by
  intro w u same
  cases same

theorem ample_fault (f : Fault) : Ample (fault f : Machine α) := ample_throw f.isExhausted_raised

theorem ample_bind {m : Machine α} {f : α → Machine β} (first : Ample m)
    (rest : ∀ a, Ample (f a)) : Ample (m >>= f) := by
  intro w u failed
  rcases of_bind_error failed with failed | ⟨a, v, -, failed⟩
  · exact first w u failed
  · exact rest a v u failed

theorem ample_lift {x : Except Failure α} (h : DynamicScope.Ample x) : Ample (lift x) :=
  fun _ _ failed => h (of_lift_error failed)

theorem ample_freshIdentity : Ample freshIdentity := ample_modifyGet _

theorem ample_merged (env : EnvRef) (others : List (Name × Value)) : Ample (merged env others) :=
  ample_modifyGet _

theorem ample_lookup? (env : EnvRef) (name : Json) : Ample (lookup? env name) :=
  ample_bind (ample_lift (Name.ample_ofJson? name)) fun _ =>
    ample_bind (ample_bind ample_get fun _ => ample_pure _) fun _ => ample_pure _

theorem ample_read (env : EnvRef) (name : Json) : Ample (read env name) := by
  refine ample_bind (ample_lookup? env name) fun found => ?_
  cases found with
  | some value => exact ample_pure value
  | none => exact ample_fault _

theorem ample_assign (env : EnvRef) (name : Json) (value : Value) :
    Ample (assign env name value) := by
  intro w u failed
  rw [run_assign] at failed
  cases read : Name.ofJson? name with
  | error e =>
    rw [read] at failed
    cases failed
    exact Name.ample_ofJson? name read
  | ok key =>
    rw [read] at failed
    dsimp only at failed
    split at failed
    · cases failed
    · have reason := (Fault.assignmentToUndeclared name).isExhausted_raised
      rw [(EStateM.Result.error.inj failed).1] at reason
      cases reason

theorem ample_record {event : Unit → Except Failure Event} (h : DynamicScope.Ample (event ()))
    (setup : Setup) (level : Nat) : Ample (record setup level event) := by
  unfold record
  split
  · refine ample_bind (ample_lift h) fun e => ?_
    split
    · exact ample_throw rfl
    · exact ample_modifyGet _
  · exact ample_pure ()

end Machine

theorem State.ample_declare (s : State) (id : Ast) (value : Value) :
    Machine.Ample (s.declare id value) :=
  Machine.ample_bind (Machine.ample_lift (id.ample_name?.bind Name.ample_ofJson?)) fun _ =>
    Machine.ample_bind (Machine.ample_modifyGet _) fun _ => Machine.ample_pure _

namespace Setup

open Machine

variable {setup : Setup}

theorem ample_callBuiltin (natives : setup.natives = []) (f : Builtin) (vs : List Value) :
    Machine.Ample (setup.callBuiltin f vs) := by
  cases f with
  | math f => exact ample_lift (f.ample_apply vs)
  | native name arity index =>
    unfold callBuiltin
    rw [natives]
    exact ample_pure _

theorem ample_record_call (setup : Setup) (name : Json) (vs : List Value) :
    Machine.Ample (record setup 2 fun _ => do
      return .call (← name.plainText) (← Value.toTextAll vs)) :=
  ample_record (name.ample_plainText.bind fun _ => (Value.ample_toTextAll vs).bind fun _ => .ok _)
    setup 2

theorem ample_entrance (name : Json) (parameters : Ast) (vs : List Value) (env : EnvRef) :
    Machine.Ample (setup.entrance name parameters vs env) := by
  refine ample_bind (ample_record_call setup name vs) fun _ => ?_
  rw [callEnvironment_eq]
  exact ample_bind (ample_lift (ample_callBindings name parameters vs)) fun others =>
    ample_merged env others

variable (setup) in
/-- Whether a call of a function of the language is reached where no more calls may be nested. -/
def OutOfCalls (x : Evaluation) : Prop :=
  ∃ y, Relation.ReflTransGen setup.Starts x y ∧ y.calls = 0 ∧
    ∃ name parameters body, y.Calls name parameters body

theorem OutOfCalls.head {x y : Evaluation} (first : setup.Starts x y) (h : setup.OutOfCalls y) :
    setup.OutOfCalls x := by
  obtain ⟨z, path, found⟩ := h
  exact ⟨z, .head first path, found⟩

variable {calls : Nat} {env : EnvRef} {w u : World}

theorem item_of_exhausted {items : List Ast}
    (failed : (setup.evaluateAll (setup.entering calls) env items).run w = .error .exhausted u) :
    ∃ before item later vs v, items = before ++ item :: later ∧
      (setup.evaluateAll (setup.entering calls) env before).run w = .ok vs v ∧
      (setup.evaluate calls env item).run v = .error .exhausted u := by
  induction items generalizing w with
  | nil => cases failed
  | cons item items ih =>
    rw [evaluateAll_cons] at failed
    rcases of_bind_error failed with failed | ⟨a, v, ran, failed⟩
    · exact ⟨[], item, items, [], w, rfl, rfl, failed⟩
    rcases of_bind_error failed with failed | ⟨vs, v', -, failed⟩
    · obtain ⟨before, item', later, vs, v', rfl, ran', failed⟩ := ih failed
      refine ⟨item :: before, item', later, a :: vs, v', rfl, ?_, failed⟩
      rw [evaluateAll_cons, run_bind_of_ok ran, run_bind_of_ok ran']
      rfl
    · cases failed

theorem part_of_exhausted {tree : Ast}
    (failed : (setup.evaluateParts (setup.entering calls) env tree).run w = .error .exhausted u) :
    ∃ before item later vs v, tree = .list (before ++ item :: later) ∧
      (setup.evaluateAll (setup.entering calls) env before).run w = .ok vs v ∧
      (setup.evaluate calls env item).run v = .error .exhausted u := by
  by_cases listed : ∃ items, tree = .list items
  · obtain ⟨items, rfl⟩ := listed
    obtain ⟨before, item, later, vs, v, rfl, found⟩ := item_of_exhausted failed
    exact ⟨before, item, later, vs, v, rfl, found⟩
  · rw [evaluateParts_of_ne_list _ _ _ fun items same => listed ⟨items, same⟩] at failed
    exact absurd failed (ample_bind (ample_lift tree.ample_noParts) (fun _ => ample_pure _) w u)

theorem function_of_exhausted (natives : setup.natives = []) {name : Json} {f : Value}
    {vs : List Value}
    (failed : (setup.call (setup.entering calls) name f vs env).run w = .error .exhausted u) :
    ∃ i parameters body, f = .function i parameters body ∧
      ∀ fewer, calls = fewer + 1 → ∃ inner v,
        (setup.entrance name parameters vs env).run w = .ok inner v ∧
        (setup.evaluate fewer inner body).run v = .error .exhausted u := by
  have recorded := ample_record_call setup name vs
  cases f with
  | builtin i f =>
    exact absurd failed (ample_bind recorded (fun _ => ample_callBuiltin natives f vs) w u)
  | function i parameters body =>
    refine ⟨i, parameters, body, rfl, ?_⟩
    rintro fewer rfl
    rw [call_function] at failed
    rcases of_bind_error failed with failed | ⟨inner, v, entered, failed⟩
    · exact absurd failed (ample_entrance name parameters vs env w u)
    · exact ⟨inner, v, entered, failed⟩
  | _ => exact absurd failed (ample_bind recorded (fun _ => ample_fault _) w u)

theorem outOfCalls_of_exhausted (natives : setup.natives = []) (x : Evaluation)
    (failed : ∃ u, (setup.evaluate x.calls x.env x.tree).run x.world = .error .exhausted u) :
    setup.OutOfCalls x := by
  induction x using inductionOnParts setup with
  | step x ih =>
    obtain ⟨u, failed⟩ := failed
    have part {y : Evaluation} {u : World} (started : setup.Starts x y)
        (failed : (setup.evaluate y.calls y.env y.tree).run y.world = .error .exhausted u) :
        setup.OutOfCalls x := .head started (ih y (mem_parts.mpr started) ⟨u, failed⟩)
    obtain ⟨calls, env, tree, w⟩ := x
    dsimp only at failed
    cases tree with
    | numeral value =>
      rw [evaluate_eq, evaluateWith] at failed
      have read := ample_lift value.ample_numeralValue
      exact absurd failed (ample_bind read (fun x => ample_pure (Value.double x)) w u)
    | booleanLiteral b =>
      rw [evaluate_eq] at failed
      cases failed
    | identifier name =>
      rw [evaluate_eq, evaluateWith] at failed
      exact absurd failed (ample_read env name w u)
    | unary operator operand =>
      rw [evaluate_unary] at failed
      rcases of_bind_error failed with failed | ⟨a, v, -, failed⟩
      · exact part .operand failed
      · exact absurd failed (ample_lift (Value.ample_unary operator a) v u)
    | binary operator left right =>
      rw [evaluate_binary] at failed
      rcases of_bind_error failed with failed | ⟨a, v, ran, failed⟩
      · exact part .left failed
      rcases of_bind_error failed with failed | ⟨b, v', -, failed⟩
      · exact part (.right ran) failed
      have texts := (Value.ample_toText a).bind fun first =>
        operator.ample_plainText.bind fun symbol => (Value.ample_toText b).bind fun second =>
          Ample.ok (Event.binary first symbol second)
      have applied := ample_lift (Value.ample_binary operator a b)
      exact absurd failed (ample_bind (ample_record texts setup 3) (fun _ => applied) v' u)
    | conditional test first second =>
      rw [evaluate_conditional] at failed
      rcases of_bind_error failed with failed | ⟨a, v, ran, failed⟩
      · exact part .test failed
      rcases of_bind_error failed with failed | ⟨b, v', decided, failed⟩
      · exact absurd failed (ample_lift a.ample_isTrue v u)
      obtain ⟨truth, rfl⟩ := of_lift_ok decided
      exact part (.chosen ran truth) failed
    | arrayLiteral elements =>
      rw [run_arrayLiteral] at failed
      split at failed <;> cases failed
      rename_i failed
      obtain ⟨before, item, later, vs, v, rfl, ran, failed⟩ := part_of_exhausted failed
      exact part (.element ran) failed
    | subscript array index =>
      rw [evaluate_subscript] at failed
      rcases of_bind_error failed with failed | ⟨a, v, ran, failed⟩
      · exact part .array failed
      rcases of_bind_error failed with failed | ⟨b, v', -, failed⟩
      · exact part (.index ran) failed
      exact absurd failed (ample_lift (Value.ample_subscript a b) v' u)
    | call callee args =>
      rw [evaluate_eq, evaluateWith] at failed
      rcases of_bind_error failed with failed | ⟨name, v, ran, failed⟩
      · exact absurd failed (ample_lift callee.ample_name? w u)
      obtain ⟨named, rfl⟩ := of_lift_ok ran
      rcases of_bind_error failed with failed | ⟨f, v, found, failed⟩
      · exact absurd failed (ample_lookup? env name w u)
      obtain rfl := of_lookup?_ok found
      rcases of_bind_error failed with failed | ⟨vs, v, given, failed⟩
      · obtain ⟨before, item, later, vs, v, rfl, ran, failed⟩ := part_of_exhausted failed
        exact part (.argument named found ran) failed
      cases f with
      | none => exact absurd failed (ample_fault _ v u)
      | some f =>
        obtain ⟨i, parameters, body, rfl, entered⟩ := function_of_exhausted natives failed
        cases calls with
        | zero => exact ⟨_, .refl, rfl, name, parameters, body, callee, args, i, rfl, named, found⟩
        | succ fewer =>
          obtain ⟨inner, v', entered, failed⟩ := entered fewer rfl
          exact part (.body named found given entered) failed
    | _ =>
      rw [evaluate_eq] at failed
      cases failed

variable (budget : Budget)

def ExhaustedAt (setup : Setup) (budget : Budget) (visits : List Visit) : Prop :=
  ∃ visit ∈ visits, ∃ x, visit.evaluation? budget.calls = some x ∧
    ∃ u, (setup.evaluate x.calls x.env x.tree).run x.world = .error .exhausted u

theorem ExhaustedAt.of_subset {visits visits' : List Visit} (h : setup.ExhaustedAt budget visits)
    (more : visits ⊆ visits') : setup.ExhaustedAt budget visits' := by
  obtain ⟨visit, listed, found⟩ := h
  exact ⟨visit, more listed, found⟩

theorem exhaustedAt_of_first {tree part : Ast} {s : State} {f : Value → Machine State}
    (starts : (Visit.statement tree s w).evaluation? budget.calls =
      some ⟨budget.calls, s.env, part, w⟩)
    (rest : ∀ a, Machine.Ample (f a))
    (failed : (setup.evaluate budget.calls s.env part >>= f).run w = .error .exhausted u) :
    setup.ExhaustedAt budget [.statement tree s w] := by
  rcases of_bind_error failed with failed | ⟨a, v, -, failed⟩
  · exact ⟨_, .head _, _, starts, u, failed⟩
  · exact absurd failed (rest a v u)

mutual

theorem exhaustedAt_of_execute (tree : Ast) (loopless : tree.Loopless) (s : State) (w u : World)
    (failed : (setup.execute budget tree s).run w = .error .exhausted u) :
    setup.ExhaustedAt budget (setup.visits budget tree s w) := by
  cases tree with
  | variableDeclaration id part =>
    rw [execute] at failed
    refine exhaustedAt_of_first budget rfl (fun a => ?_) failed
    have text := id.ample_name?.bind fun name => name.ample_plainText.bind fun shown =>
      a.ample_toText.bind fun text => Ample.ok (Event.declaration shown text)
    exact ample_bind (ample_record text setup 2) fun _ => s.ample_declare id a
  | functionDeclaration id parameters body =>
    rw [execute] at failed
    have text := id.ample_name?.bind fun name => name.ample_plainText.bind fun shown =>
      (Value.ample_functionText parameters).bind fun text => Ample.ok (Event.definition shown text)
    refine absurd failed (ample_bind ample_freshIdentity (fun i => ?_) w u)
    exact ample_bind (ample_record text setup 2) fun _ => s.ample_declare id _
  | assignment id part =>
    rw [execute] at failed
    refine exhaustedAt_of_first budget rfl (fun a => ?_) failed
    refine ample_bind (ample_lift id.ample_name?) fun name =>
      ample_bind (ample_assign s.env name a) fun _ => ?_
    have text := name.ample_plainText.bind fun shown => a.ample_toText.bind fun text =>
      Ample.ok (Event.assignment shown text)
    exact ample_bind (ample_record text setup 2) fun _ => ample_pure s
  | printStatement part =>
    rw [execute] at failed
    refine exhaustedAt_of_first budget rfl (fun a => ?_) failed
    have text := a.ample_toText.bind fun text => Ample.ok (Event.print text)
    exact ample_bind (ample_record text setup 2) fun _ =>
      ample_bind ample_freshIdentity fun _ => ample_pure _
  | whileStatement test body => cases loopless _ .refl
  | block statements =>
    rw [execute] at failed
    exact exhaustedAt_of_executeParts statements (loopless.child (.head _)) s w u failed
  | _ => cases failed

theorem exhaustedAt_of_executeParts (tree : Ast) (loopless : tree.Loopless) (s : State)
    (w u : World) (failed : (setup.executeParts budget tree s).run w = .error .exhausted u) :
    setup.ExhaustedAt budget (setup.partVisits budget tree s w) := by
  cases tree with
  | list items =>
    rw [executeParts] at failed
    exact exhaustedAt_of_executeAll items (fun item listed => loopless.child listed) s w u failed
  | scalar c =>
    cases c with
    | string t =>
      rw [executeParts] at failed
      split at failed <;> cases failed
    | _ => cases failed
  | _ => cases failed

theorem exhaustedAt_of_executeAll (items : List Ast) (loopless : ∀ item ∈ items, item.Loopless)
    (s : State) (w u : World)
    (failed : (setup.executeAll budget items s).run w = .error .exhausted u) :
    setup.ExhaustedAt budget (setup.allVisits budget items s w) := by
  cases items with
  | nil => cases failed
  | cons item items =>
    obtain ⟨head, tail⟩ := List.forall_mem_cons.mp loopless
    rw [executeAll] at failed
    rw [allVisits]
    rcases of_bind_error failed with failed | ⟨t, v, ran, failed⟩
    · exact (exhaustedAt_of_execute item head s w u failed).of_subset _ (List.subset_append_left _ _)
    · rw [ran]
      exact (exhaustedAt_of_executeAll items tail t v u failed).of_subset _
        (List.subset_append_right _ _)

end

end Setup

end DynamicScope
