import DynamicScope.Run.Evaluate

/-! What single steps of the machine do to the world.
The steps that only look at the world are given by what they answer; the two that can answer in
several ways, recording an event and calling a library or native function, are given by a function
without a world. -/

namespace DynamicScope

theorem ok_bind {ε α β : Type} (a : α) (f : α → Except ε β) :
    (Except.ok a >>= f) = f a := rfl

/-- What a tree that is no list of trees comes to where such a list is due. -/
def Ast.noParts (unexpected : String → Failure) : Ast → Except Failure Unit
  | .list _ => .ok ()
  | .scalar (.string t) =>
    if t.codes.isEmpty then .ok () else .error (unexpected (Scalar.string t).className)
  | tree => .error (.notAList tree.className)

def Ast.isExpression : Ast → Bool
  | .numeral _ | .booleanLiteral _ | .identifier _ | .unary .. | .binary .. | .conditional ..
  | .arrayLiteral _ | .subscript .. | .call .. => true
  | _ => false

namespace Machine

variable {α β : Type}

def after (m : Machine α) (w : World) : World :=
  match m.run w with
  | .ok _ v => v
  | .error _ v => v

theorem after_of_ok {m : Machine α} {w v : World} {a : α} (h : m.run w = .ok a v) :
    m.after w = v := by rw [after, h]

theorem run_lift (x : Except Failure α) (w : World) :
    (lift x).run w = match x with
      | .ok a => .ok a w
      | .error e => .error e w := by cases x <;> rfl

theorem lift_ok_bind (a : α) (f : α → Machine β) : (lift (.ok a) >>= f) = f a := rfl

theorem after_bind (m : Machine α) (f : α → Machine β) (w : World) :
    (m >>= f).after w = match m.run w with
      | .ok a v => (f a).after v
      | .error _ v => v := by
  simp only [after, EStateM.run_bind]
  cases m.run w <;> rfl

def recorded (setup : Setup) (level : Nat) (event : Unit → Except Failure Event) :
    Except Failure (Option Event) :=
  if level ≤ setup.level then do
    let e ← event ()
    match e.text.surrogateRun? with
    | some run => .error (.unwritable run)
    | none => return some e
  else .ok none

theorem of_recorded {setup : Setup} {level : Nat} {event : Unit → Except Failure Event}
    {e : Event} (h : recorded setup level event = .ok (some e)) :
    event () = .ok e ∧ e.text.surrogateRun? = none := by
  unfold recorded at h
  split at h
  · cases formed : event () with
    | error f =>
      rw [formed] at h
      cases h
    | ok e' =>
      rw [formed, ok_bind] at h
      split at h
      · cases h
      · cases h
        exact ⟨rfl, ‹_›⟩
  · cases h

theorem lt_of_recorded_none {setup : Setup} {level : Nat} {event : Unit → Except Failure Event}
    (h : recorded setup level event = .ok none) : setup.level < level := by
  unfold recorded at h
  split at h
  · cases formed : event () with
    | error f =>
      rw [formed] at h
      cases h
    | ok e' =>
      rw [formed, ok_bind] at h
      split at h <;> cases h
  · exact Nat.lt_of_not_le ‹_›

theorem run_record (setup : Setup) (level : Nat) (event : Unit → Except Failure Event)
    (w : World) :
    (record setup level event).run w = match recorded setup level event with
      | .ok (some e) => .ok () { w with trace := w.trace.push e }
      | .ok none => .ok () w
      | .error e => .error e w := by
  unfold record recorded
  by_cases shown : level ≤ setup.level
  · simp only [if_pos shown, EStateM.run_bind, run_lift]
    cases event () with
    | error e => rfl
    | ok e =>
      simp only [bind, Except.bind]
      cases e.text.surrogateRun? <;> rfl
  · simp only [if_neg shown]
    rfl

theorem run_assign (env : EnvRef) (name : Json) (value : Value) (w : World) :
    (assign env name value).run w = match Name.ofJson? name with
      | .ok key =>
        if (w.store.bindings env).binds key then
          .ok () { w with store := w.store.overwrite env key value }
        else .error (Fault.assignmentToUndeclared name).raised w
      | .error e => .error e w := by
  unfold assign
  cases Name.ofJson? name with
  | error e => rfl
  | ok key =>
    rw [lift_ok_bind, EStateM.run_bind]
    simp only [bindings, EStateM.run_bind, EStateM.run_get, EStateM.run_pure]
    cases (w.store.bindings env).binds key <;> rfl

end Machine

def callBindings (name : Json) (parameters : Ast) (arguments : List Value) :
    Except Failure (List (Name × Value)) := do
  let expected ← parameters.count?
  if arguments.length = expected then
    let names ← parameters.parameterNames
    let keys ← names.mapM Name.ofJson?
    return keys.zip arguments
  else Value.fault (.arity name expected arguments.length)

theorem callEnvironment_eq (name : Json) (parameters : Ast) (arguments : List Value)
    (env : EnvRef) :
    callEnvironment name parameters arguments env =
      Machine.lift (callBindings name parameters arguments) >>= Machine.merged env := by
  unfold callEnvironment callBindings
  cases parameters.count? with
  | error e => rfl
  | ok expected =>
    rw [Machine.lift_ok_bind, ok_bind]
    split
    · cases parameters.parameterNames with
      | error e => rfl
      | ok names =>
        rw [Machine.lift_ok_bind, ok_bind]
        cases names.mapM Name.ofJson? <;> rfl
    · rfl

theorem run_callEnvironment (name : Json) (parameters : Ast) (arguments : List Value)
    (env : EnvRef) (w : World) :
    (callEnvironment name parameters arguments env).run w =
      match callBindings name parameters arguments with
      | .ok others =>
        .ok (w.store.merged env others).1 { w with store := (w.store.merged env others).2 }
      | .error e => .error e w := by
  rw [callEnvironment_eq]
  cases callBindings name parameters arguments <;> rfl

namespace Setup

open Machine

/-- What a native or library function answers when so many identities are used up, and how many
more the answer uses. -/
def answer (setup : Setup) (f : Builtin) (next : Nat) (arguments : List Value) :
    Except Failure (Value × Nat) :=
  match f with
  | .math f => do return (← f.apply arguments, 0)
  | .native _ _ index =>
    match setup.natives[index]? with
    | some (_, native) => native.apply next arguments
    | none => .ok (.undefined, 0)

theorem run_callBuiltin (setup : Setup) (f : Builtin) (arguments : List Value) (w : World) :
    (setup.callBuiltin f arguments).run w =
      match setup.answer f w.nextIdentity arguments with
      | .ok (value, used) => .ok value { w with nextIdentity := w.nextIdentity + used }
      | .error e => .error e w := by
  cases f with
  | math f =>
    simp only [callBuiltin, answer, run_lift]
    cases f.apply arguments <;> rfl
  | native name arity index =>
    simp only [callBuiltin, answer]
    cases setup.natives[index]? with
    | none => rfl
    | some entry =>
      simp only [EStateM.run_bind, EStateM.run_get, run_lift]
      rcases entry.2.apply w.nextIdentity arguments with e | ⟨value, used⟩ <;> rfl

theorem call_of_kind_ne (setup : Setup) (enter : BodyEvaluator) (name : Json) {f : Value}
    (arguments : List Value) (env : EnvRef) (h : f.kind ≠ .function) :
    setup.call enter name f arguments env = (do
      record setup 2 fun _ => do return .call (← name.plainText) (← Value.toTextAll arguments)
      fault (.notAFunction name f.kind)) := by
  cases f with
  | builtin identity f => exact absurd rfl h
  | function identity parameters body => exact absurd rfl h
  | _ => rfl

theorem evaluateWith_of_not_isExpression (setup : Setup) (enter : BodyEvaluator) (env : EnvRef)
    {tree : Ast} (h : tree.isExpression = false) :
    setup.evaluateWith enter env tree = throw (.notAnExpression tree.qualifiedClass) := by
  cases tree <;> first | rfl | cases h

theorem evaluateParts_of_ne_list (setup : Setup) (enter : BodyEvaluator) (env : EnvRef)
    {tree : Ast} (h : ∀ items, tree ≠ .list items) :
    setup.evaluateParts enter env tree = (do
      lift (tree.noParts .notAnExpression)
      return []) := by
  cases tree with
  | list items => exact absurd rfl (h items)
  | scalar s =>
    cases s with
    | string t =>
      rw [evaluateParts, Ast.noParts]
      split <;> rfl
    | _ => rfl
  | _ => rfl

end Setup

end DynamicScope
