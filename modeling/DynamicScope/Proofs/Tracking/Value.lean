import DynamicScope.Proofs.Run.Growth

/-! Values of expressions in bindings alone.
Evaluation never changes an environment, so an expression has its value in the bindings that it
finds, and no environments are needed to say what it is: a call binds its parameters over the bindings
at hand. All that a step changes is the supply of identities and the trace. Evaluation in an
environment comes to the same as evaluation in its bindings. -/

namespace DynamicScope

/-- What evaluation uses up: the identities to come, and the trace so far. -/
structure Supply where
  nextIdentity : Nat
  trace : Array Event

abbrev Supplied := EStateM Failure Supply

namespace Supplied

def lift {α : Type} : Except Failure α → Supplied α
  | .ok a => pure a
  | .error e => throw e

def freshIdentity : Supplied Nat :=
  modifyGet fun x => (x.nextIdentity, { x with nextIdentity := x.nextIdentity + 1 })

def record (setup : Setup) (level : Nat) (event : Unit → Except Failure Event) : Supplied Unit := do
  match ← lift (Machine.recorded setup level event) with
  | some e => modify fun x => { x with trace := x.trace.push e }
  | none => pure ()

end Supplied

namespace Bindings

def lookup? (b : Bindings) (name : Json) : Except Failure (Option Value) := do
  return b.present? (← Name.ofJson? name)

def read (b : Bindings) (name : Json) : Except Failure Value := do
  match ← b.lookup? name with
  | some value => return value
  | none => Value.fault (.undeclared name)

end Bindings

namespace Setup

open Supplied

def builtinValue (setup : Setup) (f : Builtin) (arguments : List Value) : Supplied Value := do
  let x ← get
  let (value, used) ← lift (setup.answer f x.nextIdentity arguments)
  set { x with nextIdentity := x.nextIdentity + used }
  return value

/-- The value of a call in the given bindings, where `enter` evaluates the bodies of functions. -/
def callValue (setup : Setup) (enter : Bindings → Ast → Supplied Value) (b : Bindings)
    (name : Json) (f : Value) (arguments : List Value) : Supplied Value := do
  record setup 2 fun _ => do return .call (← name.plainText) (← Value.toTextAll arguments)
  match f with
  | .builtin _ f => setup.builtinValue f arguments
  | .function _ parameters body =>
    let others ← lift (callBindings name parameters arguments)
    enter (b.insertAll others) body
  | value => throw (Fault.notAFunction name value.kind).raised

mutual

def valueWith (setup : Setup) (enter : Bindings → Ast → Supplied Value) (b : Bindings) :
    Ast → Supplied Value
  | .numeral value => do return .double (← lift value.numeralValue)
  | .booleanLiteral truth => return .boolean truth
  | .identifier name => lift (b.read name)
  | .unary operator expression => do
    let operand ← setup.valueWith enter b expression
    lift (Value.unary operator operand)
  | .binary operator left right => do
    let first ← setup.valueWith enter b left
    let second ← setup.valueWith enter b right
    record setup 3 fun _ => do
      return .binary (← first.toText) (← operator.plainText) (← second.toText)
    lift (Value.binary operator first second)
  | .conditional test consequent alternate => do
    let value ← setup.valueWith enter b test
    if ← lift value.isTrue then setup.valueWith enter b consequent
    else setup.valueWith enter b alternate
  | .arrayLiteral elements => do
    let items ← setup.partValues enter b elements
    return .array (← freshIdentity) items
  | .subscript array index => do
    let target ← setup.valueWith enter b array
    let place ← setup.valueWith enter b index
    lift (Value.subscript target place)
  | .call callee args => do
    let name ← lift callee.name?
    let f ← lift (b.lookup? name)
    let arguments ← setup.partValues enter b args
    match f with
    | some f => setup.callValue enter b name f arguments
    | none => throw (Fault.undeclared name).raised
  | tree => throw (.notAnExpression tree.qualifiedClass)

def partValues (setup : Setup) (enter : Bindings → Ast → Supplied Value) (b : Bindings) :
    Ast → Supplied (List Value)
  | .list items => setup.allValues enter b items
  | tree => do
    lift (tree.noParts .notAnExpression)
    return []

def allValues (setup : Setup) (enter : Bindings → Ast → Supplied Value) (b : Bindings) :
    List Ast → Supplied (List Value)
  | [] => return []
  | item :: items => do
    let value ← setup.valueWith enter b item
    return value :: (← setup.allValues enter b items)

end

def value (setup : Setup) : Nat → Bindings → Ast → Supplied Value
  | 0 => setup.valueWith fun _ _ => throw .exhausted
  | calls + 1 => setup.valueWith (setup.value calls)

end Setup

def World.supply (w : World) : Supply := ⟨w.nextIdentity, w.trace⟩

namespace Machine

variable {α β : Type} {env : EnvRef} {b : Bindings}

def supplied : EStateM.Result Failure World α → EStateM.Result Failure Supply α
  | .ok a w => .ok a w.supply
  | .error e w => .error e w.supply

/-- A step that does without environments what the other does wherever an environment has the given
bindings. -/
def Agrees (env : EnvRef) (b : Bindings) (m : Machine α) (c : Supplied α) : Prop :=
  ∀ w : World, env < w.size → w.bindings env = b → c.run w.supply = supplied (m.run w)

theorem agrees_pure (a : α) : Agrees env b (pure a) (pure a) := fun _ _ _ => rfl

theorem agrees_throw (e : Failure) : Agrees env b (throw e : Machine α) (throw e) :=
  fun _ _ _ => rfl

theorem agrees_lift (x : Except Failure α) : Agrees env b (lift x) (Supplied.lift x) := by
  intro w _ _
  cases x <;> rfl

theorem agrees_bind {m : Machine α} {c : Supplied α} {f : α → Machine β} {g : α → Supplied β}
    (first : Agrees env b m c) (grows : Grows m) (rest : ∀ a, Agrees env b (f a) (g a)) :
    Agrees env b (m >>= f) (c >>= g) := by
  intro w there same
  rw [EStateM.run_bind, EStateM.run_bind, first w there same]
  cases ran : m.run w with
  | error e v => rfl
  | ok a v =>
    have grown := grows.le_of_ok ran
    exact rest a v (Nat.lt_of_lt_of_le there (World.size_le grown))
      ((World.bindings_eq grown there).trans same)

theorem agrees_record (setup : Setup) (level : Nat) (event : Unit → Except Failure Event) :
    Agrees env b (record setup level event) (Supplied.record setup level event) := by
  intro w _ _
  rw [run_record, Supplied.record, EStateM.run_bind]
  rcases recorded setup level event with e | (_ | e) <;> rfl

theorem agrees_freshIdentity : Agrees env b freshIdentity Supplied.freshIdentity :=
  fun _ _ _ => rfl

theorem agrees_lookup? (name : Json) :
    Agrees env b (lookup? env name) (Supplied.lift (b.lookup? name)) := by
  rintro w _ rfl
  unfold lookup? Bindings.lookup?
  cases Name.ofJson? name <;> rfl

theorem agrees_read (name : Json) : Agrees env b (read env name) (Supplied.lift (b.read name)) := by
  rintro w _ rfl
  unfold read lookup? Bindings.read Bindings.lookup?
  cases Name.ofJson? name with
  | error e => rfl
  | ok key =>
    change _ = supplied (EStateM.run (match (w.bindings env).present? key with
      | some value => pure value
      | none => fault (.undeclared name)) w)
    cases found : (w.bindings env).present? key <;> simp [ok_bind, found] <;> rfl

theorem agrees_callBuiltin (setup : Setup) (f : Builtin) (arguments : List Value) :
    Agrees env b (setup.callBuiltin f arguments) (setup.builtinValue f arguments) := by
  intro w _ _
  rw [Setup.run_callBuiltin, Setup.builtinValue]
  change EStateM.run (Supplied.lift (setup.answer f w.nextIdentity arguments) >>= _) w.supply = _
  rcases setup.answer f w.nextIdentity arguments with e | ⟨value, used⟩ <;> rfl

/-- Ways of evaluating bodies, in environments and in bindings, that agree. -/
structure Enters (enter : BodyEvaluator) (enter' : Bindings → Ast → Supplied Value) : Prop where
  grows (env : EnvRef) (body : Ast) : Grows (enter env body)
  agrees (env : EnvRef) (b : Bindings) (body : Ast) : Agrees env b (enter env body) (enter' b body)

section Evaluation

variable (setup : Setup) {enter : BodyEvaluator} {enter' : Bindings → Ast → Supplied Value}

theorem agrees_enter (inside : Enters enter enter') (others : List (Name × Value))
    (body : Ast) :
    Agrees env b (merged env others >>= fun inner => enter inner body)
      (enter' (b.insertAll others) body) := by
  rintro w there rfl
  have bound := Store.bindings_new_self w.store ((w.bindings env).insertAll others)
  exact inside.agrees _ _ body { w with store := (w.store.merged env others).2 }
    (by simp [World.size, Store.merged]) bound

theorem agrees_call (inside : Enters enter enter') (name : Json) (f : Value)
    (arguments : List Value) :
    Agrees env b (setup.call enter name f arguments env)
      (setup.callValue enter' b name f arguments) := by
  refine agrees_bind (agrees_record _ _ _) (grows_record _ _ _) fun _ => ?_
  cases f with
  | builtin i f => exact agrees_callBuiltin setup f arguments
  | function i parameters body =>
    simp only [callEnvironment_eq, bind_assoc]
    exact agrees_bind (agrees_lift _) (grows_lift _) fun others =>
      agrees_enter inside others body
  | _ => exact agrees_throw _

mutual

theorem agrees_evaluateWith (inside : Enters enter enter') (tree : Ast) :
    Agrees env b (setup.evaluateWith enter env tree) (setup.valueWith enter' b tree) := by
  cases tree with
  | numeral value =>
    exact agrees_bind (agrees_lift _) (grows_lift _) fun x => agrees_pure _
  | booleanLiteral truth => exact agrees_pure _
  | identifier name => exact agrees_read name
  | unary operator expression =>
    rw [Setup.evaluateWith, Setup.valueWith]
    exact agrees_bind (agrees_evaluateWith inside expression)
      (setup.grows_evaluateWith inside.grows env _)
      fun operand => agrees_lift _
  | binary operator left right =>
    rw [Setup.evaluateWith, Setup.valueWith]
    refine agrees_bind (agrees_evaluateWith inside left) (setup.grows_evaluateWith inside.grows env _)
      fun first => ?_
    refine agrees_bind (agrees_evaluateWith inside right) (setup.grows_evaluateWith inside.grows env _)
      fun second => ?_
    exact agrees_bind (agrees_record _ _ _) (grows_record _ _ _) fun _ => agrees_lift _
  | conditional test consequent alternate =>
    rw [Setup.evaluateWith, Setup.valueWith]
    refine agrees_bind (agrees_evaluateWith inside test) (setup.grows_evaluateWith inside.grows env _)
      fun value => ?_
    refine agrees_bind (agrees_lift _) (grows_lift _) fun chosen => ?_
    cases chosen with
    | true => exact agrees_evaluateWith inside consequent
    | false => exact agrees_evaluateWith inside alternate
  | arrayLiteral elements =>
    rw [Setup.evaluateWith, Setup.valueWith]
    exact agrees_bind (agrees_evaluateParts inside elements)
      (setup.grows_evaluateParts inside.grows env _)
      fun items => agrees_bind agrees_freshIdentity grows_freshIdentity fun i => agrees_pure _
  | subscript array index =>
    rw [Setup.evaluateWith, Setup.valueWith]
    exact agrees_bind (agrees_evaluateWith inside array) (setup.grows_evaluateWith inside.grows env _)
      fun target => agrees_bind (agrees_evaluateWith inside index)
        (setup.grows_evaluateWith inside.grows env _)
        fun place => agrees_lift _
  | call callee args =>
    rw [Setup.evaluateWith, Setup.valueWith]
    refine agrees_bind (agrees_lift _) (grows_lift _) fun name => ?_
    refine agrees_bind (agrees_lookup? name) (grows_lookup? env name) fun found => ?_
    refine agrees_bind (agrees_evaluateParts inside args) (setup.grows_evaluateParts inside.grows env _)
      fun arguments => ?_
    cases found with
    | none => exact agrees_throw _
    | some f => exact agrees_call setup inside name f arguments
  | _ => exact agrees_throw _

theorem agrees_evaluateParts (inside : Enters enter enter') (tree : Ast) :
    Agrees env b (setup.evaluateParts enter env tree) (setup.partValues enter' b tree) := by
  by_cases listed : ∃ items, tree = .list items
  · obtain ⟨items, rfl⟩ := listed
    rw [Setup.evaluateParts, Setup.partValues]
    exact agrees_evaluateAll inside items
  · have other : ∀ items, tree ≠ .list items := fun items same => listed ⟨items, same⟩
    rw [setup.evaluateParts_of_ne_list _ _ other, Setup.partValues]
    · exact agrees_bind (agrees_lift _) (grows_lift _) fun _ => agrees_pure _
    · exact other

theorem agrees_evaluateAll (inside : Enters enter enter') (items : List Ast) :
    Agrees env b (setup.evaluateAll enter env items) (setup.allValues enter' b items) := by
  cases items with
  | nil => exact agrees_pure _
  | cons item items =>
    rw [Setup.evaluateAll, Setup.allValues]
    exact agrees_bind (agrees_evaluateWith inside item) (setup.grows_evaluateWith inside.grows env _)
      fun first => agrees_bind (agrees_evaluateAll inside items)
        (setup.grows_evaluateAll inside.grows env _)
        fun rest => agrees_pure _

end

end Evaluation

theorem agrees_evaluate (setup : Setup) (calls : Nat) (tree : Ast) :
    Agrees env b (setup.evaluate calls env tree) (setup.value calls b tree) := by
  induction calls generalizing env b tree with
  | zero =>
    exact agrees_evaluateWith setup ⟨fun _ _ => grows_throw _, fun _ _ _ => agrees_throw _⟩ tree
  | succ calls ih =>
    exact agrees_evaluateWith setup ⟨setup.grows_evaluate calls, fun _ _ body => ih body⟩ tree

end Machine

end DynamicScope
