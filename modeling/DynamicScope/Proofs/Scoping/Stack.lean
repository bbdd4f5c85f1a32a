import DynamicScope.Proofs.Tracking.Value

/-! Dynamic scoping as a stack of frames.
A call need not copy the environment of its caller: it is enough to put a frame with the parameters
on the frames of the calls around it. A name then stands for what the innermost frame with a
parameter of that name gives it, and for what the top environment gives it if there is none.
Evaluation in copied environments comes to the same. -/

namespace DynamicScope

/-- The parameters of a call with the arguments given for them, in the order of the parameters. -/
abbrev Frame := List (Name × Value)

def Frame.argument? (frame : Frame) (name : Name) : Option Value :=
  (frame.reverse.find? fun entry => entry.1.key = name.key).map Prod.snd

/-- Where names are resolved: an environment, and the calls inside which it is seen. -/
structure Scope where
  top : Bindings
  /-- The frames of the calls, from the innermost one on. -/
  frames : List Frame

namespace Scope

def push (scope : Scope) (frame : Frame) : Scope := { scope with frames := frame :: scope.frames }

/-- What a name is first found to be, from the innermost frame outwards. -/
def hit? (scope : Scope) (name : Name) : Option Value :=
  (scope.frames.findSome? fun frame => frame.argument? name).or (scope.top.value? name)

/-- The value of a name. If what it is first found to be counts as absent, the search ends there. -/
def resolve? (scope : Scope) (name : Json) : Except Failure (Option Value) := do
  let key ← Name.ofJson? name
  return (scope.hit? key).filter Value.isPresent

end Scope

theorem Bindings.value?_insertAll (b : Bindings) (frame : Frame) (name : Name) :
    (b.insertAll frame).value? name = (frame.argument? name).or (b.value? name) := by
  induction frame generalizing b with
  | nil => rfl
  | cons entry rest ih =>
    have first := value?_insert b entry.1 name entry.2
    have later : (b.insertAll (entry :: rest)).value? name =
        (Frame.argument? rest name).or ((b.insert entry.1 entry.2).value? name) := ih _
    rw [later, first, Frame.argument?, Frame.argument?, List.reverse_cons, List.find?_append,
      List.find?_singleton, Option.map_or, Option.or_assoc]
    by_cases here : entry.1.key = name.key <;> simp [here]

/-- Bindings in which every name is what it is first found to be in a scope. -/
def Bindings.Flattens (b : Bindings) (scope : Scope) : Prop :=
  ∀ name, b.value? name = scope.hit? name

namespace Bindings.Flattens

variable {b : Bindings} {scope : Scope}

theorem top (b : Bindings) : b.Flattens ⟨b, []⟩ := fun _ => rfl

theorem push (h : b.Flattens scope) (frame : Frame) :
    (b.insertAll frame).Flattens (scope.push frame) := by
  intro name
  rw [value?_insertAll, h name]
  unfold Scope.hit? Scope.push
  rw [List.findSome?_cons]
  cases frame.argument? name <;> rfl

theorem lookup? (h : b.Flattens scope) (name : Json) : b.lookup? name = scope.resolve? name := by
  unfold Bindings.lookup? Scope.resolve? Bindings.present?
  simp only [h _]

end Bindings.Flattens

namespace Setup

open Supplied

def scopeCall (setup : Setup) (enter : Scope → Ast → Supplied Value) (scope : Scope)
    (name : Json) (f : Value) (arguments : List Value) : Supplied Value := do
  record setup 2 fun _ => do return .call (← name.plainText) (← Value.toTextAll arguments)
  match f with
  | .builtin _ f => setup.builtinValue f arguments
  | .function _ parameters body =>
    let frame ← lift (callBindings name parameters arguments)
    enter (scope.push frame) body
  | value => throw (Fault.notAFunction name value.kind).raised

mutual

def scopeValueWith (setup : Setup) (enter : Scope → Ast → Supplied Value) (scope : Scope) :
    Ast → Supplied Value
  | .numeral value => do return .double (← lift value.numeralValue)
  | .booleanLiteral truth => return .boolean truth
  | .identifier name => do
    match ← lift (scope.resolve? name) with
    | some value => return value
    | none => throw (Fault.undeclared name).raised
  | .unary operator expression => do
    let operand ← setup.scopeValueWith enter scope expression
    lift (Value.unary operator operand)
  | .binary operator left right => do
    let first ← setup.scopeValueWith enter scope left
    let second ← setup.scopeValueWith enter scope right
    record setup 3 fun _ => do
      return .binary (← first.toText) (← operator.plainText) (← second.toText)
    lift (Value.binary operator first second)
  | .conditional test consequent alternate => do
    let value ← setup.scopeValueWith enter scope test
    if ← lift value.isTrue then setup.scopeValueWith enter scope consequent
    else setup.scopeValueWith enter scope alternate
  | .arrayLiteral elements => do
    let items ← setup.scopeParts enter scope elements
    return .array (← freshIdentity) items
  | .subscript array index => do
    let target ← setup.scopeValueWith enter scope array
    let place ← setup.scopeValueWith enter scope index
    lift (Value.subscript target place)
  | .call callee args => do
    let name ← lift callee.name?
    let f ← lift (scope.resolve? name)
    let arguments ← setup.scopeParts enter scope args
    match f with
    | some f => setup.scopeCall enter scope name f arguments
    | none => throw (Fault.undeclared name).raised
  | tree => throw (.notAnExpression tree.qualifiedClass)

def scopeParts (setup : Setup) (enter : Scope → Ast → Supplied Value) (scope : Scope) :
    Ast → Supplied (List Value)
  | .list items => setup.scopeAll enter scope items
  | tree => do
    lift (tree.noParts .notAnExpression)
    return []

def scopeAll (setup : Setup) (enter : Scope → Ast → Supplied Value) (scope : Scope) :
    List Ast → Supplied (List Value)
  | [] => return []
  | item :: items => do
    let value ← setup.scopeValueWith enter scope item
    return value :: (← setup.scopeAll enter scope items)

end

def scopeValue (setup : Setup) : Nat → Scope → Ast → Supplied Value
  | 0 => setup.scopeValueWith fun _ _ => throw .exhausted
  | calls + 1 => setup.scopeValueWith (setup.scopeValue calls)

def EntersScope (enter : Bindings → Ast → Supplied Value) (enter' : Scope → Ast → Supplied Value) :
    Prop :=
  ∀ (b : Bindings) (scope : Scope) (body : Ast), b.Flattens scope → enter b body = enter' scope body

section Agreement

variable {setup : Setup} {enter : Bindings → Ast → Supplied Value}
  {enter' : Scope → Ast → Supplied Value} {b : Bindings} {scope : Scope}

theorem callValue_eq_scopeCall (inside : EntersScope enter enter') (flattens : b.Flattens scope)
    (name : Json) (f : Value) (arguments : List Value) :
    setup.callValue enter b name f arguments =
      setup.scopeCall enter' scope name f arguments := by
  unfold callValue scopeCall
  cases f with
  | function i parameters body =>
    have entered (frame : Frame) :
        enter (b.insertAll frame) body = enter' (scope.push frame) body :=
      inside _ _ body (flattens.push frame)
    simp only [entered]
  | _ => rfl

mutual

theorem valueWith_eq_scopeValueWith (inside : EntersScope enter enter')
    (flattens : b.Flattens scope) (tree : Ast) :
    setup.valueWith enter b tree = setup.scopeValueWith enter' scope tree := by
  cases tree with
  | identifier name =>
    rw [valueWith, scopeValueWith, Bindings.read, flattens.lookup? name]
    rcases scope.resolve? name with e | (_ | value) <;> rfl
  | unary operator expression =>
    rw [valueWith, scopeValueWith, valueWith_eq_scopeValueWith inside flattens expression]
  | binary operator left right =>
    rw [valueWith, scopeValueWith, valueWith_eq_scopeValueWith inside flattens left,
      valueWith_eq_scopeValueWith inside flattens right]
  | conditional test consequent alternate =>
    rw [valueWith, scopeValueWith, valueWith_eq_scopeValueWith inside flattens test,
      valueWith_eq_scopeValueWith inside flattens consequent,
      valueWith_eq_scopeValueWith inside flattens alternate]
  | arrayLiteral elements =>
    rw [valueWith, scopeValueWith, partValues_eq_scopeParts inside flattens elements]
  | subscript array index =>
    rw [valueWith, scopeValueWith, valueWith_eq_scopeValueWith inside flattens array,
      valueWith_eq_scopeValueWith inside flattens index]
  | call callee args =>
    rw [valueWith, scopeValueWith, partValues_eq_scopeParts inside flattens args]
    refine bind_congr fun name => ?_
    rw [flattens.lookup? name]
    refine bind_congr fun f => bind_congr fun arguments => ?_
    cases f with
    | none => rfl
    | some f => exact callValue_eq_scopeCall inside flattens name f arguments
  | _ => rfl

theorem partValues_eq_scopeParts (inside : EntersScope enter enter')
    (flattens : b.Flattens scope) (tree : Ast) :
    setup.partValues enter b tree = setup.scopeParts enter' scope tree := by
  cases tree with
  | list items =>
    rw [partValues, scopeParts, allValues_eq_scopeAll inside flattens items]
  | _ => rfl

theorem allValues_eq_scopeAll (inside : EntersScope enter enter')
    (flattens : b.Flattens scope) (items : List Ast) :
    setup.allValues enter b items = setup.scopeAll enter' scope items := by
  cases items with
  | nil => rfl
  | cons item items =>
    rw [allValues, scopeAll, valueWith_eq_scopeValueWith inside flattens item,
      allValues_eq_scopeAll inside flattens items]

end

end Agreement

theorem value_eq_scopeValue (setup : Setup) (calls : Nat) {b : Bindings} {scope : Scope}
    (flattens : b.Flattens scope) (tree : Ast) :
    setup.value calls b tree = setup.scopeValue calls scope tree := by
  induction calls generalizing b scope tree with
  | zero => exact valueWith_eq_scopeValueWith (fun _ _ _ _ => rfl) flattens tree
  | succ calls ih =>
    exact valueWith_eq_scopeValueWith (fun _ _ body flattens => ih flattens body) flattens tree

/-- Evaluating an expression in an environment, where every call copies the environment of its caller
and overlays the parameters, is evaluating it in a scope with that environment at the top and no call
around it: both answer the same value or fail with the same failure, and use up the same, however
many calls may be nested. -/
theorem evaluate_scopeValue (setup : Setup) (calls : Nat) (tree : Ast) {env : EnvRef} {w : World}
    (there : env < w.size) :
    (setup.scopeValue calls ⟨w.bindings env, []⟩ tree).run w.supply =
      Machine.supplied ((setup.evaluate calls env tree).run w) := by
  rw [← setup.value_eq_scopeValue calls (.top (w.bindings env)) tree]
  exact Machine.agrees_evaluate setup calls tree w there rfl

def repeating : World :=
  let x := Ast.identifier (.scalar (.string "x"))
  ⟨⟨#[[(.ofString "x", .boolean true), (.ofString "last", .function 0 (.list [x, x]) x)]]⟩, 1, #[]⟩

def callLast (first second : Ast) : Ast :=
  .call (.identifier (.scalar (.string "last"))) (.list [first, second])

def absence : Ast :=
  .subscript (.arrayLiteral (.list [])) (.numeral (.scalar (.number (.double .nan))))

theorem evaluate_scopeValue_repeating :
    0 < repeating.size ∧
    (∃ w, ((⟨0, []⟩ : Setup).scopeValue 1 ⟨repeating.bindings 0, []⟩
      (callLast absence (.booleanLiteral false))).run repeating.supply = .ok (.boolean false) w) ∧
    ∃ w, ((⟨0, []⟩ : Setup).scopeValue 1 ⟨repeating.bindings 0, []⟩
      (callLast (.booleanLiteral false) absence)).run repeating.supply =
        .error (.fault (.undeclared (.scalar (.string "x")))) w := by
  have there : 0 < repeating.size := by decide
  refine ⟨there, ?_, ?_⟩
  · rw [evaluate_scopeValue _ 1 (callLast absence (.booleanLiteral false)) there]
    exact ⟨_, rfl⟩
  · rw [evaluate_scopeValue _ 1 (callLast (.booleanLiteral false) absence) there]
    exact ⟨_, rfl⟩

end Setup

end DynamicScope
