import Mathlib.Data.List.Forall2
import DynamicScope.Proofs.Run.Growth

/-! Runs in pairs.
A likeness says when the trees, values, bindings and failures of two runs are alike; values are alike
at a stage, and the stage may rise when the runs make new objects. What a step of one run does is
then compared with what a step of the other does: both return alike values or both fail alike, and
the worlds they leave are linked again. A property of one run is the case of a run beside itself. -/

namespace DynamicScope

theorem forall₂_graph_iff {α β : Type} {f : α → β} {xs : List α} {ys : List β} :
    List.Forall₂ (fun a b => f a = b) xs ys ↔ xs.map f = ys := by
  rw [← List.forall₂_map_left_iff, List.forall₂_eq_eq_eq]

inductive Alike {α β : Type} (value : α → β → Prop) (failure : Failure → Failure → Prop) :
    Except Failure α → Except Failure β → Prop
  | ok {a : α} {b : β} (h : value a b) : Alike value failure (.ok a) (.ok b)
  | error {e f : Failure} (h : failure e f) : Alike value failure (.error e) (.error f)

namespace Alike

variable {α β γ δ : Type} {R : α → β → Prop} {R' : α → α → Prop} {S : γ → δ → Prop}
  {F : Failure → Failure → Prop}

theorem imp {R' : α → β → Prop} {x : Except Failure α} {y : Except Failure β}
    (h : Alike R F x y) (weaker : ∀ a b, R a b → R' a b) : Alike R' F x y := by
  cases h with
  | ok related => exact .ok (weaker _ _ related)
  | error related => exact .error related

theorem bind {x : Except Failure α} {y : Except Failure β} {f : α → Except Failure γ}
    {g : β → Except Failure δ} (h : Alike R F x y)
    (rest : ∀ a b, R a b → Alike S F (f a) (g b)) : Alike S F (x >>= f) (y >>= g) := by
  cases h with
  | ok related => exact rest _ _ related
  | error related => exact .error related

theorem same {x : Except Failure α} (related : ∀ a, x = .ok a → R' a a) (failures : ∀ e, F e e) :
    Alike R' F x x := by
  cases x with
  | ok a => exact .ok (related a rfl)
  | error e => exact .error (failures e)

theorem map {f : α → β} {x : Except Failure α} (related : ∀ a, x = .ok a → R a (f a))
    (failures : ∀ e, F e e) : Alike R F x (x.map f) := by
  cases x with
  | ok a => exact .ok (related a rfl)
  | error e => exact .error (failures e)

theorem refl (values : ∀ a, R' a a) (failures : ∀ e, F e e) (x : Except Failure α) :
    Alike R' F x x := same (fun a _ => values a) failures

theorem mapM {f : α → Except Failure γ} {g : β → Except Failure δ} {xs : List α} {ys : List β}
    (h : List.Forall₂ R xs ys) (each : ∀ a b, R a b → Alike S F (f a) (g b)) :
    Alike (List.Forall₂ S) F (xs.mapM f) (ys.mapM g) := by
  induction h with
  | nil => exact .ok .nil
  | cons head tail ih =>
    rw [List.mapM_cons, List.mapM_cons]
    exact (each _ _ head).bind fun _ _ first => ih.bind fun _ _ rest => .ok (.cons first rest)

end Alike

/-- When the parts of two runs are alike. -/
structure Likeness (Stage : Type) where
  failure : Failure → Failure → Prop
  operator : Json → Json → Prop
  name : Json → Json → Prop
  key : Name → Name → Prop
  tree : Ast → Ast → Prop
  value : Stage → Value → Value → Prop
  bindings : Stage → Bindings → Bindings → Prop
  stores : Stage → Store → Store → Prop
  next : Stage → Nat → Nat → Prop
  trace : Array Event → Array Event → Prop

namespace Likeness

variable {Stage : Type} (r : Likeness Stage)

/-- Lists of related trees, or trees that are taken for lists and fail alike. -/
inductive Parts (related : Ast → Ast → Prop) (unexpected : String → Failure) : Ast → Ast → Prop
  | list {items items' : List Ast} (h : List.Forall₂ related items items') :
    Parts related unexpected (.list items) (.list items')
  | other {tree tree' : Ast} (none : ∀ items, tree ≠ .list items)
    (none' : ∀ items, tree' ≠ .list items)
    (h : Alike (fun _ _ => True) r.failure (tree.noParts unexpected) (tree'.noParts unexpected)) :
    Parts related unexpected tree tree'

inductive Expression : Ast → Ast → Prop
  | numeral {value value' : Json}
    (h : ∀ κ, Alike (fun x y => r.value κ (.double x) (.double y)) r.failure
      value.numeralValue value'.numeralValue) : Expression (.numeral value) (.numeral value')
  | booleanLiteral (b : Bool) : Expression (.booleanLiteral b) (.booleanLiteral b)
  | identifier {name name' : Json} (h : r.name name name') :
    Expression (.identifier name) (.identifier name')
  | unary {operator operator' : Json} {part part' : Ast} (op : r.operator operator operator')
    (h : r.tree part part') : Expression (.unary operator part) (.unary operator' part')
  | binary {operator operator' : Json} {left left' right right' : Ast}
    (op : r.operator operator operator') (first : r.tree left left')
    (second : r.tree right right') :
    Expression (.binary operator left right) (.binary operator' left' right')
  | conditional {test test' first first' second second' : Ast} (chosen : r.tree test test')
    (whenTrue : r.tree first first') (whenFalse : r.tree second second') :
    Expression (.conditional test first second) (.conditional test' first' second')
  | arrayLiteral {elements elements' : Ast}
    (h : r.Parts r.tree .notAnExpression elements elements') :
    Expression (.arrayLiteral elements) (.arrayLiteral elements')
  | subscript {array array' index index' : Ast} (first : r.tree array array')
    (second : r.tree index index') :
    Expression (.subscript array index) (.subscript array' index')
  | call {callee callee' args args' : Ast}
    (named : Alike r.name r.failure callee.name? callee'.name?)
    (h : r.Parts r.tree .notAnExpression args args') :
    Expression (.call callee args) (.call callee' args')
  | other {tree tree' : Ast} (none : tree.isExpression = false)
    (none' : tree'.isExpression = false)
    (h : r.failure (.notAnExpression tree.qualifiedClass) (.notAnExpression tree'.qualifiedClass)) :
    Expression tree tree'

/-- Values that are called alike. -/
inductive Called (κ : Stage) : Value → Value → Prop
  | builtin (i i' : Nat) (f f' : Builtin) : Called κ (.builtin i f) (.builtin i' f')
  | function {i i' : Nat} {parameters parameters' body body' : Ast}
    (counted : Alike Eq r.failure parameters.count? parameters'.count?)
    (named : Alike (List.Forall₂ r.name) r.failure
      parameters.parameterNames parameters'.parameterNames)
    (h : r.tree body body') :
    Called κ (.function i parameters body) (.function i' parameters' body')
  | other {v v' : Value} (none : v.kind ≠ .function) (none' : v'.kind ≠ .function)
    (h : ∀ name name', r.name name name' →
      r.failure (Fault.notAFunction name v.kind).raised (Fault.notAFunction name' v'.kind).raised) :
    Called κ v v'

inductive Recorded (κ : Stage) :
    Nat → (Unit → Except Failure Event) → (Unit → Except Failure Event) → Prop
  | binary {a a' b b' : Value} {operator operator' : Json} (left : r.value κ a a')
    (op : r.operator operator operator') (right : r.value κ b b') :
    Recorded κ 3
      (fun _ => do return .binary (← a.toText) (← operator.plainText) (← b.toText))
      (fun _ => do return .binary (← a'.toText) (← operator'.plainText) (← b'.toText))
  | call {name name' : Json} {arguments arguments' : List Value} (named : r.name name name')
    (given : List.Forall₂ (r.value κ) arguments arguments') :
    Recorded κ 2 (fun _ => do return .call (← name.plainText) (← Value.toTextAll arguments))
      (fun _ => do return .call (← name'.plainText) (← Value.toTextAll arguments'))
  | declaration {name name' : Json} {v v' : Value} (named : r.name name name')
    (h : r.value κ v v') :
    Recorded κ 2 (fun _ => do return .declaration (← name.plainText) (← v.toText))
      (fun _ => do return .declaration (← name'.plainText) (← v'.toText))
  | definition {name name' : Json} {parameters parameters' body body' : Ast} {i i' : Nat}
    (named : r.name name name')
    (h : r.value κ (.function i parameters body) (.function i' parameters' body')) :
    Recorded κ 2 (fun _ => do return .definition (← name.plainText) (← Value.functionText parameters))
      (fun _ => do return .definition (← name'.plainText) (← Value.functionText parameters'))
  | assignment {name name' : Json} {v v' : Value} (named : r.name name name')
    (h : r.value κ v v') :
    Recorded κ 2 (fun _ => do return .assignment (← name.plainText) (← v.toText))
      (fun _ => do return .assignment (← name'.plainText) (← v'.toText))
  | print {v v' : Value} (h : r.value κ v v') :
    Recorded κ 2 (fun _ => do return .print (← v.toText)) (fun _ => do return .print (← v'.toText))
  | condition {v v' : Value} (h : r.value κ v v') :
    Recorded κ 3 (fun _ => do return .condition (← v.toText))
      (fun _ => do return .condition (← v'.toText))

/-- Whether traces stay alike when what two steps have recorded, if anything, is added to them. -/
def Traced (e e' : Option Event) : Prop :=
  ∀ trace trace', r.trace trace trace' → r.trace (e.elim trace trace.push) (e'.elim trace' trace'.push)

variable {r}

theorem Traced.same (same : ∀ trace trace', r.trace trace trace' ↔ trace = trace')
    (e : Option Event) : r.Traced e e := by
  intro trace trace' h
  obtain rfl := (same _ _).mp h
  exact (same _ _).mpr rfl

theorem toTextAll_same {κ : Stage} {vs vs' : List Value} (h : List.Forall₂ (r.value κ) vs vs')
    (texts : ∀ v v', r.value κ v v' → v.toText = v'.toText) :
    Value.toTextAll vs = Value.toTextAll vs' := by
  induction h with
  | nil => rfl
  | cons head _ ih => rw [Value.toTextAll, Value.toTextAll, texts _ _ head, ih]

theorem Recorded.two_le {κ : Stage} {level : Nat} {event event' : Unit → Except Failure Event}
    (h : r.Recorded κ level event event') : 2 ≤ level := by
  cases h <;> decide

theorem Recorded.same {κ : Stage} {level : Nat} {event event' : Unit → Except Failure Event}
    (h : r.Recorded κ level event event')
    (operators : ∀ o o', r.operator o o' → o = o') (names : ∀ n n', r.name n n' → n = n')
    (texts : ∀ v v', r.value κ v v' → v.toText = v'.toText)
    (functions : ∀ i i' p p' b b', r.value κ (.function i p b) (.function i' p' b') →
      Value.functionText p = Value.functionText p') :
    event = event' := by
  cases h with
  | binary left op right => rw [texts _ _ left, operators _ _ op, texts _ _ right]
  | call name given => rw [names _ _ name, toTextAll_same given texts]
  | declaration name value => rw [names _ _ name, texts _ _ value]
  | definition name made => rw [names _ _ name, functions _ _ _ _ _ _ made]
  | assignment name value => rw [names _ _ name, texts _ _ value]
  | print value => rw [texts _ _ value]
  | condition value => rw [texts _ _ value]

end Likeness

variable {Stage : Type} [Preorder Stage]

/-- What makes two runs stay alike: alike parts of a step give alike results. -/
structure Likeness.Simulates (r : Likeness Stage) (setup setup' : Setup) : Prop where
  value_mono {κ κ' : Stage} {v v' : Value} (h : κ ≤ κ') : r.value κ v v' → r.value κ' v v'
  bindings_mono {κ κ' : Stage} {b b' : Bindings} (h : κ ≤ κ') :
    r.bindings κ b b' → r.bindings κ' b b'
  stores_mono {κ κ' : Stage} {s s' : Store} (h : κ ≤ κ') : r.stores κ s s' → r.stores κ' s s'
  stores_new {κ : Stage} {s s' : Store} {b b' : Bindings} :
    r.stores κ s s' → r.bindings κ b b' → r.stores κ (s.new b).2 (s'.new b').2
  expression {tree tree' : Ast} : r.tree tree tree' → r.Expression tree tree'
  key {name name' : Json} :
    r.name name name' → Alike r.key r.failure (Name.ofJson? name) (Name.ofJson? name')
  present {κ : Stage} {b b' : Bindings} {key key' : Name} :
    r.bindings κ b b' → r.key key key' → Option.Rel (r.value κ) (b.present? key) (b'.present? key')
  overlay {κ : Stage} {b b' : Bindings} {keys keys' : List Name} {vs vs' : List Value} :
    r.bindings κ b b' → List.Forall₂ r.key keys keys' → List.Forall₂ (r.value κ) vs vs' →
      r.bindings κ (b.insertAll (keys.zip vs)) (b'.insertAll (keys'.zip vs'))
  undeclared {name name' : Json} :
    r.name name name' → r.failure (Fault.undeclared name).raised (Fault.undeclared name').raised
  arity {name name' : Json} (expected given : Nat) : r.name name name' →
    r.failure (Fault.arity name expected given).raised (Fault.arity name' expected given).raised
  exhausted : r.failure .exhausted .exhausted
  boolean (κ : Stage) (b : Bool) : r.value κ (.boolean b) (.boolean b)
  isTrue {κ : Stage} {v v' : Value} : r.value κ v v' → Alike Eq r.failure v.isTrue v'.isTrue
  unary {κ : Stage} {operator operator' : Json} {v v' : Value} :
    r.operator operator operator' → r.value κ v v' →
      Alike (r.value κ) r.failure (Value.unary operator v) (Value.unary operator' v')
  binary {κ : Stage} {operator operator' : Json} {a a' b b' : Value} :
    r.operator operator operator' → r.value κ a a' → r.value κ b b' →
      Alike (r.value κ) r.failure (Value.binary operator a b) (Value.binary operator' a' b')
  subscript {κ : Stage} {a a' b b' : Value} : r.value κ a a' → r.value κ b b' →
    Alike (r.value κ) r.failure (Value.subscript a b) (Value.subscript a' b')
  array {κ : Stage} {n n' : Nat} {vs vs' : List Value} :
    r.next κ n n' → List.Forall₂ (r.value κ) vs vs' →
      ∃ κ', κ ≤ κ' ∧ r.next κ' (n + 1) (n' + 1) ∧ r.value κ' (.array n vs) (.array n' vs')
  called {κ : Stage} {v v' : Value} : r.value κ v v' → r.Called κ v v'
  answer {κ : Stage} {i i' n n' : Nat} {f f' : Builtin} {vs vs' : List Value} :
    r.value κ (.builtin i f) (.builtin i' f') → r.next κ n n' → List.Forall₂ (r.value κ) vs vs' →
      Alike (fun a a' => ∃ κ', κ ≤ κ' ∧ r.next κ' (n + a.2) (n' + a'.2) ∧ r.value κ' a.1 a'.1)
        r.failure (setup.answer f n vs) (setup'.answer f' n' vs')
  recorded {κ : Stage} {level : Nat} {event event' : Unit → Except Failure Event} :
    r.Recorded κ level event event' → Alike r.Traced r.failure
      (Machine.recorded setup level event) (Machine.recorded setup' level event')

namespace Likeness

variable (r : Likeness Stage)

structure Linked (κ : Stage) (env : EnvRef) (w : World) (env' : EnvRef) (w' : World) : Prop where
  there : env < w.size
  there' : env' < w'.size
  bindings : r.bindings κ (w.bindings env) (w'.bindings env')
  stores : r.stores κ w.store w'.store
  next : r.next κ w.nextIdentity w'.nextIdentity
  trace : r.trace w.trace w'.trace

variable {α α' β β' : Type}

/-- Steps that both return or both fail, at a stage from which both runs can go on. -/
inductive Ends (κ : Stage) (env env' : EnvRef) (R : Stage → α → α' → Prop) :
    EStateM.Result Failure World α → EStateM.Result Failure World α' → Prop
  | ok {κ' : Stage} {a : α} {a' : α'} {v v' : World} (up : κ ≤ κ') (h : R κ' a a')
    (linked : r.Linked κ' env v env' v') : Ends κ env env' R (.ok a v) (.ok a' v')
  | error {κ' : Stage} {e e' : Failure} {v v' : World} (up : κ ≤ κ') (h : r.failure e e')
    (linked : r.Linked κ' env v env' v') : Ends κ env env' R (.error e v) (.error e' v')

/-- Steps that end alike wherever they start from alike environments. -/
def Pairs (κ : Stage) (env env' : EnvRef) (R : Stage → α → α' → Prop) (m : Machine α)
    (m' : Machine α') : Prop :=
  ∀ w w', r.Linked κ env w env' w' → r.Ends κ env env' R (m.run w) (m'.run w')

variable {r} {κ : Stage} {env env' : EnvRef} {R : Stage → α → α' → Prop}
  {S : Stage → β → β' → Prop}

theorem Ends.rise {κ' : Stage} {x : EStateM.Result Failure World α}
    {x' : EStateM.Result Failure World α'} (up : κ ≤ κ') (h : r.Ends κ' env env' R x x') :
    r.Ends κ env env' R x x' := by
  cases h with
  | ok up' related linked => exact .ok (le_trans up up') related linked
  | error up' related linked => exact .error (le_trans up up') related linked

theorem Pairs.pure {a : α} {a' : α'} (h : R κ a a') :
    r.Pairs κ env env' R (pure a) (pure a') :=
  fun _ _ linked => .ok (le_refl κ) h linked

theorem Pairs.throw {e e' : Failure} (h : r.failure e e') :
    r.Pairs κ env env' R (throw e) (throw e') :=
  fun _ _ linked => .error (le_refl κ) h linked

theorem Pairs.bind {m : Machine α} {m' : Machine α'} {f : α → Machine β} {f' : α' → Machine β'}
    (first : r.Pairs κ env env' R m m')
    (rest : ∀ κ' a a', κ ≤ κ' → R κ' a a' → r.Pairs κ' env env' S (f a) (f' a')) :
    r.Pairs κ env env' S (m >>= f) (m' >>= f') := by
  intro w w' linked
  have ended := first w w' linked
  rw [EStateM.run_bind, EStateM.run_bind]
  generalize m.run w = x at ended ⊢
  generalize m'.run w' = x' at ended ⊢
  cases ended with
  | ok up related linked => exact (rest _ _ _ up related _ _ linked).rise up
  | error up related linked => exact .error up related linked

theorem Pairs.lift {x : Except Failure α} {x' : Except Failure α'}
    (h : Alike (R κ) r.failure x x') :
    r.Pairs κ env env' R (Machine.lift x) (Machine.lift x') := by
  intro w w' linked
  cases h with
  | ok related => exact .ok (le_refl κ) related linked
  | error related => exact .error (le_refl κ) related linked

end Likeness

end DynamicScope
