import Mathlib.Logic.Relation
import DynamicScope.Proofs.Run.Machine
import DynamicScope.Proofs.Run.Visits

/-! Which evaluations an evaluation consists of.
Evaluating an expression in a world starts evaluations of parts of it, each in the world that the
ones before it left, and, at a call, of the body of the function. -/

namespace DynamicScope

/-- The start of an evaluation, in which so many calls may be nested. -/
structure Evaluation where
  calls : Nat
  env : EnvRef
  tree : Ast
  world : World

def Visit.evaluation? (calls : Nat) : Visit → Option Evaluation
  | .statement (.variableDeclaration _ part) s w => some ⟨calls, s.env, part, w⟩
  | .statement (.assignment _ part) s w => some ⟨calls, s.env, part, w⟩
  | .statement (.printStatement part) s w => some ⟨calls, s.env, part, w⟩
  | .condition expression env w => some ⟨calls, env, expression, w⟩
  | _ => none

namespace Machine

variable {α β : Type}

theorem of_bind_ok {m : Machine α} {f : α → Machine β} {b : β} {w u : World}
    (h : (m >>= f).run w = .ok b u) : ∃ a v, m.run w = .ok a v ∧ (f a).run v = .ok b u := by
  rw [EStateM.run_bind] at h
  generalize m.run w = x at h ⊢
  cases x with
  | ok a v => exact ⟨a, v, rfl, h⟩
  | error e v => cases h

theorem of_bind_error {m : Machine α} {f : α → Machine β} {e : Failure} {w u : World}
    (h : (m >>= f).run w = .error e u) :
    m.run w = .error e u ∨ ∃ a v, m.run w = .ok a v ∧ (f a).run v = .error e u := by
  rw [EStateM.run_bind] at h
  generalize m.run w = x at h ⊢
  cases x with
  | ok a v => exact .inr ⟨a, v, rfl, h⟩
  | error e' v =>
    cases h
    exact .inl rfl

theorem of_lift_ok {x : Except Failure α} {a : α} {w u : World}
    (h : (lift x).run w = .ok a u) : x = .ok a ∧ w = u := by
  cases x with
  | ok a' =>
    cases h
    exact ⟨rfl, rfl⟩
  | error e => cases h

theorem of_lift_error {x : Except Failure α} {e : Failure} {w u : World}
    (h : (lift x).run w = .error e u) : x = .error e := by
  cases x with
  | ok a => cases h
  | error e' =>
    cases h
    rfl

end Machine

namespace Setup

variable (setup : Setup)

def entering : Nat → BodyEvaluator
  | 0 => fun _ _ => throw .exhausted
  | calls + 1 => setup.evaluate calls

theorem evaluate_eq (calls : Nat) :
    setup.evaluate calls = setup.evaluateWith (setup.entering calls) := by
  cases calls <;> rfl

/-- Whether the first evaluation starts the second one itself. -/
inductive Starts : Evaluation → Evaluation → Prop
  | operand {calls : Nat} {env : EnvRef} {operator : Json} {part : Ast} {w : World} :
    Starts ⟨calls, env, .unary operator part, w⟩ ⟨calls, env, part, w⟩
  | left {calls : Nat} {env : EnvRef} {operator : Json} {first second : Ast} {w : World} :
    Starts ⟨calls, env, .binary operator first second, w⟩ ⟨calls, env, first, w⟩
  | right {calls : Nat} {env : EnvRef} {operator : Json} {first second : Ast} {a : Value} {w v : World}
    (before : (setup.evaluate calls env first).run w = .ok a v) :
    Starts ⟨calls, env, .binary operator first second, w⟩ ⟨calls, env, second, v⟩
  | test {calls : Nat} {env : EnvRef} {test first second : Ast} {w : World} :
    Starts ⟨calls, env, .conditional test first second, w⟩ ⟨calls, env, test, w⟩
  | chosen {calls : Nat} {env : EnvRef} {test first second : Ast} {a : Value} {b : Bool} {w v : World}
    (before : (setup.evaluate calls env test).run w = .ok a v) (truth : a.isTrue = .ok b) :
    Starts ⟨calls, env, .conditional test first second, w⟩
      ⟨calls, env, if b then first else second, v⟩
  | element {calls : Nat} {env : EnvRef} {items later : List Ast} {item : Ast} {vs : List Value}
    {w v : World} (before : (setup.evaluateAll (setup.entering calls) env items).run w = .ok vs v) :
    Starts ⟨calls, env, .arrayLiteral (.list (items ++ item :: later)), w⟩ ⟨calls, env, item, v⟩
  | array {calls : Nat} {env : EnvRef} {array index : Ast} {w : World} :
    Starts ⟨calls, env, .subscript array index, w⟩ ⟨calls, env, array, w⟩
  | index {calls : Nat} {env : EnvRef} {array index : Ast} {a : Value} {w v : World}
    (before : (setup.evaluate calls env array).run w = .ok a v) :
    Starts ⟨calls, env, .subscript array index, w⟩ ⟨calls, env, index, v⟩
  | argument {calls : Nat} {env : EnvRef} {callee : Ast} {items later : List Ast} {item : Ast}
    {name : Json} {f : Option Value} {vs : List Value} {w v : World}
    (named : callee.name? = .ok name) (found : (Machine.lookup? env name).run w = .ok f w)
    (before : (setup.evaluateAll (setup.entering calls) env items).run w = .ok vs v) :
    Starts ⟨calls, env, .call callee (.list (items ++ item :: later)), w⟩ ⟨calls, env, item, v⟩
  | body {calls : Nat} {env inner : EnvRef} {callee args parameters body : Ast} {name : Json}
    {i : Nat} {vs : List Value} {w v u : World} (named : callee.name? = .ok name)
    (found : (Machine.lookup? env name).run w = .ok (some (.function i parameters body)) w)
    (given : (setup.evaluateParts (setup.entering (calls + 1)) env args).run w = .ok vs v)
    (entered : (do
      Machine.record setup 2 fun _ => do return .call (← name.plainText) (← Value.toTextAll vs)
      callEnvironment name parameters vs env : Machine EnvRef).run v = .ok inner u) :
    Starts ⟨calls + 1, env, .call callee args, w⟩ ⟨calls, inner, body, u⟩

/-- An evaluation of a remainder of an infinite number by one that is neither zero nor NaN. -/
def TakesUndefinedRemainder (x : Evaluation) : Prop :=
  ∃ left right negative y v u, x.tree = .binary (.scalar (.string "%")) left right ∧
    (setup.evaluate x.calls x.env left).run x.world = .ok (.double (.infinity negative)) v ∧
    (setup.evaluate x.calls x.env right).run v = .ok (.double y) u ∧
    y.isNaN = false ∧ y.isZero = false

def ReachesUndefinedRemainder (x : Evaluation) : Prop :=
  ∃ y, Relation.ReflTransGen setup.Starts x y ∧ setup.TakesUndefinedRemainder y

theorem ReachesUndefinedRemainder.head {setup : Setup} {x y : Evaluation} (first : setup.Starts x y)
    (h : setup.ReachesUndefinedRemainder y) : setup.ReachesUndefinedRemainder x := by
  obtain ⟨z, path, taken⟩ := h
  exact ⟨z, .head first path, taken⟩

end Setup

end DynamicScope
