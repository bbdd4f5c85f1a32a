import Mathlib.Order.Defs.PartialOrder
import DynamicScope.Proofs.Run.Machine
import DynamicScope.Proofs.Value.Operator

/-! Evaluation only adds to the world.
Evaluating an expression makes environments, uses up identities and records calls and binary
operations, whether it returns or fails, and does nothing else. So every relation of worlds that such
additions respect holds between the world before and the one after. The first of them is growth: a
world grows when it gets environments and identities and keeps every environment it has as it is. -/

namespace DynamicScope

namespace Store

@[simp] theorem place_new (s : Store) (b : Bindings) : (s.new b).1 = s.environments.size := rfl

@[simp] theorem size_new (s : Store) (b : Bindings) :
    (s.new b).2.environments.size = s.environments.size + 1 := by
  simp [new]

@[simp] theorem size_overwrite (s : Store) (env : EnvRef) (name : Name) (value : Value) :
    (s.overwrite env name value).environments.size = s.environments.size := by
  simp [overwrite]

theorem lt_or_eq_of_lt_new {s : Store} {b : Bindings} {env : EnvRef}
    (h : env < (s.new b).2.environments.size) :
    env < s.environments.size ∨ env = s.environments.size := by
  rw [size_new] at h
  exact Nat.lt_succ_iff_lt_or_eq.mp h

end Store

def Event.OfEvaluation : Event → Prop
  | .call .. | .binary .. => True
  | _ => False

namespace World

abbrev size (w : World) : Nat := w.store.environments.size

abbrev bindings (w : World) (env : EnvRef) : Bindings := w.store.bindings env

instance : Preorder World where
  le w v := w.size ≤ v.size ∧ (∀ env < w.size, v.bindings env = w.bindings env) ∧
    w.nextIdentity ≤ v.nextIdentity
  le_refl w := ⟨Nat.le_refl _, fun _ _ => rfl, Nat.le_refl _⟩
  le_trans u v w first second := by
    obtain ⟨size, same, next⟩ := first
    obtain ⟨size', same', next'⟩ := second
    refine ⟨Nat.le_trans size size', fun env there => ?_, Nat.le_trans next next'⟩
    rw [same' env (Nat.lt_of_lt_of_le there size), same env there]

theorem size_le {w v : World} (h : w ≤ v) : w.size ≤ v.size := h.1

theorem bindings_eq {w v : World} (h : w ≤ v) {env : EnvRef} (there : env < w.size) :
    v.bindings env = w.bindings env := h.2.1 env there

theorem next_le {w v : World} (h : w ≤ v) : w.nextIdentity ≤ v.nextIdentity := h.2.2

theorem le_new (w : World) (b : Bindings) : w ≤ { w with store := (w.store.new b).2 } := by
  refine ⟨?_, fun env there => Store.bindings_new_of_lt w.store b env there, Nat.le_refl _⟩
  rw [size, size, Store.size_new]
  exact Nat.le_succ _

theorem le_trace (w : World) (trace : Array Event) : w ≤ { w with trace } :=
  ⟨Nat.le_refl _, fun _ _ => rfl, Nat.le_refl _⟩

theorem le_next (w : World) (count : Nat) :
    w ≤ { w with nextIdentity := w.nextIdentity + count } :=
  ⟨Nat.le_refl _, fun _ _ => rfl, Nat.le_add_right _ _⟩

/-- A relation of worlds that is respected by what evaluation does to a world. -/
structure Steady (R : World → World → Prop) : Prop where
  refl (w : World) : R w w
  trans {u v w : World} : R u v → R v w → R u w
  new (w : World) (b : Bindings) : R w { w with store := (w.store.new b).2 }
  next (w : World) (count : Nat) : R w { w with nextIdentity := w.nextIdentity + count }
  traced (w : World) {e : Event} : e.OfEvaluation → R w { w with trace := w.trace.push e }

theorem steady_le : Steady fun w v => w ≤ v where
  refl := le_refl
  trans := le_trans
  new := le_new
  next := le_next
  traced w _ _ := w.le_trace _

end World

namespace Machine

variable {α β : Type}

/-- A step after which the world is related to the one before. -/
def Follows (R : World → World → Prop) (m : Machine α) : Prop := ∀ w, R w (m.after w)

/-- A step after which every environment is as it was. -/
def Grows (m : Machine α) : Prop := ∀ w, w ≤ m.after w

theorem Grows.le_of_ok {m : Machine α} {a : α} {w v : World} (h : Grows m)
    (ran : m.run w = .ok a v) : w ≤ v := by
  rw [← after_of_ok ran]
  exact h w

section Steady

variable {R : World → World → Prop} (steady : World.Steady R)

include steady

theorem follows_pure (a : α) : Follows R (pure a : Machine α) := steady.refl

theorem follows_throw (e : Failure) : Follows R (throw e : Machine α) := steady.refl

theorem follows_bind {m : Machine α} {f : α → Machine β} (first : Follows R m)
    (rest : ∀ a, Follows R (f a)) : Follows R (m >>= f) := by
  intro w
  have start := first w
  rw [after_bind]
  unfold after at start
  cases ran : m.run w with
  | error e v => rw [ran] at start; exact start
  | ok a v => rw [ran] at start; exact steady.trans start (rest a v)

theorem follows_lift (x : Except Failure α) : Follows R (lift x) := by
  intro w
  cases x <;> exact steady.refl w

theorem follows_fault (f : Fault) : Follows R (fault f : Machine α) := steady.refl

theorem follows_get : Follows R (get : Machine World) := steady.refl

theorem follows_freshIdentity : Follows R freshIdentity := fun w => steady.next w 1

theorem follows_freshIdentities (count : Nat) : Follows R (freshIdentities count) :=
  fun w => steady.next w count

theorem follows_newEnvironment (b : Bindings) : Follows R (newEnvironment b) :=
  fun w => steady.new w b

theorem follows_merged (env : EnvRef) (others : List (Name × Value)) :
    Follows R (merged env others) :=
  fun w => steady.new w _

theorem follows_record {event : Unit → Except Failure Event}
    (traced : ∀ e, event () = .ok e → ∀ w : World, R w { w with trace := w.trace.push e })
    (setup : Setup) (level : Nat) : Follows R (record setup level event) := by
  intro w
  rw [after, run_record]
  rcases added : recorded setup level event with e | (_ | e)
  · exact steady.refl w
  · exact steady.refl w
  · exact traced e (of_recorded added).1 w

theorem follows_lookup? (env : EnvRef) (name : Json) : Follows R (lookup? env name) :=
  follows_bind steady (follows_lift steady _) fun _ =>
    follows_bind steady (follows_bind steady (follows_get steady) fun _ => follows_pure steady _)
      fun _ => follows_pure steady _

theorem follows_read (env : EnvRef) (name : Json) : Follows R (read env name) :=
  follows_bind steady (follows_lookup? steady env name) fun found => by
    cases found with
    | none => exact follows_fault steady _
    | some value => exact follows_pure steady value

end Steady

theorem grows_throw (e : Failure) : Grows (throw e : Machine α) := follows_throw World.steady_le e

theorem grows_bind {m : Machine α} {f : α → Machine β} (first : Grows m)
    (rest : ∀ a, Grows (f a)) : Grows (m >>= f) := follows_bind World.steady_le first rest

theorem grows_lift (x : Except Failure α) : Grows (lift x) := follows_lift World.steady_le x

theorem grows_freshIdentity : Grows freshIdentity := follows_freshIdentity World.steady_le

theorem grows_record (setup : Setup) (level : Nat) (event : Unit → Except Failure Event) :
    Grows (record setup level event) :=
  follows_record World.steady_le (fun _ _ w => w.le_trace _) setup level

theorem grows_lookup? (env : EnvRef) (name : Json) : Grows (lookup? env name) :=
  follows_lookup? World.steady_le env name

end Machine

namespace Setup

open Machine

variable (setup : Setup) {R : World → World → Prop} (steady : World.Steady R)

section Steady

include steady

theorem follows_initialEnvironment : Follows R setup.initialEnvironment :=
  follows_bind steady (follows_freshIdentities steady _) fun _ => follows_newEnvironment steady _

theorem follows_callBuiltin (f : Builtin) (arguments : List Value) :
    Follows R (setup.callBuiltin f arguments) := by
  intro w
  rw [after, run_callBuiltin]
  rcases setup.answer f w.nextIdentity arguments with e | ⟨value, used⟩
  · exact steady.refl w
  · exact steady.next w used

omit setup in
theorem follows_callEnvironment (name : Json) (parameters : Ast) (arguments : List Value)
    (env : EnvRef) : Follows R (callEnvironment name parameters arguments env) := by
  refine follows_bind steady (follows_lift steady _) fun expected => ?_
  split
  · exact follows_bind steady (follows_lift steady _) fun names =>
      follows_bind steady (follows_lift steady _) fun keys => follows_merged steady _ _
  · exact follows_fault steady _

theorem follows_call {enter : BodyEvaluator} (inside : ∀ env body, Follows R (enter env body))
    (name : Json) (f : Value) (arguments : List Value) (env : EnvRef) :
    Follows R (setup.call enter name f arguments env) := by
  have called : Follows R (record setup 2 fun _ => do
      return .call (← name.plainText) (← Value.toTextAll arguments)) := by
    refine follows_record steady (fun e formed w => ?_) setup 2
    obtain ⟨called, -, formed⟩ := bind_eq_ok.mp formed
    obtain ⟨texts, -, formed⟩ := bind_eq_ok.mp formed
    cases formed
    exact steady.traced w trivial
  refine follows_bind steady called fun _ => ?_
  cases f with
  | builtin identity f => exact follows_callBuiltin setup steady f arguments
  | function identity parameters body =>
    exact follows_bind steady (follows_callEnvironment steady _ _ _ _) fun inner =>
      inside inner body
  | _ => exact follows_fault steady _

theorem follows_binary (operator : Json) (left right : Value) :
    Follows R (record setup 3 fun _ => do
      return .binary (← left.toText) (← operator.plainText) (← right.toText)) := by
  refine follows_record steady (fun e formed w => ?_) setup 3
  obtain ⟨leftText, -, formed⟩ := bind_eq_ok.mp formed
  obtain ⟨symbol, -, formed⟩ := bind_eq_ok.mp formed
  obtain ⟨rightText, -, formed⟩ := bind_eq_ok.mp formed
  cases formed
  exact steady.traced w trivial

mutual

theorem follows_evaluateWith {enter : BodyEvaluator}
    (inside : ∀ env body, Follows R (enter env body)) (env : EnvRef) (tree : Ast) :
    Follows R (setup.evaluateWith enter env tree) := by
  cases tree with
  | numeral value =>
    exact follows_bind steady (follows_lift steady _) fun _ => follows_pure steady _
  | booleanLiteral b => exact follows_pure steady _
  | identifier name => exact follows_read steady env name
  | unary operator expression =>
    rw [evaluateWith]
    exact follows_bind steady (follows_evaluateWith inside env expression) fun _ =>
      follows_lift steady _
  | binary operator left right =>
    rw [evaluateWith]
    exact follows_bind steady (follows_evaluateWith inside env left) fun a =>
      follows_bind steady (follows_evaluateWith inside env right) fun b =>
        follows_bind steady (follows_binary setup steady operator a b) fun _ =>
          follows_lift steady _
  | conditional test consequent alternate =>
    rw [evaluateWith]
    refine follows_bind steady (follows_evaluateWith inside env test) fun _ =>
      follows_bind steady (follows_lift steady _) fun chosen => ?_
    split
    · exact follows_evaluateWith inside env consequent
    · exact follows_evaluateWith inside env alternate
  | arrayLiteral elements =>
    rw [evaluateWith]
    exact follows_bind steady (follows_evaluateParts inside env elements) fun _ =>
      follows_bind steady (follows_freshIdentity steady) fun _ => follows_pure steady _
  | subscript array index =>
    rw [evaluateWith]
    exact follows_bind steady (follows_evaluateWith inside env array) fun _ =>
      follows_bind steady (follows_evaluateWith inside env index) fun _ => follows_lift steady _
  | call callee args =>
    rw [evaluateWith]
    refine follows_bind steady (follows_lift steady _) fun name =>
      follows_bind steady (follows_lookup? steady env name) fun found =>
        follows_bind steady (follows_evaluateParts inside env args) fun arguments => ?_
    cases found with
    | none => exact follows_fault steady _
    | some f => exact follows_call setup steady inside name f arguments env
  | _ => exact follows_throw steady _

theorem follows_evaluateParts {enter : BodyEvaluator}
    (inside : ∀ env body, Follows R (enter env body)) (env : EnvRef) (tree : Ast) :
    Follows R (setup.evaluateParts enter env tree) := by
  cases tree with
  | list items =>
    rw [evaluateParts]
    exact follows_evaluateAll inside env items
  | scalar s =>
    cases s with
    | string t =>
      rw [evaluateParts]
      split
      · exact follows_pure steady _
      · exact follows_throw steady _
    | _ => exact follows_throw steady _
  | _ => exact follows_throw steady _

theorem follows_evaluateAll {enter : BodyEvaluator}
    (inside : ∀ env body, Follows R (enter env body)) (env : EnvRef) (items : List Ast) :
    Follows R (setup.evaluateAll enter env items) := by
  cases items with
  | nil => exact follows_pure steady _
  | cons item items =>
    rw [evaluateAll]
    exact follows_bind steady (follows_evaluateWith inside env item) fun _ =>
      follows_bind steady (follows_evaluateAll inside env items) fun _ => follows_pure steady _

end

theorem follows_evaluate (calls : Nat) (env : EnvRef) (tree : Ast) :
    Follows R (setup.evaluate calls env tree) := by
  induction calls generalizing env tree with
  | zero => exact setup.follows_evaluateWith steady (fun _ _ => follows_throw steady _) env tree
  | succ calls ih => exact setup.follows_evaluateWith steady ih env tree

end Steady

theorem grows_evaluateWith {enter : BodyEvaluator} (inside : ∀ env body, Grows (enter env body))
    (env : EnvRef) (tree : Ast) : Grows (setup.evaluateWith enter env tree) :=
  setup.follows_evaluateWith World.steady_le inside env tree

theorem grows_evaluateParts {enter : BodyEvaluator} (inside : ∀ env body, Grows (enter env body))
    (env : EnvRef) (tree : Ast) : Grows (setup.evaluateParts enter env tree) :=
  setup.follows_evaluateParts World.steady_le inside env tree

theorem grows_evaluateAll {enter : BodyEvaluator} (inside : ∀ env body, Grows (enter env body))
    (env : EnvRef) (items : List Ast) : Grows (setup.evaluateAll enter env items) :=
  setup.follows_evaluateAll World.steady_le inside env items

theorem grows_evaluate (calls : Nat) (env : EnvRef) (tree : Ast) :
    Grows (setup.evaluate calls env tree) :=
  setup.follows_evaluate World.steady_le calls env tree

end Setup

end DynamicScope
