import DynamicScope.Proofs.Simulation.Execute
import DynamicScope.Proofs.Tracking.Course

/-! Alike bindings in any two worlds.
Runs are compared in worlds whose environments have the same places. But what an expression or a
statement comes to depends on nothing but the bindings that it finds and on the supply, so the
comparison may be made in worlds that hold a single environment, and is good for all others. -/

namespace DynamicScope

open Machine

def World.alone (b : Bindings) (x : Supply) : World := ⟨⟨#[b]⟩, x.nextIdentity, x.trace⟩

namespace Setup

variable (setup : Setup)

theorem supplied_evaluate_alone (calls : Nat) (tree : Ast) {env : EnvRef} {w : World}
    (there : env < w.size) :
    supplied ((setup.evaluate calls env tree).run w) =
      supplied ((setup.evaluate calls 0 tree).run (.alone (w.bindings env) w.supply)) := by
  rw [← agrees_evaluate setup calls tree w there rfl]
  exact agrees_evaluate setup calls tree (.alone (w.bindings env) w.supply) Nat.zero_lt_one rfl

theorem tracked_execute_alone (budget : Budget) (tree : Ast) {s : State} {w : World}
    (there : s.env < w.size) :
    tracked s ((setup.execute budget tree s).run w) =
      tracked ⟨0, s.output⟩ ((setup.execute budget tree ⟨0, s.output⟩).run
        (.alone (w.bindings s.env) w.supply)) := by
  rw [← setup.tracked_execute budget tree s w there]
  exact setup.tracked_execute budget tree ⟨0, s.output⟩ (.alone (w.bindings s.env) w.supply)
    Nat.zero_lt_one

end Setup

namespace Conduct

variable {Stage : Type} {α α' : Type}

/-- What is alike after an execution: the bindings that it goes on with, those that it was entered
with, and the output. -/
structure Courses (c : Conduct Stage) (κ : Stage) (d d' : Course) : Prop where
  current : c.bindings κ d.current d'.current
  entry : c.bindings κ d.entry d'.entry
  output : c.output κ d.output d'.output

/-- Steps that both return or both fail, with supplies that are alike at some stage. -/
inductive Matches [LE Stage] (c : Conduct Stage) (κ : Stage) (R : Stage → α → α' → Prop) :
    EStateM.Result Failure Supply α → EStateM.Result Failure Supply α' → Prop
  | ok {κ' : Stage} {a : α} {a' : α'} {x x' : Supply} (up : κ ≤ κ') (h : R κ' a a')
    (next : c.next κ' x.nextIdentity x'.nextIdentity) (trace : c.trace x.trace x'.trace) :
    Matches c κ R (.ok a x) (.ok a' x')
  | error {κ' : Stage} {e e' : Failure} {x x' : Supply} (up : κ ≤ κ') (h : c.failure e e')
    (next : c.next κ' x.nextIdentity x'.nextIdentity) (trace : c.trace x.trace x'.trace) :
    Matches c κ R (.error e x) (.error e' x')

variable [Preorder Stage] {c : Conduct Stage} {setup setup' : Setup} {κ : Stage} {w w' : World}
  {env env' : EnvRef}

structure Alongside (c : Conduct Stage) (κ : Stage) (env : EnvRef) (w : World) (env' : EnvRef)
    (w' : World) : Prop where
  there : env < w.size
  there' : env' < w'.size
  bindings : c.bindings κ (w.bindings env) (w'.bindings env')
  next : c.next κ w.nextIdentity w'.nextIdentity
  trace : c.trace w.trace w'.trace

theorem Alongside.linked (laws : c.Executes setup setup') (h : c.Alongside κ env w env' w') :
    c.Linked κ 0 (.alone (w.bindings env) w.supply) 0 (.alone (w'.bindings env') w'.supply) := by
  refine ⟨Nat.zero_lt_one, Nat.zero_lt_one, h.bindings, laws.stores.mpr ⟨rfl, fun env there => ?_⟩,
    h.next, h.trace⟩
  obtain rfl := Nat.lt_one_iff.mp there
  exact h.bindings

theorem matches_evaluate (laws : c.Executes setup setup') (calls : Nat) {tree tree' : Ast}
    (same : c.tree tree tree') (h : c.Alongside κ env w env' w') :
    c.Matches κ c.value (supplied ((setup.evaluate calls env tree).run w))
      (supplied ((setup'.evaluate calls env' tree').run w')) := by
  rw [setup.supplied_evaluate_alone calls tree h.there,
    setup'.supplied_evaluate_alone calls tree' h.there']
  have ended := Likeness.pairs_evaluate laws.toSimulates calls κ 0 0 tree tree' same _ _
    (h.linked laws)
  generalize (setup.evaluate calls 0 tree).run _ = x at ended ⊢
  generalize (setup'.evaluate calls 0 tree').run _ = x' at ended ⊢
  cases ended with
  | ok up related linked => exact .ok up related linked.next linked.trace
  | error up related linked => exact .error up related linked.next linked.trace

theorem matches_execute (laws : c.Executes setup setup') (budget : Budget) {tree tree' : Ast}
    (same : c.statement tree tree') {s s' : State} (h : c.Alongside κ s.env w s'.env w')
    (output : c.output κ s.output s'.output) :
    c.Matches κ c.Courses (tracked s ((setup.execute budget tree s).run w))
      (tracked s' ((setup'.execute budget tree' s').run w')) := by
  rw [setup.tracked_execute_alone budget tree h.there,
    setup'.tracked_execute_alone budget tree' h.there']
  have framed := setup.framed_execute budget tree ⟨0, s.output⟩
    (.alone (w.bindings s.env) w.supply) Nat.zero_lt_one
  have halted := halts_execute laws budget κ tree tree' same ⟨0, s.output⟩ ⟨0, s'.output⟩ _ _
    ⟨rfl, h.linked laws, output⟩
  generalize (setup.execute budget tree ⟨0, s.output⟩).run _ = x at halted framed ⊢
  generalize (setup'.execute budget tree' ⟨0, s'.output⟩).run _ = x' at halted ⊢
  cases halted with
  | error up related stores next trace => exact .error up related next trace
  | @ok κ' t t' v v' up joined =>
    cases framed with
    | ok altered _ _ =>
      have lockstep := laws.stores.mp joined.linked.stores
      have entry : c.bindings κ' (courseOf ⟨0, s.output⟩ t v).entry
          (courseOf ⟨0, s'.output⟩ t' v').entry := by
        rw [courseOf_entry, courseOf_entry]
        exact lockstep.bindings 0 altered.size
      have current : c.bindings κ' (v.bindings t.env) (v'.bindings t'.env) :=
        joined.env ▸ joined.linked.bindings
      exact .ok up ⟨current, entry, joined.output⟩ joined.linked.next joined.linked.trace

theorem Matches.ended {s s' : State} {x x' : EStateM.Result Failure World State}
    (h : c.Matches κ c.Courses (tracked s x) (tracked s' x')) :
    (∃ e e' u u', x = .error e u ∧ x' = .error e' u' ∧ c.failure e e') ∨
    ∃ κ' t t' u u', x = .ok t u ∧ x' = .ok t' u' ∧ c.Courses κ' (courseOf s t u) (courseOf s' t' u') := by
  cases x with
  | error e u =>
    cases x' with
    | error e' u' =>
      cases h with
      | error _ same => exact .inl ⟨e, e', u, u', rfl, rfl, same⟩
    | ok t' u' => cases h
  | ok t u =>
    cases x' with
    | error e' u' => cases h
    | ok t' u' =>
      cases h with
      | ok _ courses => exact .inr ⟨_, t, t', u, u', rfl, rfl, courses⟩

end Conduct

end DynamicScope
