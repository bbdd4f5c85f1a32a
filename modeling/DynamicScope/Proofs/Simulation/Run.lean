import DynamicScope.Proofs.Run.Outcome
import DynamicScope.Proofs.Simulation.Course

/-! Alike programs run alike.
A run is the execution of a block in an environment of its own. So two runs come to alike outputs or
to alike failures, and have alike traces, if what they start with and their blocks are alike, in
whatever worlds they start. -/

namespace DynamicScope

namespace Conduct

variable {Stage : Type} {setup setup' : Setup} {w w' : World}

structure Outcomes (c : Conduct Stage) (o o' : RunOutcome) : Prop where
  result : Alike (fun vs vs' => ∃ κ i i', c.output κ ⟨i, vs⟩ ⟨i', vs'⟩) c.failure o.result o'.result
  trace : c.trace o.trace.toArray o'.trace.toArray

structure Entered (c : Conduct Stage) (κ : Stage) (setup setup' : Setup) (w w' : World) : Prop where
  bindings : c.bindings κ (setup.entryBindings w) (setup'.entryBindings w')
  next : c.next κ (setup.entryWorld w).nextIdentity (setup'.entryWorld w').nextIdentity
  trace : c.trace (setup.traceWith 1 .started #[]) (setup'.traceWith 1 .started #[])
  output : c.output κ (Setup.entryState w).output (Setup.entryState w').output

variable {c : Conduct Stage} {κ : Stage}

theorem Entered.alongside (h : c.Entered κ setup setup' w w') :
    c.Alongside κ (Setup.entryState w).env (setup.entryWorld { w with trace := #[] })
      (Setup.entryState w').env (setup'.entryWorld { w' with trace := #[] }) := by
  have there (setup : Setup) (w : World) :
      (Setup.entryState w).env < (setup.entryWorld { w with trace := #[] }).size :=
    Nat.lt_of_lt_of_eq (Nat.lt_succ_self _) (Store.size_new _ _).symm
  refine ⟨there setup w, there setup' w', ?_, h.next, h.trace⟩
  have own (setup : Setup) (w : World) :
      (setup.entryWorld { w with trace := #[] }).bindings (Setup.entryState w).env =
        setup.entryBindings w := Store.bindings_new_self _ _
  rw [own, own]
  exact h.bindings

variable [Preorder Stage]

theorem run_outcomes (laws : c.Executes setup setup') (budget : Budget) {program program' : Ast}
    (entered : c.Entered κ setup setup' w w')
    (blocks : Alike c.statement c.failure program.block? program'.block?)
    (finished : ∀ κ o o' trace trace', c.output κ o o' → c.trace trace trace' →
      c.trace (setup.traceWith 1 (.finished o.values.length) trace)
        (setup'.traceWith 1 (.finished o'.values.length) trace')) :
    c.Outcomes (setup.runIn budget program w) (setup'.runIn budget program' w') := by
  cases block : program.block? with
  | error e =>
    cases block' : program'.block? with
    | ok body' =>
      rw [block, block'] at blocks
      cases blocks
    | error e' =>
      rw [block, block'] at blocks
      cases blocks with
      | error same =>
        rw [Setup.runIn_of_no_block _ block, Setup.runIn_of_no_block _ block']
        exact ⟨.error same, entered.trace⟩
  | ok body =>
    cases block' : program'.block? with
    | error e' =>
      rw [block, block'] at blocks
      cases blocks
    | ok body' =>
      rw [block, block'] at blocks
      cases blocks with
      | ok same =>
        have matched := matches_execute laws budget same entered.alongside entered.output
        rw [Setup.runIn_of_block _ block, Setup.runIn_of_block _ block']
        generalize (setup.execute budget body _).run _ = x at matched ⊢
        generalize (setup'.execute budget body' _).run _ = x' at matched ⊢
        cases x with
        | ok t u =>
          cases x' with
          | error e' u' => cases matched
          | ok t' u' =>
            cases matched with
            | ok _ courses _ trace =>
              exact ⟨.ok ⟨_, _, _, courses.output⟩, finished _ _ _ _ _ courses.output trace⟩
        | error e u =>
          cases x' with
          | ok t' u' => cases matched
          | error e' u' =>
            cases matched with
            | error _ failed _ trace => exact ⟨.error failed, trace⟩

end Conduct

end DynamicScope
