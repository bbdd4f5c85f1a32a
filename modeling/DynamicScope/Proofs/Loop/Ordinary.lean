import DynamicScope.Proofs.Loop.Frozen
import DynamicScope.Proofs.Run.Budget

/-! Loops that declare nothing.
A body without declarations never leaves the environment that it is given. So it makes no difference
that a loop checks its condition where it started: with such a body it is the loop that checks where it
has come to, and when it returns its condition is false there. -/

namespace DynamicScope

open Machine

def Ast.isDeclaration : Ast → Bool
  | .variableDeclaration .. | .functionDeclaration .. => true
  | _ => false

/-- Whether there is no declaration in a tree, at any depth. -/
def Ast.Undeclaring (tree : Ast) : Prop := ∀ part, tree.Contains part → part.isDeclaration = false

namespace Ast.Undeclaring

theorem child {tree part : Ast} (h : tree.Undeclaring) (listed : part ∈ tree.children) :
    part.Undeclaring := (forall_contains_iff.mp h).2 part listed

theorem of_children {tree : Ast} (root : tree.isDeclaration = false)
    (h : tree.children.Forall Undeclaring) : tree.Undeclaring :=
  forall_contains_iff.mpr ⟨root, List.forall_iff_forall_mem.mp h⟩

end Ast.Undeclaring

/-- Repeats a step while a test holds in the environment of the state that the step has come to. -/
def ordinaryLoop (test : EnvRef → Machine Bool) (body : State → Machine State) :
    Nat → State → Machine State
  | 0, _ => throw .exhausted
  | iterations + 1, s => do
    if ← test s.env then ordinaryLoop test body iterations (← body s) else return s

def KeepsEnvironment (body : State → Machine State) : Prop :=
  ∀ ⦃s t : State⦄ ⦃w u : World⦄, (body s).run w = .ok t u → t.env = s.env

namespace KeepsEnvironment

variable {test : Machine Bool} {body : State → Machine State}

theorem repeatWhile (each : KeepsEnvironment body) (iterations : Nat) :
    KeepsEnvironment (repeatWhile test body iterations) := by
  intro s t w u ran
  induction iterations generalizing s w with
  | zero => cases ran
  | succ iterations ih =>
    obtain ⟨again, v, -, ran⟩ := of_bind_ok ran
    cases again with
    | false =>
      cases ran
      rfl
    | true =>
      obtain ⟨t', v', first, rest⟩ := of_bind_ok ran
      exact (ih rest).trans (each first)

end KeepsEnvironment

namespace Setup

variable (setup : Setup) (budget : Budget)

mutual

theorem keepsEnvironment_execute (tree : Ast) (quiet : tree.Undeclaring) :
    KeepsEnvironment (setup.execute budget tree) := by
  intro s t w u ran
  cases tree with
  | variableDeclaration | functionDeclaration => cases quiet _ .refl
  | assignment id part =>
    rw [execute] at ran
    obtain ⟨_, _, -, ran⟩ := of_bind_ok ran
    obtain ⟨_, _, -, ran⟩ := of_bind_ok ran
    obtain ⟨_, _, -, ran⟩ := of_bind_ok ran
    obtain ⟨_, _, -, ran⟩ := of_bind_ok ran
    cases ran
    rfl
  | printStatement part =>
    rw [execute] at ran
    obtain ⟨_, _, -, ran⟩ := of_bind_ok ran
    obtain ⟨_, _, -, ran⟩ := of_bind_ok ran
    cases ran
    rfl
  | whileStatement test body =>
    rw [execute] at ran
    have inside := keepsEnvironment_execute body (quiet.child (.tail _ (.head _)))
    exact inside.repeatWhile budget.iterations ran
  | block statements =>
    rw [execute] at ran
    exact keepsEnvironment_executeParts statements (quiet.child (.head _)) ran
  | _ => cases ran

theorem keepsEnvironment_executeParts (tree : Ast) (quiet : tree.Undeclaring) :
    KeepsEnvironment (setup.executeParts budget tree) := by
  intro s t w u ran
  cases tree with
  | list items =>
    rw [executeParts] at ran
    exact keepsEnvironment_executeAll items (fun item listed => quiet.child listed) ran
  | scalar x =>
    cases x with
    | string text =>
      rw [executeParts] at ran
      split at ran
      · cases ran
        rfl
      · cases ran
    | _ => cases ran
  | _ => cases ran

theorem keepsEnvironment_executeAll (items : List Ast)
    (quiet : ∀ item ∈ items, item.Undeclaring) :
    KeepsEnvironment (setup.executeAll budget items) := by
  intro s t w u ran
  cases items with
  | nil =>
    cases ran
    rfl
  | cons item items =>
    obtain ⟨head, tail⟩ := List.forall_mem_cons.mp quiet
    rw [executeAll] at ran
    obtain ⟨t', v, first, rest⟩ := of_bind_ok ran
    exact (keepsEnvironment_executeAll items tail rest).trans
      (keepsEnvironment_execute item head first)

end

theorem repeatWhile_eq_ordinaryLoop (test : EnvRef → Machine Bool)
    {body : State → Machine State} (each : KeepsEnvironment body) (iterations : Nat) {env : EnvRef} (s : State) (w : World)
    (here : s.env = env) :
    (repeatWhile (test env) body iterations s).run w =
      (ordinaryLoop test body iterations s).run w := by
  induction iterations generalizing s w with
  | zero => rfl
  | succ iterations ih =>
    rw [repeatWhile, ordinaryLoop, here, EStateM.run_bind, EStateM.run_bind]
    rcases (test env).run w with ⟨again, v⟩ | ⟨e, v⟩
    · cases again with
      | false => rfl
      | true =>
        dsimp only
        rw [if_pos rfl, if_pos rfl, EStateM.run_bind, EStateM.run_bind]
        cases ran : (body s).run v with
        | ok t u => exact ih t u ((each ran).trans here)
        | error e u => rfl
    · rfl

/-- One check of a loop's condition where the loop is, and after a true one the body and the loop
again. -/
def unrolled (test body : Ast) (s : State) : Machine State := do
  if ← setup.condition budget s.env test then
    setup.execute budget (.whileStatement test body) (← setup.execute budget body s)
  else return s

variable {setup} {test body : Ast} {s : State}

theorem prolonged_unrolled (each : KeepsEnvironment (setup.execute budget body)) (w : World) :
    Prolonged ((setup.execute budget (.whileStatement test body) s).run w)
      ((setup.unrolled budget test body s).run w) := by
  rw [execute, unrolled]
  cases room : budget.iterations with
  | zero => exact .cut w _
  | succ iterations =>
    rw [repeatWhile]
    refine Prolonged.bind (.same _) fun again v _ => ?_
    cases again with
    | false => exact .same _
    | true =>
      refine Prolonged.bind (.same _) fun t u ran => ?_
      rw [execute, each ran]
      exact prolongs_repeatWhile (prolongs_refl _) (fun _ => prolongs_refl _)
        (room ▸ Nat.le_succ iterations) t u

theorem prolonged_loop (each : KeepsEnvironment (setup.execute budget body)) (w : World) :
    Prolonged ((setup.unrolled budget test body s).run w)
      ((setup.execute ⟨budget.calls, budget.iterations + 1⟩ (.whileStatement test body) s).run w) := by
  have more : budget ≤ ⟨budget.calls, budget.iterations + 1⟩ :=
    ⟨Nat.le_refl _, Nat.le_succ _⟩
  rw [execute, unrolled, repeatWhile]
  refine Prolonged.bind (setup.prolongs_condition more s.env test w) fun again v _ => ?_
  cases again with
  | false => exact .same _
  | true =>
    refine Prolonged.bind (setup.prolongs_execute more body s v) fun t u ran => ?_
    rw [execute, each ran]
    exact prolongs_repeatWhile (setup.prolongs_condition more s.env test)
      (setup.prolongs_execute more body) (Nat.le_refl _) t u

theorem condition_false_of_returned (natives : ∀ entry ∈ setup.natives, entry.2.Pure)
    (each : KeepsEnvironment (setup.execute budget body)) {h : Heap} {w u : World} {t : State}
    (fits : h.Fits s w)
    (returned : (setup.execute budget (.whileStatement test body) s).run w = .ok t u) :
    ∃ v, (setup.condition budget t.env test).run u = .ok false v := by
  have same : t.env = s.env := by
    rw [execute] at returned
    exact each.repeatWhile budget.iterations returned
  rw [execute] at returned
  rcases repeatWhile_ends (setup.condition budget s.env test) (setup.execute budget body)
    budget.iterations s w with ⟨t', u', -, spent⟩ | ⟨n, -, t', w', run, stops⟩
  · rw [returned] at spent
    cases spent
  rw [returned] at stops
  cases stops with
  | done checked =>
    have keeps (entry) (listed : entry ∈ setup.natives) := (natives entry listed).keeps
    have uniform (entry) (listed : entry ∈ setup.natives) := (natives entry listed).uniform
    obtain ⟨⟨h', fits'⟩, -⟩ := fits.iterates keeps fits.there run
    rw [← same] at checked
    have grown := (setup.grows_condition budget t.env test).le_of_ok checked
    exact condition_again uniform budget fits'.covers fits'.there
      (Nat.lt_of_lt_of_le fits'.there (World.size_le grown))
      (World.bindings_eq grown fits'.there) (World.next_le grown) checked

/-- A while statement whose body declares nothing, at any depth, is an ordinary loop. With every budget
it runs as the loop that checks its condition in the environment it has come to. It comes to what one
check comes to and, if that is true, its body and itself again; so it prints the same, fails alike and
goes on for ever alike. When it returns, then in the environment it was given, and its condition is false
there. -/
theorem while_ordinary (setup : Setup) (natives : ∀ entry ∈ setup.natives, entry.2.Pure)
    (test : Ast) {body : Ast} (quiet : body.Undeclaring) (s : State) (w : World) :
    (∀ budget : Budget, (setup.execute budget (.whileStatement test body) s).run w =
      (ordinaryLoop (fun env => setup.condition budget env test) (setup.execute budget body)
        budget.iterations s).run w) ∧
    (∀ x, Settles (fun budget => setup.execute budget (.whileStatement test body) s) w x ↔
      Settles (fun budget => setup.unrolled budget test body s) w x) ∧
    ∀ (budget : Budget) (t : State) (u : World),
      (setup.execute budget (.whileStatement test body) s).run w = .ok t u → t.env = s.env ∧
        ∀ h : Heap, h.Fits s w → ∃ v, (setup.condition budget t.env test).run u = .ok false v := by
  have each (budget : Budget) := setup.keepsEnvironment_execute budget body quiet
  refine ⟨fun budget => ?_, settles_congr ?_ ?_, fun budget t u returned => ⟨?_, ?_⟩⟩
  · rw [execute]
    exact repeatWhile_eq_ordinaryLoop (fun env => setup.condition budget env test) (each budget)
      budget.iterations s w rfl
  · exact fun budget => ⟨budget, prolonged_unrolled budget (each budget) w⟩
  · exact fun budget => ⟨_, prolonged_loop budget (each budget) w⟩
  · rw [execute] at returned
    exact (each budget).repeatWhile budget.iterations returned
  · exact fun h fits => condition_false_of_returned budget natives (each budget) fits returned

def retracting : Ast :=
  .block (.list [.printStatement asserted, .assignment asserted (.booleanLiteral false)])

theorem retracting_undeclaring : retracting.Undeclaring := by
  have name : (Ast.identifier (.scalar (.string "c"))).Undeclaring := .of_children rfl trivial
  have literal : (Ast.booleanLiteral false).Undeclaring := .of_children rfl trivial
  have statements : (Ast.list [.printStatement asserted, .assignment asserted
      (.booleanLiteral false)]).Undeclaring :=
    .of_children rfl ⟨.of_children rfl name, .of_children rfl ⟨name, literal⟩⟩
  exact .of_children rfl statements

theorem while_ordinary_retracting : ∃ t u,
    (packing.execute ⟨0, 2⟩ (.whileStatement asserted retracting) ⟨0, ⟨0, []⟩⟩).run asserting =
      .ok t u ∧ t.env = 0 ∧ (∃ v, (packing.condition ⟨0, 2⟩ t.env asserted).run u = .ok false v) ∧
    Settles (fun budget => packing.unrolled budget asserted retracting ⟨0, ⟨0, []⟩⟩) asserting
      (.ok t u) := by
  have natives : ∀ entry ∈ packing.natives, entry.2.Pure := by
    intro entry listed
    obtain rfl := List.mem_singleton.mp listed
    exact Native.pure_pack
  obtain ⟨-, unrolling, returning⟩ := while_ordinary packing natives asserted
    retracting_undeclaring ⟨0, ⟨0, []⟩⟩ asserting
  obtain ⟨env, falsity⟩ := returning ⟨0, 2⟩ _ _ rfl
  exact ⟨_, _, rfl, env, falsity _ asserting_fits, (unrolling _).mp ⟨⟨⟨0, 2⟩, rfl⟩, nofun⟩⟩

end Setup

end DynamicScope
