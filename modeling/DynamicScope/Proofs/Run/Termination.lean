import DynamicScope.Proofs.Run.Activation
import DynamicScope.Proofs.Run.Budget
import DynamicScope.Proofs.Run.Exhaustion
import DynamicScope.Proofs.Scoping.Unbound

/-! Runs that must end.
Only a loop or a function that calls another one can make a run go on for ever. If the functions of a
program call only by names that the program does not bind, then these stand for the library in whatever
environment a body is evaluated, since environments are copied and changed for other names only. So no
body is entered from within a body, and what runs inside each other is a path through the statements and
then at most one body, which stands elsewhere in the program. -/

namespace DynamicScope

open Machine

namespace Ast

/-- Whether a program has no loop, and whether the names by which anything is called in the bodies of its
functions are none that it declares, assigns to or uses as parameters. Such a name is that of a library
function, or it is not bound at all. -/
structure Grounded (program : Ast) : Prop where
  loopless : program.Loopless
  callees : ∀ id parameters body callee args key,
    program.Contains (.functionDeclaration id parameters body) → body.Contains (.call callee args) →
      callee.target? = some key → ¬ program.Binds key

instance (tree : Ast) : Decidable tree.Loopless :=
  decidable_of_iff (∀ part ∈ tree.subtrees, part.isLoop = false) (by simp [mem_subtrees, Loopless])

instance (tree : Ast) (name : Name) : Decidable (tree.Binds name) :=
  decidable_of_iff (∃ part ∈ tree.subtrees, ∃ id ∈ part.binders, ∃ key ∈ id.target?,
    key.key = name.key) (by simp [mem_subtrees, Binds])

def body? : Ast → Option Ast
  | .functionDeclaration _ _ body => some body
  | _ => none

def callee? : Ast → Option Name
  | .call callee _ => callee.target?
  | _ => none

instance (program : Ast) : Decidable program.Grounded :=
  decidable_of_iff (program.Loopless ∧ ∀ part ∈ program.subtrees, ∀ body ∈ part.body?,
      ∀ inner ∈ body.subtrees, ∀ key ∈ inner.callee?, ¬ program.Binds key) <| by
    constructor
    · rintro ⟨loopless, free⟩
      refine ⟨loopless, fun id parameters body callee args key declared inside named => ?_⟩
      exact free _ (mem_subtrees.mpr declared) body rfl _ (mem_subtrees.mpr inside) key named
    · rintro ⟨loopless, callees⟩
      refine ⟨loopless, fun part declared body declares inner inside key named => ?_⟩
      cases part <;> cases declares
      cases inner with
      | call callee args =>
        exact callees _ _ body callee args key (mem_subtrees.mp declared) (mem_subtrees.mp inside)
          named
      | _ => cases named

end Ast

/-- Whether a tree stands in the body of a function that is declared in a program. -/
def Ast.InBody (program tree : Ast) : Prop :=
  ∃ id parameters body, program.Contains (.functionDeclaration id parameters body) ∧
    body.Contains tree

namespace Setup

variable {setup : Setup} {budget : Budget} {program : Ast} {x y : Evaluation}

theorem value?_firstBindings_ne_function (natives : setup.natives = []) (name : Name) (i : Nat)
    (parameters body : Ast) :
    setup.firstBindings.value? name ≠ some (.function i parameters body) := by
  intro found
  obtain ⟨entry, listed, same⟩ := Bindings.mem_of_value? found
  have held : entry.2.From [] := (accounted_firstWorld natives).bound 0 entry listed
  rw [same] at held
  cases held.mem ⟨i, rfl⟩

theorem not_calls_of_inBody (natives : setup.natives = []) (grounded : program.Grounded)
    (reached : setup.Reaches budget program x) (within : program.InBody x.tree) {json : Json}
    {parameters body : Ast} : ¬ x.Calls json parameters body := by
  rintro ⟨callee, args, i, same, named, found⟩
  obtain ⟨id, parameters', body', declared, inside⟩ := within
  rw [same] at inside
  obtain ⟨key, read, bound⟩ := value?_of_lookup? found
  have target : callee.target? = some key := Ast.target?_eq_some_iff.mpr (named ▸ read)
  have free := grounded.callees id parameters' body' callee args key declared inside target
  have first := (gives_of_reaches natives free reached).value
  exact value?_firstBindings_ne_function natives key i parameters body (first.symm.trans bound)

theorem calls_of_reaches (natives : setup.natives = []) (grounded : program.Grounded)
    (reached : setup.Reaches budget program x) :
    x.calls = budget.calls ∨ x.calls + 1 = budget.calls ∧ program.InBody x.tree := by
  obtain ⟨visit, listed, start, started, path⟩ := reached
  induction path with
  | refl => exact .inl (Visit.calls_of_evaluation? started)
  | @tail y z path next ih =>
    have reached : setup.Reaches budget program y := ⟨visit, listed, start, started, path⟩
    rcases next.within_or_enters with within | @⟨json, parameters, vs, v, fewer, called, -, -⟩
    · obtain ⟨child, inside, found⟩ := within.inside
      rw [within.calls]
      refine ih.imp_right fun ⟨fewer, id, parameters, body, declared, inner⟩ => ?_
      exact ⟨fewer, id, parameters, body, declared, (inner.tail inside).trans found⟩
    · rcases ih with all | ⟨-, inner⟩
      · obtain ⟨id, s, w, visited⟩ := declared_of_calls natives reached called
        have declared := contains_of_mem_runVisits visited
        exact .inr ⟨fewer.symm.trans all, id, parameters, z.tree, declared, .refl⟩
      · exact absurd called (not_calls_of_inBody natives grounded reached inner)

theorem run_ne_exhausted (natives : setup.natives = []) (grounded : program.Grounded)
    (room : 1 ≤ budget.calls) : (setup.run budget program).result ≠ .error .exhausted := by
  intro spent
  cases block : program.block? with
  | error e =>
    rw [setup.run_eq_of_no_block block] at spent
    cases spent
    unfold Ast.block? at block
    split at block <;> cases block
  | ok body =>
    rw [setup.run_eq_of_block block] at spent
    obtain ⟨u, ran⟩ : ∃ u, (setup.execute budget body setup.firstState).run setup.firstWorld =
        .error .exhausted u := by
      generalize (setup.execute budget body setup.firstState).run setup.firstWorld = x at spent
      cases x with
      | ok t u => cases spent
      | error e u =>
        cases spent
        exact ⟨u, rfl⟩
    have loopless := grounded.loopless.child (Ast.mem_children_of_block? block)
    obtain ⟨visit, listed, start, started, failed⟩ :=
      exhaustedAt_of_execute budget body loopless _ _ u ran
    obtain ⟨y, path, none, json, parameters, inner, called⟩ :=
      outOfCalls_of_exhausted natives start failed
    have listed : visit ∈ setup.runVisits budget program := by
      rw [runVisits, block]
      exact listed
    have reached : setup.Reaches budget program y := ⟨visit, listed, start, started, path⟩
    rcases calls_of_reaches natives grounded reached with all | ⟨-, within⟩
    · omega
    · exact not_calls_of_inBody natives grounded reached within called

end Setup

/-- How deep an activation can become at the most: as deep as its tree, and, where a call can still be
entered, as deep as the bodies of functions besides. -/
def Activation.bound (calls spare : Nat) : Activation → Nat
  | .execution tree _ _ => tree.outerSize + spare
  | .evaluation x => x.tree.size + if x.calls = calls then spare else 0

def Activation.Of (setup : Setup) (budget : Budget) (program : Ast) : Activation → Prop
  | .execution tree s w =>
    tree.Loopless ∧ setup.visits budget tree s w ⊆ setup.runVisits budget program
  | .evaluation x => setup.Reaches budget program x

namespace Setup

variable {setup : Setup} {budget : Budget} {program body : Ast} {a b : Activation}

theorem Activates.of (h : setup.Activates budget a b) (here : a.Of setup budget program) :
    b.Of setup budget program := by
  cases h with
  | @item items later item s t w v before =>
    obtain ⟨loopless, visited⟩ := here
    rw [visits, partVisits] at visited
    have listed : item ∈ items ++ item :: later := List.mem_append_right _ (.head _)
    refine ⟨(loopless.child (.head _)).child listed, ?_⟩
    exact List.Subset.trans (visits_subset_of_before before) visited
  | check | repeated => cases here.1 _ .refl
  | expression started =>
    have visited : setup.visits budget _ _ _ = _ := visits_of_evaluation? started
    exact ⟨_, here.2 (visited ▸ .head _), _, started, .refl⟩
  | part started =>
    obtain ⟨visit, listed, start, first, path⟩ := here
    exact ⟨visit, listed, start, first, path.tail started⟩

theorem Activates.bound_lt (natives : setup.natives = []) (grounded : program.Grounded)
    (block : program.block? = .ok body) (h : setup.Activates budget a b)
    (here : a.Of setup budget program) :
    b.bound budget.calls (body.size - body.outerSize) <
      a.bound budget.calls (body.size - body.outerSize) := by
  cases h with
  | item before =>
    exact Nat.add_lt_add_right (Ast.outerSize_lt_block (List.mem_append_right _ (.head _))) _
  | check | repeated => cases here.1 _ .refl
  | expression started =>
    rw [Activation.bound, Activation.bound, if_pos (Visit.calls_of_evaluation? started)]
    exact Nat.add_lt_add_right (Visit.size_lt_of_evaluation? started) _
  | @part x y started =>
    rcases started.within_or_enters with within | @⟨json, parameters, vs, v, fewer, called, -, -⟩
    · obtain ⟨child, inside, found⟩ := within.inside
      rw [Activation.bound, Activation.bound, within.calls]
      refine Nat.add_lt_add_right (Nat.lt_of_le_of_lt (Ast.size_le_of_contains found) ?_) _
      exact Ast.size_lt_of_mem_children inside
    · obtain ⟨id, s, w, visited⟩ := declared_of_calls natives here called
      rw [runVisits, block] at visited
      have apart := size_add_outerSize_le body visited
      have positive := x.tree.size_pos
      rcases calls_of_reaches natives grounded here with all | ⟨-, inner⟩
      · rw [Activation.bound, Activation.bound, if_pos all, if_neg (by omega)]
        omega
      · exact absurd called (not_calls_of_inBody natives grounded here inner)

theorem length_lt_bound (natives : setup.natives = []) (grounded : program.Grounded)
    (block : program.block? = .ok body) (chain : List Activation) (here : a.Of setup budget program)
    (linked : List.IsChain (setup.Activates budget) (a :: chain)) :
    chain.length < a.bound budget.calls (body.size - body.outerSize) := by
  induction chain generalizing a with
  | nil =>
    cases a with
    | execution tree s w => exact Nat.lt_add_right _ tree.outerSize_pos
    | evaluation x => exact Nat.lt_add_right _ x.tree.size_pos
  | cons b chain ih =>
    obtain ⟨first, rest⟩ := List.isChain_cons_cons.mp linked
    have below := ih (first.of here) rest
    have smaller := first.bound_lt natives grounded block here
    rw [List.length_cons]
    omega

/-- Divergence needs a loop or recursion. A program that has no loop, and whose functions call nothing but
by names that the program does not bind, comes to an end without native functions: with any budget that
has room for one call the run prints the same values or fails alike, and never uses up what it is allowed.
At no moment of a run are there more executions and evaluations inside each other than the size of the
program. -/
theorem run_terminates (setup : Setup) (natives : setup.natives = []) {program : Ast}
    (grounded : program.Grounded) :
    (∃ outcome : RunOutcome, outcome.result ≠ .error .exhausted ∧
      ∀ budget : Budget, 1 ≤ budget.calls → setup.run budget program = outcome) ∧
    ∀ (budget : Budget) (body : Ast), program.block? = .ok body → ∀ chain : List Activation,
      List.IsChain (setup.Activates budget)
        (.execution body setup.firstState setup.firstWorld :: chain) →
          chain.length + 1 < program.size := by
  refine ⟨⟨setup.run ⟨1, 0⟩ program, run_ne_exhausted natives grounded (Nat.le_refl 1),
    fun budget room => ?_⟩, fun budget body block chain linked => ?_⟩
  · have less : (⟨1, 0⟩ : Budget) ≤ budget := ⟨room, Nat.zero_le _⟩
    rcases setup.run_of_le less program with spent | same
    · exact absurd spent (run_ne_exhausted natives grounded (Nat.le_refl 1))
    · exact same.symm
  · have inside := Ast.mem_children_of_block? block
    have here : (Activation.execution body setup.firstState setup.firstWorld).Of setup budget
        program := by
      refine ⟨grounded.loopless.child inside, ?_⟩
      rw [runVisits, block]
      exact List.Subset.refl _
    have below := length_lt_bound natives grounded block chain here linked
    have outer := body.outerSize_le_size
    have whole := Ast.size_lt_of_mem_children inside
    rw [Activation.bound] at below
    omega

/-- Puts a function that calls the library into an array, and calls it on infinity. -/
def storedNorm : Ast :=
  let name (s : String) := Ast.identifier (.scalar (.string s))
  .program (.block (.list [
    .functionDeclaration (name "norm") (.list [name "x"]) (.call (name "hypot") (.list [name "x"])),
    .variableDeclaration (name "stored") (.arrayLiteral (.list [name "norm"])),
    .printStatement (.call (name "norm")
      (.list [.numeral (.scalar (.number (.double (.infinity false))))]))]))

theorem run_terminates_storedNorm :
    (∀ budget : Budget, 1 ≤ budget.calls →
      (bare.run budget storedNorm).result = .ok [.double (.infinity false)]) ∧
    ∀ (budget : Budget) (body : Ast), storedNorm.block? = .ok body → ∀ chain : List Activation,
      List.IsChain (bare.Activates budget)
        (.execution body bare.firstState bare.firstWorld :: chain) → chain.length + 1 < 21 := by
  obtain ⟨⟨outcome, -, same⟩, shallow⟩ := run_terminates bare rfl (by decide : storedNorm.Grounded)
  refine ⟨fun budget room => ?_, shallow⟩
  rw [same budget room, ← same ⟨1, 0⟩ (Nat.le_refl 1)]
  rfl

end Setup

end DynamicScope
