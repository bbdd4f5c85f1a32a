import DynamicScope.Proofs.Heap.Preserved
import DynamicScope.Proofs.Run.Additions
import DynamicScope.Proofs.Run.Walk

/-! What executions leave in the environments that there were.
Of the statements only assignments change an environment, each of them one name of the environment that
it is executed in. So an environment ends with the bindings it had, overlaid by what the assignments in
it have bound. A statement that fails binds nothing, but for an assignment that fails when it is told to
the trace: it has given its name the value by then. -/

namespace DynamicScope

open Machine

theorem Bindings.insertAll_filterMap_cons (b : Bindings) (f : Visit → Option (Name × Value))
    (visit : Visit) (visits : List Visit) :
    b.insertAll ((visit :: visits).filterMap f) =
      (b.insertAll (f visit).toList).insertAll (visits.filterMap f) := by
  rw [List.filterMap_cons]
  cases f visit <;> rfl

namespace Setup

variable (setup : Setup) (budget : Budget)

/-- What a visited assignment binds in an environment, whether it then returns or fails. -/
def bindsAt (env : EnvRef) : Visit → Option (Name × Value)
  | .statement (.assignment id part) s w =>
    match (setup.evaluate budget.calls s.env part).run w, id.target? with
    | .ok value v, some key =>
      if s.env = env ∧ (v.bindings s.env).binds key = true then some (key, value) else none
    | _, _ => none
  | _ => none

/-- What an assignment that returns has bound in an environment. -/
def completedAt (env : EnvRef) : Visit → Option (Name × Value)
  | .statement tree s w =>
    match (setup.execute budget tree s).run w with
    | .ok _ _ => setup.bindsAt budget env (.statement tree s w)
    | .error _ _ => none
  | .condition .. => none

/-- Whether an assignment is visited that has bound its name when the line that tells of it cannot be
formed or written. -/
def TellsTooLate (visit : Visit) : Prop :=
  ∃ id part s w value v name key e, visit = .statement (.assignment id part) s w ∧
    (setup.evaluate budget.calls s.env part).run w = .ok value v ∧ id.name? = .ok name ∧
    Name.ofJson? name = .ok key ∧ (v.bindings s.env).binds key = true ∧
    recorded setup 2 (fun _ => do return .assignment (← name.plainText) (← value.toText)) = .error e

variable {setup budget} {s t : State} {w v u : World} {env : EnvRef}

theorem TellsTooLate.level {visit : Visit} (h : setup.TellsTooLate budget visit) :
    2 ≤ setup.level := by
  obtain ⟨_, _, _, _, _, _, _, _, _, -, -, -, -, -, failed⟩ := h
  by_contra below
  rw [recorded, if_neg below] at failed
  cases failed

theorem bindsAt_assignment {id part : Ast} {name : Json} {key : Name} {value : Value}
    (evaluated : (setup.evaluate budget.calls s.env part).run w = .ok value v)
    (named : id.name? = .ok name) (read : Name.ofJson? name = .ok key) :
    setup.bindsAt budget env (.statement (.assignment id part) s w) =
      if s.env = env ∧ (v.bindings s.env).binds key = true then some (key, value) else none := by
  rw [bindsAt, evaluated, Ast.target?_eq_some_iff.mpr (bind_eq_ok.mpr ⟨name, named, read⟩)]

theorem grows_execute {tree : Ast} (single : tree.isSingle = true)
    (other : ∀ id part, tree ≠ .assignment id part) : Grows (setup.execute budget tree s) := by
  have steady := World.steady_le
  have declared (id : Ast) (value : Value) : Grows (s.declare id value) :=
    follows_declare steady s id value
  cases tree with
  | variableDeclaration id part =>
    rw [execute]
    exact grows_bind (setup.grows_evaluate _ _ _) fun value =>
      grows_bind (grows_record _ _ _) fun _ => declared id value
  | functionDeclaration id parameters body =>
    rw [execute]
    exact grows_bind grows_freshIdentity fun _ =>
      grows_bind (grows_record _ _ _) fun _ => declared id _
  | assignment id part => exact absurd rfl (other id part)
  | printStatement part =>
    rw [execute]
    exact grows_bind (setup.grows_evaluate _ _ _) fun value =>
      grows_bind (grows_record _ _ _) fun _ =>
        grows_bind grows_freshIdentity fun _ => follows_pure steady _
  | whileStatement | block => cases single
  | _ => exact grows_throw _

theorem bindings_tell {key : Name} {name : Json} (value : Value) (read : Name.ofJson? name = .ok key)
    (event : Unit → Except Failure Event) (there : env < v.size) :
    ((do assign s.env name value; record setup 2 event; return s : Machine State).after v).bindings env =
      if s.env = env ∧ (v.bindings s.env).binds key = true then (v.bindings env).insert key value
      else v.bindings env := by
  have told (u : World) : u ≤ (do record setup 2 event; return s : Machine State).after u :=
    grows_bind (grows_record setup 2 event) (fun _ => follows_pure World.steady_le s) u
  rw [after_bind, run_assign, read]
  dsimp only
  by_cases bound : (v.bindings s.env).binds key = true
  · rw [if_pos bound]
    dsimp only
    have still : env < World.size { v with store := v.store.overwrite s.env key value } := by
      simpa [World.size] using there
    refine (World.bindings_eq (told _) still).trans ?_
    by_cases here : s.env = env
    · subst here
      rw [if_pos ⟨rfl, bound⟩]
      exact Store.bindings_overwrite_self _ _ _ _ there
    · rw [if_neg fun both => here both.1]
      exact Store.bindings_overwrite_of_ne _ _ _ _ _ (Ne.symm here)
  · rw [if_neg bound, if_neg fun both => bound both.2]

theorem bindings_assignment (id part : Ast) (there : env < w.size) :
    ((setup.execute budget (.assignment id part) s).after w).bindings env =
      (w.bindings env).insertAll
        (setup.bindsAt budget env (.statement (.assignment id part) s w)).toList := by
  have grows := setup.grows_evaluate budget.calls s.env part
  rw [execute, after_bind]
  cases evaluated : (setup.evaluate budget.calls s.env part).run w with
  | error e v =>
    have grown := grows w
    rw [after, evaluated] at grown
    rw [bindsAt, evaluated]
    exact World.bindings_eq grown there
  | ok value v =>
    have grown := grows.le_of_ok evaluated
    have kept := World.bindings_eq grown there
    cases named : id.name? with
    | error e =>
      have nothing : id.target? = none := by rw [Ast.target?, named]; rfl
      rw [bindsAt, evaluated, nothing]
      exact kept
    | ok name =>
      dsimp only
      rw [lift_ok_bind]
      cases read : Name.ofJson? name with
      | error e =>
        have nothing : id.target? = none := by
          rw [Ast.target?, named]
          exact congrArg Except.toOption read
        rw [bindsAt, evaluated, nothing, after_bind, run_assign, read]
        exact kept
      | ok key =>
        rw [bindsAt_assignment evaluated named read,
          bindings_tell value read _ (Nat.lt_of_lt_of_le there (World.size_le grown)), kept]
        split <;> rfl

theorem bindings_single {tree : Ast} (single : tree.isSingle = true) (there : env < w.size) :
    ((setup.execute budget tree s).after w).bindings env =
      (w.bindings env).insertAll (setup.bindsAt budget env (.statement tree s w)).toList := by
  cases tree with
  | assignment id part => exact bindings_assignment id part there
  | _ => exact World.bindings_eq (grows_execute single nofun w) there

theorem run_assignment_of_bound {id part : Ast} {name : Json} {key : Name} {value : Value}
    (evaluated : (setup.evaluate budget.calls s.env part).run w = .ok value v)
    (named : id.name? = .ok name) (read : Name.ofJson? name = .ok key)
    (bound : (v.bindings s.env).binds key = true) :
    (setup.execute budget (.assignment id part) s).run w =
      (do record setup 2 fun _ => do return .assignment (← name.plainText) (← value.toText)
          return s : Machine State).run { v with store := v.store.overwrite s.env key value } := by
  rw [execute, run_bind_of_ok evaluated, named, lift_ok_bind, EStateM.run_bind, run_assign, read]
  dsimp only
  rw [if_pos bound]

theorem TellsTooLate.failing {tree : Ast} (h : setup.TellsTooLate budget (.statement tree s w)) :
    ∃ e u, (setup.execute budget tree s).run w = .error e u := by
  obtain ⟨id, part, s, w, value, v, name, key, e, same, evaluated, named, read, bound, told⟩ := h
  cases same
  rw [run_assignment_of_bound evaluated named read bound, EStateM.run_bind, run_record, told]
  exact ⟨_, _, rfl⟩

theorem of_bindsAt {tree : Ast} {entry : Name × Value}
    (binds : setup.bindsAt budget env (.statement tree s w) = some entry) :
    ∃ id part value v name key, tree = .assignment id part ∧
      (setup.evaluate budget.calls s.env part).run w = .ok value v ∧ id.name? = .ok name ∧
      Name.ofJson? name = .ok key ∧ (v.bindings s.env).binds key = true := by
  cases tree with
  | assignment id part =>
    cases evaluated : (setup.evaluate budget.calls s.env part).run w with
    | error e v =>
      rw [bindsAt, evaluated] at binds
      cases binds
    | ok value v =>
      cases target : id.target? with
      | none =>
        rw [bindsAt, evaluated, target] at binds
        cases binds
      | some key =>
        obtain ⟨name, named, read⟩ := bind_eq_ok.mp (Ast.target?_eq_some_iff.mp target)
        rw [bindsAt_assignment evaluated named read] at binds
        obtain ⟨⟨-, bound⟩, -⟩ := Option.ite_none_right_eq_some.mp binds
        exact ⟨id, part, value, v, name, key, rfl, evaluated, named, read, bound⟩
  | _ => cases binds

theorem tellsTooLate_of_error {tree : Ast} {entry : Name × Value} {e : Failure}
    (ran : (setup.execute budget tree s).run w = .error e u)
    (binds : setup.bindsAt budget env (.statement tree s w) = some entry) :
    setup.TellsTooLate budget (.statement tree s w) := by
  obtain ⟨id, part, value, v, name, key, rfl, evaluated, named, read, bound⟩ := of_bindsAt binds
  rw [run_assignment_of_bound evaluated named read bound, EStateM.run_bind, run_record] at ran
  cases told : recorded setup 2 (fun _ => do return .assignment (← name.plainText) (← value.toText)) with
  | error e' =>
    exact ⟨id, part, s, w, value, v, name, key, e', rfl, evaluated, named, read, bound, told⟩
  | ok added =>
    rw [told] at ran
    cases added <;> cases ran

theorem completedAt_eq_none {tree : Ast} {e : Failure}
    (ran : (setup.execute budget tree s).run w = .error e u) :
    setup.completedAt budget env (.statement tree s w) = none := by
  rw [completedAt, ran]

theorem completedAt_eq {visit : Visit} (h : ¬ setup.TellsTooLate budget visit) :
    setup.completedAt budget env visit = setup.bindsAt budget env visit := by
  cases visit with
  | condition test env w => rfl
  | statement tree s w =>
    cases ran : (setup.execute budget tree s).run w with
    | ok t u => rw [completedAt, ran]
    | error e u =>
      rw [completedAt_eq_none ran]
      cases binds : setup.bindsAt budget env (.statement tree s w) with
      | none => rfl
      | some entry => exact absurd (tellsTooLate_of_error ran binds) h

def ending : EStateM.Result Failure World State → World
  | .ok _ u => u
  | .error _ u => u

theorem Walk.bindings {visits : List Visit} {x : EStateM.Result Failure World State}
    (walk : Walk setup budget s w visits x) (there : env < w.size) :
    (ending x).bindings env =
      (w.bindings env).insertAll (visits.filterMap (setup.bindsAt budget env)) := by
  induction walk with
  | done | stopped => rfl
  | @statement tree s _ w _ _ _ single ran _ ih =>
    have first : ((setup.execute budget tree s).after w).bindings env = _ :=
      bindings_single single there
    rw [after_of_ok ran] at first
    rw [Bindings.insertAll_filterMap_cons, ← first]
    exact ih (Nat.lt_of_lt_of_le there (setup.counts_le_execute budget ran).1)
  | @failing tree s w _ _ single ran =>
    have last : ((setup.execute budget tree s).after w).bindings env = _ :=
      bindings_single single there
    rw [after, ran] at last
    rw [Bindings.insertAll_filterMap_cons]
    exact last
  | check ran _ ih =>
    have grown := (setup.grows_condition budget _ _).le_of_ok ran
    rw [List.filterMap_cons_none rfl, ← World.bindings_eq grown there]
    exact ih (Nat.lt_of_lt_of_le there (World.size_le grown))
  | @failingCheck test env' _ w _ _ ran =>
    have grown := setup.grows_condition budget env' test w
    rw [after, ran] at grown
    exact World.bindings_eq grown there

/-- When an execution fails, every environment that there was holds what it held and what the assignments
in it have bound. These are the assignments that completed, unless the last one is told of too late: then
it has bound its name as well, which takes a trace that shows statements. So a single statement that fails
otherwise leaves all environments as they were. What was printed before is there in any case. -/
theorem failing_leaves {tree : Ast} (there : s.env < w.size) {e : Failure}
    (failed : (setup.execute budget tree s).run w = .error e u) :
    (tree.isSingle = true → ¬ setup.TellsTooLate budget (.statement tree s w) →
      ∀ env < w.size, u.bindings env = w.bindings env) ∧
    (∀ env < w.size, u.bindings env = (w.bindings env).insertAll
      ((setup.visits budget tree s w).filterMap (setup.bindsAt budget env))) ∧
    ((∀ visit ∈ setup.visits budget tree s w, ¬ setup.TellsTooLate budget visit) →
      ∀ env < w.size, u.bindings env = (w.bindings env).insertAll
        ((setup.visits budget tree s w).filterMap (setup.completedAt budget env))) ∧
    (∀ visit, setup.TellsTooLate budget visit → 2 ≤ setup.level) ∧
    ∀ h : Heap, (∀ entry ∈ setup.natives, entry.2.KeepsObjects) → h.Covers w →
      h.Holds s.output.array → ∃ h', h ≤ h' ∧ h'.Covers u ∧ h'.Holds s.output.array := by
  have effects (env : EnvRef) (there : env < w.size) : u.bindings env = (w.bindings env).insertAll
      ((setup.visits budget tree s w).filterMap (setup.bindsAt budget env)) := by
    have walked := (walk_execute setup budget tree s w).bindings there
    rwa [failed] at walked
  have completed (inTime : ∀ visit ∈ setup.visits budget tree s w, ¬ setup.TellsTooLate budget visit)
      (env : EnvRef) (there : env < w.size) : u.bindings env = (w.bindings env).insertAll
        ((setup.visits budget tree s w).filterMap (setup.completedAt budget env)) := by
    rw [List.filterMap_congr fun visit listed => completedAt_eq (inTime visit listed)]
    exact effects env there
  refine ⟨fun single inTime env there => ?_, effects, completed, fun _ => TellsTooLate.level, ?_⟩
  · have visit : setup.visits budget tree s w = [.statement tree s w] := visits_single single s w
    have kept := completed (by rw [visit]; simpa using inTime) env there
    rw [visit, Bindings.insertAll_filterMap_cons, completedAt_eq_none failed] at kept
    exact kept
  · intro h keeps covers output
    obtain ⟨h', up, covers', -⟩ :=
      ((Heap.keptThroughout keeps).execute budget covers there output trivial).after
    rw [after, failed] at covers'
    exact ⟨h', up, covers', Heap.Holds.mono up _ output⟩

def untold : World where
  store := ⟨#[[(.ofString "f", .function 0 (.list [.scalar .null]) (.booleanLiteral true)),
    (.ofString "y", .boolean false)]]⟩
  nextIdentity := 2
  trace := #[]

/-- An assignment of the function fails where the trace shows statements, since the function has no text,
and leaves the name with the function as its value. -/
theorem assignment_untold :
    let name (s : String) := Ast.identifier (.scalar (.string s))
    ∃ e u, (execute ⟨2, []⟩ ⟨0, 0⟩ (.assignment (name "y") (name "f")) ⟨0, ⟨1, []⟩⟩).run untold =
        .error e u ∧
      (untold.bindings 0).value? (.ofString "y") = some (.boolean false) ∧
      (u.bindings 0).value? (.ofString "y") =
        some (.function 0 (.list [.scalar .null]) (.booleanLiteral true)) :=
  ⟨_, _, rfl, rfl, rfl⟩

def untoldHeap : Heap where
  object?
    | 0 => some (.function 0 (.list [.scalar .null]) (.booleanLiteral true))
    | 1 => some (.array 1 [])
    | _ => none

theorem untoldHeap_covers : untoldHeap.Covers untold := by
  refine ⟨fun env there => ?_, fun i later => ?_⟩
  · obtain rfl := Nat.lt_one_iff.mp there
    simp [Invariant.Bound, untold, World.bindings, Store.bindings, Heap.invariant, Heap.Holds,
      untoldHeap]
  · obtain ⟨k, rfl⟩ := Nat.exists_eq_add_of_le' later
    rfl

theorem failing_leaves_untold :
    let name (s : String) := Ast.identifier (.scalar (.string s))
    let block := Ast.block (.list [.assignment (name "y") (.booleanLiteral true),
      .printStatement (name "z")])
    ∃ e u, (execute ⟨2, []⟩ ⟨0, 0⟩ block ⟨0, ⟨1, []⟩⟩).run untold = .error e u ∧
      u.bindings 0 = (untold.bindings 0).insertAll [(.ofString "y", .boolean true)] ∧
      ∃ h', untoldHeap ≤ h' ∧ h'.Covers u ∧ h'.Holds (.array 1 []) := by
  intro name block
  have there : (⟨0, ⟨1, []⟩⟩ : State).env < untold.size := by decide
  obtain ⟨e, u, failed⟩ : ∃ e u,
      (execute ⟨2, []⟩ ⟨0, 0⟩ block ⟨0, ⟨1, []⟩⟩).run untold = .error e u := ⟨_, _, rfl⟩
  obtain ⟨-, -, completed, -, objects⟩ := failing_leaves there failed
  refine ⟨e, u, failed, completed ?_ 0 there, objects untoldHeap nofun untoldHeap_covers ?_⟩
  · intro visit listed late
    rcases List.mem_pair.mp listed with rfl | rfl
    · obtain ⟨e, u, failed⟩ := late.failing
      cases failed
    · obtain ⟨_, _, _, _, _, _, _, _, _, same, -⟩ := late
      cases same
  · simp [Output.array, Heap.Holds, Heap.HoldsAll, untoldHeap]

end Setup

end DynamicScope
