import DynamicScope.Proofs.Origin.Declaration

/-! Names that a program does not bind.
Environments are copied, overlaid and changed all the time, but only for the names that are declared,
assigned to or used as parameters somewhere in the program. Wherever an evaluation is reached, any other
name stands for what it stood for at the start. -/

namespace DynamicScope

open Machine

namespace Ast

def binders : Ast → List Ast
  | .variableDeclaration id _ | .assignment id _ => [id]
  | .functionDeclaration id parameters _ => id :: parameters.children
  | _ => []

/-- Whether a name is declared, assigned to or used as a parameter somewhere in a tree. -/
def Binds (tree : Ast) (name : Name) : Prop :=
  ∃ part, tree.Contains part ∧ ∃ id ∈ part.binders, ∃ key, id.target? = some key ∧ key.key = name.key

variable {tree part id : Ast} {name key : Name}

theorem binds_of_binder (listed : id ∈ tree.binders) (named : id.target? = some key)
    (same : key.key = name.key) : tree.Binds name := ⟨tree, .refl, id, listed, key, named, same⟩

theorem Binds.of_contains (h : part.Binds name) (inside : tree.Contains part) : tree.Binds name := by
  obtain ⟨binder, within, found⟩ := h
  exact ⟨binder, inside.trans within, found⟩

theorem Binds.of_child (h : part.Binds name) (listed : part ∈ tree.children) : tree.Binds name :=
  h.of_contains (.single listed)

mutual

theorem binds_of_mem_targets (tree : Ast) (listed : key ∈ tree.targets) (same : key.key = name.key) :
    tree.Binds name := by
  cases tree with
  | assignment id part =>
    rw [targets, Option.mem_toList] at listed
    exact binds_of_binder (.head _) listed same
  | whileStatement test body =>
    exact (binds_of_mem_targets body listed same).of_child (.tail _ (.head _))
  | block statements => exact (binds_of_mem_targets statements listed same).of_child (.head _)
  | list items =>
    obtain ⟨item, inside, binds⟩ := binds_of_mem_targetsAll items listed same
    exact binds.of_child inside
  | _ => cases listed

theorem binds_of_mem_targetsAll (items : List Ast) (listed : key ∈ targetsAll items)
    (same : key.key = name.key) : ∃ item ∈ items, item.Binds name := by
  cases items with
  | nil => cases listed
  | cons item items =>
    rcases List.mem_append.mp listed with listed | listed
    · exact ⟨item, .head _, binds_of_mem_targets item listed same⟩
    · obtain ⟨later, inside, binds⟩ := binds_of_mem_targetsAll items listed same
      exact ⟨later, .tail _ inside, binds⟩

end

theorem Assigns.binds (h : tree.Assigns name) : tree.Binds name := by
  obtain ⟨target, listed, same⟩ := h
  exact binds_of_mem_targets tree listed same

end Ast

/-- Whether a name stands for what is given, in an environment that is there. -/
structure World.Gives (name : Name) (o : Option Value) (w : World) (env : EnvRef) : Prop where
  there : env < w.size
  value : (w.bindings env).value? name = o

namespace World.Gives

variable {name : Name} {o : Option Value} {w v : World} {env : EnvRef}

theorem of_le (here : w.Gives name o env) (grown : w ≤ v) : v.Gives name o env :=
  ⟨Nat.lt_of_lt_of_le here.there (size_le grown),
    (congrArg (·.value? name) (bindings_eq grown here.there)).trans here.value⟩

theorem of_altered (here : w.Gives name o env) {assigned : Name → Prop} {changed : EnvRef}
    (h : w.Altered assigned changed v) (free : ¬ assigned name) : v.Gives name o env := by
  refine ⟨Nat.lt_of_lt_of_le here.there h.size, Eq.trans ?_ here.value⟩
  by_cases same : env = changed
  · exact same ▸ h.values name free
  · rw [h.others env here.there same]

end World.Gives

def Visit.env : Visit → EnvRef
  | .statement _ s _ => s.env
  | .condition _ env _ => env

/-- Whether a name stands for what is given at every visit of an execution and where it ends. -/
structure Spares (name : Name) (o : Option Value) (visits : List Visit)
    (x : EStateM.Result Failure World State) : Prop where
  visits : ∀ visit ∈ visits, visit.world.Gives name o visit.env
  ended : ∀ t u, x = .ok t u → u.Gives name o t.env

namespace Spares

variable {name : Name} {o : Option Value} {visits : List Visit} {w : World}

theorem single {visit : Visit} {x : EStateM.Result Failure World State}
    (here : visit.world.Gives name o visit.env)
    (ended : ∀ t u, x = .ok t u → u.Gives name o t.env) : Spares name o [visit] x :=
  ⟨fun _ listed => List.mem_singleton.mp listed ▸ here, ended⟩

theorem unvisited {x : EStateM.Result Failure World State}
    (ended : ∀ t u, x = .ok t u → u.Gives name o t.env) : Spares name o [] x :=
  ⟨fun _ listed => absurd listed List.not_mem_nil, ended⟩

theorem error (e : Failure) (w : World) : Spares name o [] (.error e w) := by
  refine unvisited fun t u same => ?_
  cases same

theorem append {later : List Visit} {x : EStateM.Result Failure World State}
    (before : ∀ visit ∈ visits, visit.world.Gives name o visit.env) (h : Spares name o later x) :
    Spares name o (visits ++ later) x :=
  ⟨List.forall_mem_append.mpr ⟨before, h.visits⟩, h.ended⟩

theorem cons {visit : Visit} {later : List Visit} {x : EStateM.Result Failure World State}
    (here : visit.world.Gives name o visit.env) (h : Spares name o later x) :
    Spares name o (visit :: later) x :=
  ⟨List.forall_mem_cons.mpr ⟨here, h.visits⟩, h.ended⟩

theorem following {α : Type} {m : Machine α} {f : α → Machine State}
    {next : α → World → List Visit}
    (rest : ∀ a v, m.run w = .ok a v → Spares name o (next a v) ((f a).run v)) :
    Spares name o (Machine.following m w next) ((m >>= f).run w) := by
  rw [EStateM.run_bind]
  cases ran : m.run w with
  | ok a v =>
    rw [following_of_ok ran]
    exact rest a v ran
  | error e v =>
    rw [following_of_error ran]
    exact error e v

theorem trans {m : Machine State} {f : State → Machine State} {later : State → World → List Visit}
    (first : Spares name o visits (m.run w))
    (rest : ∀ t v, m.run w = .ok t v → v.Gives name o t.env →
      Spares name o (later t v) ((f t).run v)) :
    Spares name o (visits ++ Machine.following m w later) ((m >>= f).run w) :=
  append first.visits (following fun t v ran => rest t v ran (first.ended t v ran))

end Spares

namespace Setup

variable {setup : Setup} {budget : Budget} {name : Name} {o : Option Value} {s t : State} {w u : World}

theorem gives_of_declare {id : Ast} {value : Value} (here : w.Gives name o s.env)
    (free : ∀ key, id.target? = some key → key.key ≠ name.key)
    (ran : (s.declare id value).run w = .ok t u) : u.Gives name o t.env := by
  have framed : Framed (fun _ => True) s w true ((s.declare id value).run w) :=
    framed_declare here.there id value
  rw [ran] at framed
  cases framed with
  | ok altered there env =>
    cases named : id.name?.bind Name.ofJson? with
    | error e =>
      rw [State.declare, named] at ran
      cases ran
    | ok key =>
      refine ⟨there, ?_⟩
      rw [bindings_of_declare ran named, Bindings.value?_insert,
        if_neg (free key (Ast.target?_eq_some_iff.mpr named)), here.value]

theorem gives_of_execute {tree : Ast} (free : ¬ tree.Binds name) (there : s.env < w.size)
    (ran : (setup.execute budget tree s).run w = .ok t u) {env : EnvRef} (here : w.Gives name o env) :
    u.Gives name o env := by
  have framed := setup.framed_execute budget tree s w there
  rw [ran] at framed
  cases framed with
  | ok altered _ _ => exact here.of_altered altered fun assigned => free assigned.binds

theorem spares_of_quiet {tree : Ast} (free : ¬ tree.Binds name) (here : w.Gives name o s.env)
    (quiet : setup.declares budget tree s w = false) :
    Spares name o [.statement tree s w] ((setup.execute budget tree s).run w) := by
  refine .single here fun t u ran => ?_
  have framed := setup.framed_execute budget tree s w here.there
  rw [ran, quiet] at framed
  cases framed with
  | ok _ _ same => exact same ▸ gives_of_execute free here.there ran here

theorem spares_repeatWhile {test body : Ast} {env : EnvRef} (free : ¬ body.Binds name)
    (each : ∀ s w, w.Gives name o s.env →
      Spares name o (setup.visits budget body s w) ((setup.execute budget body s).run w))
    (iterations : Nat) (s : State) (w : World) (here : w.Gives name o s.env)
    (entry : w.Gives name o env) :
    Spares name o (repeatVisits (.condition test env) (setup.condition budget env test)
        (setup.execute budget body) (setup.visits budget body) iterations s w)
      ((repeatWhile (setup.condition budget env test) (setup.execute budget body) iterations s).run
        w) := by
  induction iterations generalizing s w with
  | zero => exact .error _ w
  | succ iterations ih =>
    rw [repeatVisits_succ, repeatWhile]
    refine .cons entry (.following fun again v ran => ?_)
    have grown := (setup.grows_condition budget env test).le_of_ok ran
    cases again with
    | false =>
      refine .unvisited fun t u ran => ?_
      cases ran
      exact here.of_le grown
    | true =>
      have here' := here.of_le grown
      exact (each s v here').trans fun t u ran after =>
        ih t u after (gives_of_execute free here'.there ran (entry.of_le grown))

mutual

theorem spares_execute (tree : Ast) (free : ¬ tree.Binds name) (s : State) (w : World)
    (here : w.Gives name o s.env) :
    Spares name o (setup.visits budget tree s w) ((setup.execute budget tree s).run w) := by
  cases tree with
  | variableDeclaration id part =>
    refine .single here fun t u ran => ?_
    rw [execute] at ran
    obtain ⟨a, v, evaluated, ran⟩ := of_bind_ok ran
    obtain ⟨_, v', traced, ran⟩ := of_bind_ok ran
    have grown := (setup.grows_evaluate _ _ _).le_of_ok evaluated
    have grown' := (grows_record _ _ _).le_of_ok traced
    refine gives_of_declare (here.of_le (le_trans grown grown')) (fun key named same => ?_) ran
    exact free (Ast.binds_of_binder (.head _) named same)
  | functionDeclaration id parameters body =>
    refine .single here fun t u ran => ?_
    rw [execute] at ran
    obtain ⟨i, v, made, ran⟩ := of_bind_ok ran
    obtain ⟨_, v', traced, ran⟩ := of_bind_ok ran
    have grown := grows_freshIdentity.le_of_ok made
    have grown' := (grows_record _ _ _).le_of_ok traced
    refine gives_of_declare (here.of_le (le_trans grown grown')) (fun key named same => ?_) ran
    exact free (Ast.binds_of_binder (.head _) named same)
  | whileStatement test body =>
    have inside : ¬ body.Binds name := fun binds => free (binds.of_child (.tail _ (.head _)))
    rw [execute, visits]
    exact spares_repeatWhile inside (spares_execute body inside) budget.iterations s w here here
  | block statements =>
    rw [execute, visits]
    exact spares_executeParts statements (fun binds => free (binds.of_child (.head _))) s w here
  | _ => exact spares_of_quiet free here rfl

theorem spares_executeParts (tree : Ast) (free : ¬ tree.Binds name) (s : State) (w : World)
    (here : w.Gives name o s.env) :
    Spares name o (setup.partVisits budget tree s w) ((setup.executeParts budget tree s).run w) := by
  cases tree with
  | list items =>
    rw [executeParts, partVisits]
    exact spares_executeAll items (fun item listed binds => free (binds.of_child listed)) s w here
  | scalar c =>
    cases c with
    | string t =>
      refine .unvisited fun t' u ran => ?_
      rw [executeParts] at ran
      split at ran <;> cases ran
      exact here
    | _ => exact .error _ w
  | _ => exact .error _ w

theorem spares_executeAll (items : List Ast) (free : ∀ item ∈ items, ¬ item.Binds name) (s : State)
    (w : World) (here : w.Gives name o s.env) :
    Spares name o (setup.allVisits budget items s w) ((setup.executeAll budget items s).run w) := by
  cases items with
  | nil =>
    refine .unvisited fun t u ran => ?_
    cases ran
    exact here
  | cons item items =>
    obtain ⟨head, tail⟩ := List.forall_mem_cons.mp free
    rw [executeAll, allVisits_cons]
    exact (spares_execute item head s w here).trans fun t v _ after =>
      spares_executeAll items tail t v after

end

variable {program : Ast} {x y : Evaluation}

omit setup in
theorem target?_of_callBindings {json : Json} {parameters : Ast} {vs : List Value} {frame : Frame}
    (given : callBindings json parameters vs = .ok frame) {entry : Name × Value}
    (listed : entry ∈ frame) : ∃ id ∈ parameters.children, id.target? = some entry.1 := by
  obtain ⟨expected, -, given⟩ := bind_eq_ok.mp given
  split at given
  · obtain ⟨names, read, given⟩ := bind_eq_ok.mp given
    obtain ⟨keys, named, given⟩ := bind_eq_ok.mp given
    cases given
    obtain ⟨json, inside, found⟩ := exists_of_mem_mapM named (List.of_mem_zip listed).1
    exact ⟨.identifier json, Ast.mem_of_parameterNames read inside, Ast.target?_eq_some_iff.mpr found⟩
  · cases given

theorem frame_of_entrance {json : Json} {parameters : Ast} {vs : List Value} {env inner : EnvRef}
    (entered : (setup.entrance json parameters vs env).run w = .ok inner u) :
    inner < u.size ∧ ∃ frame, callBindings json parameters vs = .ok frame := by
  obtain ⟨_, v, -, entered⟩ := of_bind_ok entered
  rw [run_callEnvironment] at entered
  split at entered
  · rename_i frame given
    cases entered
    exact ⟨by simp [Store.merged, World.size], frame, given⟩
  · cases entered

theorem gives_of_enters (natives : setup.natives = []) (reached : setup.Reaches budget program x)
    (free : ¬ program.Binds name) (h : setup.Enters x y) (here : x.world.Gives name o x.env) :
    y.world.Gives name o y.env := by
  obtain @⟨json, parameters, vs, v, -, called, grown, entered⟩ := h
  obtain ⟨id, _, _, declared⟩ := declared_of_calls natives reached called
  obtain ⟨there, frame, given⟩ := frame_of_entrance entered
  have absent : Frame.argument? frame name = none := by
    rw [Frame.argument?, Option.map_eq_none_iff, List.find?_eq_none]
    intro entry listed same
    obtain ⟨parameter, inside, named⟩ := target?_of_callBindings given (List.mem_reverse.mp listed)
    have binds : (Ast.functionDeclaration id parameters y.tree).Binds name :=
      Ast.binds_of_binder (.tail _ inside) named (of_decide_eq_true same)
    exact free (binds.of_contains (contains_of_mem_runVisits declared))
  refine ⟨there, ?_⟩
  rw [bindings_of_entrance given entered, Bindings.value?_insertAll, absent, Option.none_or]
  exact (here.of_le grown).value

omit setup in
theorem gives_of_evaluation? {visit : Visit} {calls : Nat}
    (started : visit.evaluation? calls = some x) (here : visit.world.Gives name o visit.env) :
    x.world.Gives name o x.env := by
  cases visit with
  | condition test env w =>
    cases started
    exact here
  | statement tree s w => cases tree <;> cases started <;> exact here

theorem gives_of_reaches (natives : setup.natives = []) (free : ¬ program.Binds name)
    (reached : setup.Reaches budget program x) :
    x.world.Gives name (setup.firstBindings.value? name) x.env := by
  obtain ⟨visit, listed, start, started, path⟩ := reached
  induction path with
  | refl =>
    obtain ⟨body, block⟩ := exists_block listed
    have inside : ¬ body.Binds name := fun binds =>
      free (binds.of_child (Ast.mem_children_of_block? block))
    have first : setup.firstWorld.Gives name (setup.firstBindings.value? name) setup.firstState.env :=
      ⟨Nat.zero_lt_one, rfl⟩
    rw [runVisits, block] at listed
    exact gives_of_evaluation? started ((spares_execute body inside _ _ first).visits visit listed)
  | @tail y z path next ih =>
    rcases next.within_or_enters with within | enters
    · exact within.env ▸ ih.of_le within.grown
    · exact gives_of_enters natives ⟨visit, listed, start, started, path⟩ free enters ih

end Setup

end DynamicScope
