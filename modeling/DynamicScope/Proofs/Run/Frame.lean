import DynamicScope.Proofs.Run.Growth
import DynamicScope.Proofs.Run.Visits

/-! Execution changes one environment at most.
A statement changes only the environment it is given, and there only the values of names that it
assigns to. It goes on in that very environment if it executes no declaration, and in a new one
otherwise; after that the given environment is out of reach of the statements that follow. -/

namespace DynamicScope

namespace Bindings

theorem names_insert (b : Bindings) (name : Name) (value : Value) (h : b.binds name = true) :
    (b.insert name value).map Prod.fst = b.map Prod.fst := by
  induction b with
  | nil => simp [binds] at h
  | cons entry rest ih =>
    obtain ⟨n, v⟩ := entry
    by_cases same : n.key = name.key
    · simp [insert, same]
    · simp only [binds, value?_cons, if_neg same] at h
      simp [insert, same, ih h]

end Bindings

namespace Ast

def target? (id : Ast) : Option Name := (id.name?.bind Name.ofJson?).toOption

theorem target?_eq_some_iff {id : Ast} {key : Name} :
    id.target? = some key ↔ id.name?.bind Name.ofJson? = .ok key := by
  rw [target?]
  cases id.name?.bind Name.ofJson? with
  | error e => exact ⟨nofun, nofun⟩
  | ok other => exact Option.some_inj.trans ⟨congrArg Except.ok, Except.ok.inj⟩

mutual

def targets : Ast → List Name
  | .assignment id _ => id.target?.toList
  | .whileStatement _ body => body.targets
  | .block statements => statements.targets
  | .list items => targetsAll items
  | _ => []

def targetsAll : List Ast → List Name
  | [] => []
  | item :: items => item.targets ++ targetsAll items

end

/-- Whether a name is assigned to in a tree. -/
def Assigns (tree : Ast) (name : Name) : Prop := ∃ target ∈ tree.targets, target.key = name.key

theorem assigns_assignment {id expression : Ast} {json : Json} {key name : Name}
    (named : id.name? = .ok json) (read : Name.ofJson? json = .ok key) (same : key.key = name.key) :
    (Ast.assignment id expression).Assigns name := by
  have target : id.target? = some key := target?_eq_some_iff.mpr (bind_eq_ok.mpr ⟨json, named, read⟩)
  refine ⟨key, ?_, same⟩
  rw [targets, target]
  exact List.mem_singleton.mpr rfl

theorem assigns_head {item : Ast} {items : List Ast} {name : Name} (h : item.Assigns name) :
    (Ast.list (item :: items)).Assigns name := by
  obtain ⟨target, listed, same⟩ := h
  exact ⟨target, List.mem_append_left _ listed, same⟩

theorem assigns_tail {item : Ast} {items : List Ast} {name : Name}
    (h : (Ast.list items).Assigns name) : (Ast.list (item :: items)).Assigns name := by
  obtain ⟨target, listed, same⟩ := h
  exact ⟨target, List.mem_append_right _ listed, same⟩

theorem assigns_of_mem {items : List Ast} {item : Ast} {name : Name} (listed : item ∈ items)
    (h : item.Assigns name) : (Ast.list items).Assigns name := by
  induction listed with
  | head => exact assigns_head h
  | tail _ _ ih => exact assigns_tail ih

end Ast

/-- A world that has grown and in which an environment has got new values for some names. -/
structure World.Altered (assigned : Name → Prop) (env : EnvRef) (w v : World) : Prop where
  size : w.size ≤ v.size
  next : w.nextIdentity ≤ v.nextIdentity
  others : ∀ other < w.size, other ≠ env → v.bindings other = w.bindings other
  names : (v.bindings env).map Prod.fst = (w.bindings env).map Prod.fst
  values : ∀ name, ¬ assigned name → (v.bindings env).value? name = (w.bindings env).value? name

namespace World.Altered

variable {assigned : Name → Prop} {env : EnvRef} {u v w : World}

theorem of_le (there : env < w.size) (h : w ≤ v) : w.Altered assigned env v := by
  have same := bindings_eq h there
  exact ⟨size_le h, next_le h, fun _ other _ => bindings_eq h other, by rw [same],
    fun _ _ => by rw [same]⟩

theorem trans (first : u.Altered assigned env v) (second : v.Altered assigned env w) :
    u.Altered assigned env w := by
  refine ⟨Nat.le_trans first.size second.size, Nat.le_trans first.next second.next,
    fun other there ne => ?_, second.names.trans first.names, fun name free => ?_⟩
  · rw [second.others other (Nat.lt_of_lt_of_le there first.size) ne, first.others other there ne]
  · rw [second.values name free, first.values name free]

theorem trans_later {later : EnvRef} (there : env < u.size) (first : u.Altered assigned env v)
    (new : u.size ≤ later) (second : v.Altered assigned later w) :
    u.Altered assigned env w := by
  have kept : ∀ other < u.size, w.bindings other = v.bindings other := fun other old =>
    second.others other (Nat.lt_of_lt_of_le old first.size)
      (Nat.ne_of_lt (Nat.lt_of_lt_of_le old new))
  refine ⟨Nat.le_trans first.size second.size, Nat.le_trans first.next second.next,
    fun other old ne => ?_, ?_, fun name free => ?_⟩
  · rw [kept other old, first.others other old ne]
  · rw [kept env there, first.names]
  · rw [kept env there, first.values name free]

theorem le_of_later (old : u ≤ v) (new : u.size ≤ env) (h : v.Altered assigned env w) : u ≤ w := by
  refine ⟨Nat.le_trans (size_le old) h.size, fun other there => ?_,
    Nat.le_trans (next_le old) h.next⟩
  have ne : other ≠ env := Nat.ne_of_lt (Nat.lt_of_lt_of_le there new)
  rw [h.others other (Nat.lt_of_lt_of_le there (size_le old)) ne, bindings_eq old there]

theorem mono {assigned' : Name → Prop} (h : u.Altered assigned env v)
    (more : ∀ name, assigned name → assigned' name) : u.Altered assigned' env v :=
  ⟨h.size, h.next, h.others, h.names, fun name free => h.values name fun a => free (more name a)⟩

theorem overwrite (there : env < w.size) {name : Name} {value : Value}
    (bound : (w.bindings env).binds name = true)
    (listed : ∀ other : Name, name.key = other.key → assigned other) :
    w.Altered assigned env { w with store := w.store.overwrite env name value } := by
  have self : (w.store.overwrite env name value).bindings env =
      (w.bindings env).insert name value := Store.bindings_overwrite_self _ _ _ _ there
  refine ⟨by simp [World.size], Nat.le_refl _,
    fun other _ ne => Store.bindings_overwrite_of_ne _ _ _ _ _ ne, ?_, fun other free => ?_⟩
  · rw [World.bindings, self, Bindings.names_insert _ _ _ bound]
  · rw [World.bindings, self, Bindings.value?_insert, if_neg fun same => free (listed other same)]

end World.Altered

namespace Machine

variable {α β : Type} {assigned : Name → Prop} {env : EnvRef}

def Alters (assigned : Name → Prop) (env : EnvRef) (m : Machine α) : Prop :=
  ∀ w : World, env < w.size → w.Altered assigned env (m.after w)

theorem Grows.alters {m : Machine α} (h : Grows m) : Alters assigned env m :=
  fun w there => .of_le there (h w)

theorem alters_assign {name : Json} {value : Value}
    (listed : ∀ key, Name.ofJson? name = .ok key → ∀ other : Name, key.key = other.key →
      assigned other) : Alters assigned env (assign env name value) := by
  intro w there
  rw [after, run_assign]
  cases read : Name.ofJson? name with
  | error e => exact .of_le there (le_refl w)
  | ok key =>
    cases bound : (w.bindings env).binds key with
    | true =>
      simp only [World.bindings] at bound
      simp only [bound, if_true]
      exact .overwrite there bound (listed key read)
    | false =>
      simp only [World.bindings] at bound
      simp only [bound]
      exact .of_le there (le_refl w)

end Machine

/-- What an execution from a state leaves. If it returns, it goes on in the environment of that
state, or, if it declared something, in one that came later. -/
inductive Framed (assigned : Name → Prop) (s : State) (w : World) (declared : Bool) :
    EStateM.Result Failure World State → Prop
  | ok {t : State} {v : World} (altered : w.Altered assigned s.env v) (there : t.env < v.size)
    (env : if declared then w.size ≤ t.env else t.env = s.env) :
    Framed assigned s w declared (.ok t v)
  | error {e : Failure} {v : World} (altered : w.Altered assigned s.env v) :
    Framed assigned s w declared (.error e v)

namespace Framed

variable {α : Type} {assigned : Name → Prop} {s : State} {w : World} {declared : Bool}

theorem mono {assigned' : Name → Prop} {x : EStateM.Result Failure World State}
    (h : Framed assigned s w declared x) (more : ∀ name, assigned name → assigned' name) :
    Framed assigned' s w declared x := by
  cases h with
  | ok altered there env => exact .ok (altered.mono more) there env
  | error altered => exact .error (altered.mono more)

theorem throw (there : s.env < w.size) (e : Failure) :
    Framed assigned s w declared ((throw e : Machine State).run w) :=
  .error (.of_le there (le_refl w))

theorem same (there : s.env < w.size) {t : State} (env : t.env = s.env) :
    Framed assigned s w false ((pure t : Machine State).run w) :=
  .ok (.of_le there (le_refl w)) (env ▸ there) env

theorem onward {t : State} {v : World} {x : EStateM.Result Failure World State}
    (altered : w.Altered assigned s.env v) (same : t.env = s.env)
    (h : Framed assigned t v declared x) : Framed assigned s w declared x := by
  cases h with
  | error rest => exact .error (altered.trans (same ▸ rest))
  | ok rest there env =>
    refine .ok (altered.trans (same ▸ rest)) there ?_
    cases declared with
    | true => exact Nat.le_trans altered.size env
    | false => exact Eq.trans env same

theorem later {t : State} {v : World} {x : EStateM.Result Failure World State}
    (there : s.env < w.size) (altered : w.Altered assigned s.env v) (new : w.size ≤ t.env)
    (h : Framed assigned t v declared x) : Framed assigned s w true x := by
  cases h with
  | error rest => exact .error (altered.trans_later there new rest)
  | ok rest there' env =>
    refine .ok (altered.trans_later there new rest) there' ?_
    cases declared with
    | true => exact Nat.le_trans altered.size env
    | false => exact le_of_le_of_eq new (Eq.symm env)

theorem after {m : Machine α} {f : α → Machine State} (there : s.env < w.size)
    (first : Machine.Alters assigned s.env m)
    (rest : ∀ a v, m.run w = .ok a v → s.env < v.size →
      Framed assigned s v declared ((f a).run v)) :
    Framed assigned s w declared ((m >>= f).run w) := by
  have start := first w there
  rw [EStateM.run_bind]
  unfold Machine.after at start
  cases ran : m.run w with
  | error e v =>
    rw [ran] at start
    exact .error start
  | ok a v =>
    rw [ran] at start
    exact onward start rfl (rest a v ran (Nat.lt_of_lt_of_le there start.size))

theorem trans {m : Machine State} {f : State → Machine State} {declared' : State → World → Bool}
    (there : s.env < w.size) (first : Framed assigned s w declared (m.run w))
    (rest : ∀ t v, m.run w = .ok t v → t.env < v.size →
      Framed assigned t v (declared' t v) ((f t).run v)) :
    Framed assigned s w (declared || match m.run w with
      | .ok t v => declared' t v
      | .error _ _ => false) ((m >>= f).run w) := by
  rw [EStateM.run_bind]
  generalize m.run w = x at first rest ⊢
  cases first with
  | error altered => exact .error altered
  | @ok t v altered there' env =>
    have ended := rest t v rfl there'
    cases declared with
    | true => exact later there altered env ended
    | false => exact onward altered env ended

end Framed

namespace Setup

open Machine

variable (setup : Setup) (budget : Budget) {assigned : Name → Prop}

theorem grows_condition (env : EnvRef) (expression : Ast) :
    Grows (setup.condition budget env expression) :=
  grows_bind (setup.grows_evaluate _ env expression) fun _ =>
    grows_bind (grows_record _ _ _) fun _ => grows_lift _

theorem framed_declare {s : State} {w : World} (there : s.env < w.size) (id : Ast)
    (value : Value) : Framed assigned s w true ((s.declare id value).run w) := by
  unfold State.declare
  cases id.name?.bind Name.ofJson? with
  | error e => exact Framed.throw there e
  | ok key =>
    refine .ok (.of_le there (w.le_new _)) ?_ (Nat.le_refl _)
    simp [World.size]

theorem framed_repeatWhile {expression : Ast} {env : EnvRef} {body : State → Machine State}
    {inside : State → World → List Visit}
    (each : ∀ s w, s.env < w.size →
      Framed assigned s w ((inside s w).any Visit.declares) ((body s).run w))
    (iterations : Nat) (s : State) (w : World) (there : s.env < w.size) :
    Framed assigned s w
      ((repeatVisits (.condition expression env) (setup.condition budget env expression) body
        inside iterations s w).any Visit.declares)
      ((repeatWhile (setup.condition budget env expression) body iterations s).run w) := by
  induction iterations generalizing s w with
  | zero => exact Framed.throw there _
  | succ iterations ih =>
    rw [repeatWhile]
    refine Framed.after there (setup.grows_condition budget env expression).alters
      fun again v checked there' => ?_
    simp only [repeatVisits, List.any_cons, checked]
    cases again with
    | false => exact Framed.same there' rfl
    | true =>
      have ended := Framed.trans there' (each s v there') fun t u _ => ih t u
      simp only [Visit.declares, Bool.false_or, List.any_append]
      generalize (body s).run v = x at ended ⊢
      cases x <;> exact ended

mutual

/-- Executing a tree changes one environment at most, and there only what the tree assigns to. -/
theorem framed_execute (tree : Ast) (s : State) (w : World) (there : s.env < w.size) :
    Framed tree.Assigns s w (setup.declares budget tree s w)
      ((setup.execute budget tree s).run w) := by
  have evaluated (expression : Ast) : Alters tree.Assigns s.env
      (setup.evaluate budget.calls s.env expression) := (setup.grows_evaluate _ _ _).alters
  have recorded (event : Unit → Except Failure Event) :
      Alters tree.Assigns s.env (record setup 2 event) := (grows_record _ _ _).alters
  cases tree with
  | variableDeclaration id expression =>
    rw [execute]
    exact Framed.after there (evaluated expression) fun _ _ _ there =>
      Framed.after there (recorded _) fun _ _ _ there => framed_declare there id _
  | functionDeclaration id parameters expression =>
    rw [execute]
    exact Framed.after there grows_freshIdentity.alters fun _ _ _ there =>
      Framed.after there (recorded _) fun _ _ _ there => framed_declare there id _
  | assignment id expression =>
    rw [execute]
    refine Framed.after there (evaluated expression) fun value _ _ there => ?_
    cases named : id.name? with
    | error e => exact Framed.throw there e
    | ok name =>
      rw [lift_ok_bind]
      have assigned : Alters (Ast.assignment id expression).Assigns s.env
          (assign s.env name value) :=
        alters_assign fun key read other same => Ast.assigns_assignment named read same
      exact Framed.after there assigned fun _ _ _ there =>
        Framed.after there (recorded _) fun _ _ _ there => Framed.same there rfl
  | printStatement expression =>
    rw [execute]
    exact Framed.after there (evaluated expression) fun value _ _ there =>
      Framed.after there (recorded _) fun _ _ _ there =>
        Framed.after there grows_freshIdentity.alters fun _ _ _ there => Framed.same there rfl
  | whileStatement expression body =>
    rw [execute]
    exact setup.framed_repeatWhile budget (framed_execute body) _ s w there
  | block statements =>
    rw [execute]
    exact framed_executeParts statements s w there
  | _ => exact Framed.throw there _

theorem framed_executeParts (tree : Ast) (s : State) (w : World) (there : s.env < w.size) :
    Framed tree.Assigns s w ((setup.partVisits budget tree s w).any Visit.declares)
      ((setup.executeParts budget tree s).run w) := by
  cases tree with
  | list items =>
    rw [executeParts]
    exact framed_executeAll items s w there
  | scalar c =>
    cases c with
    | string t =>
      rw [executeParts]
      split
      · exact Framed.same there rfl
      · exact Framed.throw there _
    | _ => exact Framed.throw there _
  | _ => exact Framed.throw there _

theorem framed_executeAll (items : List Ast) (s : State) (w : World) (there : s.env < w.size) :
    Framed (Ast.list items).Assigns s w ((setup.allVisits budget items s w).any Visit.declares)
      ((setup.executeAll budget items s).run w) := by
  cases items with
  | nil => exact Framed.same there rfl
  | cons item items =>
    rw [executeAll, allVisits, List.any_append]
    have first : Framed (Ast.list (item :: items)).Assigns s w (setup.declares budget item s w)
        ((setup.execute budget item s).run w) :=
      (framed_execute item s w there).mono fun _ => Ast.assigns_head
    have ended := Framed.trans there first fun t v _ there' =>
      (framed_executeAll items t v there').mono fun _ => Ast.assigns_tail
    generalize (setup.execute budget item s).run w = x at ended ⊢
    cases x <;> exact ended

end

end Setup

end DynamicScope
