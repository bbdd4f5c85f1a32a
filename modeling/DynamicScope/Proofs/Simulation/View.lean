import DynamicScope.Proofs.Renaming.Evaluate
import DynamicScope.Proofs.Simulation.ContentKept
import DynamicScope.Proofs.Simulation.Run

/-! Runs that see the same of their environments.
Two runs of one program may have environments that differ, and objects with other identities. If the
environments are alike in all that the program and the functions in its values ask for, they stay
so, and what the runs come to is the same up to the identities. -/

namespace DynamicScope

open Machine

/-- What two runs have in common: the content of their code and of the values that they see, the
identities of the second run for those of the first one, what names are bound to in both, and which
names are assigned to. -/
structure View where
  content : Content
  rename : Nat → Nat
  seen : Name → Option Value → Option Value → Prop
  assigned : Name → Prop

/-- What two executions have come to where it is the same but for the bindings in which they end, and
those are related, both the current ones and those of the entry. -/
inductive SameUpTo (related : Bindings → Bindings → Prop) :
    EStateM.Result Failure Supply Course → EStateM.Result Failure Supply Course → Prop
  | ok {c c' : Course} {x : Supply} (output : c.output = c'.output)
    (current : related c.current c'.current) (entry : related c.entry c'.entry) :
    SameUpTo related (.ok c x) (.ok c' x)
  | error (e : Failure) (x : Supply) : SameUpTo related (.error e x) (.error e x)

theorem SameUpTo.imp {R S : Bindings → Bindings → Prop}
    {x x' : EStateM.Result Failure Supply Course} (h : SameUpTo R x x')
    (weaker : ∀ b b', R b b' → S b b') : SameUpTo S x x' := by
  cases h with
  | ok output current entry => exact .ok output (weaker _ _ current) (weaker _ _ entry)
  | error e x => exact .error e x

theorem Output.array_inj {o o' : Output} (h : o.array = o'.array) : o = o' := by
  obtain ⟨i, values⟩ := o
  obtain ⟨i', values'⟩ := o'
  cases h
  rfl

namespace View

variable (V : View)

def Same (v v' : Value) : Prop := v.rename V.rename = v' ∧ V.content.Value v

/-- Bindings in which what a name is bound to is as seen, for every name. -/
def Bound (b b' : Bindings) : Prop := ∀ name, V.seen name (b.value? name) (b'.value? name)

def likeness : Likeness Unit where
  failure := Eq
  operator o o' := o = o' ∧ V.content.operator o
  name n n' := n = n' ∧ V.content.name n
  key k k' := k = k' ∧ V.content.name (.scalar k)
  tree t t' := t = t' ∧ V.content.Tree t
  value _ := V.Same
  bindings _ := V.Bound
  stores _ s s' := s.environments.size = s'.environments.size ∧
    ∀ env < s.environments.size, V.Bound (s.bindings env) (s'.bindings env)
  next _ := Renames V.rename
  trace := Eq

def conduct : Conduct Unit where
  toLikeness := V.likeness
  statement t t' := t = t' ∧ V.content.Tree t ∧ ∀ name, t.Assigns name → V.assigned name
  target n n' := n = n' ∧ V.content.name n ∧ ∀ key, Name.ofJson? n = .ok key → V.assigned key
  output _ o o' := o.array.rename V.rename = o'.array

structure Laws (V : View) (setup setup' : Setup) : Prop where
  content : V.content.Laws setup
  inj (i j : Nat) : V.rename i = V.rename j → i = j
  level : setup.level = setup'.level
  answer {i n n' : Nat} {f : Builtin} {vs : List Value} : V.content.Value (.builtin i f) →
    Renames V.rename n n' → setup'.answer f n' (vs.map (Value.rename V.rename)) =
      (setup.answer f n vs).map fun a => (a.1.rename V.rename, a.2)
  bound {name : Name} {v : Value} :
    V.content.Value v → V.seen name (some v) (some (v.rename V.rename))
  present {name : Name} {o o' : Option Value} : V.content.name (.scalar name) →
    V.seen name o o' → Option.Rel V.Same (o.filter Value.isPresent) (o'.filter Value.isPresent)
  binds {name : Name} {o o' : Option Value} : V.content.name (.scalar name) → V.assigned name →
    V.seen name o o' → o.isSome = o'.isSome

variable {V} {setup setup' : Setup}

theorem stores_iff {κ : Unit} {s s' : Store} :
    V.likeness.stores κ s s' ↔ V.likeness.Lockstep κ s s' :=
  ⟨fun h => ⟨h.1, h.2⟩, fun h => ⟨h.size, h.bindings⟩⟩

theorem sames_iff {vs vs' : List Value} : List.Forall₂ V.Same vs vs' ↔
    vs.map (Value.rename V.rename) = vs' ∧ ∀ v ∈ vs, V.content.Value v := by
  constructor
  · intro h
    induction h with
    | nil => exact ⟨rfl, by simp⟩
    | cons head tail ih =>
      obtain ⟨rfl, held⟩ := head
      obtain ⟨rfl, others⟩ := ih
      exact ⟨rfl, List.forall_mem_cons.mpr ⟨held, others⟩⟩
  · rintro ⟨rfl, held⟩
    exact List.forall₂_map_right_iff.mpr (List.forall₂_same.mpr fun v listed => ⟨rfl, held v listed⟩)

theorem same_of_isPlain {x : Except Failure Value} (plain : ∀ v, x = .ok v → v.isPlain = true)
    (held : ∀ v, x = .ok v → V.content.value v) : Alike V.Same Eq x x := by
  refine .same (fun v ran => ?_) fun _ => rfl
  have plain := plain v ran
  exact ⟨Value.rename_of_isPlain plain, Content.value_of_isPlain plain (held v ran)⟩

section Laws

variable (laws : V.Laws setup setup')

include laws

theorem Bound.insert {b b' : Bindings} {key : Name} {v v' : Value} (h : V.Bound b b')
    (same : V.Same v v') : V.Bound (b.insert key v) (b'.insert key v') := by
  obtain ⟨rfl, held⟩ := same
  intro name
  rw [Bindings.value?_insert, Bindings.value?_insert]
  split
  · exact laws.bound held
  · exact h name

theorem Bound.insertAll {b b' : Bindings} (keys : List Name) {vs vs' : List Value}
    (h : V.Bound b b') (given : List.Forall₂ V.Same vs vs') :
    V.Bound (b.insertAll (keys.zip vs)) (b'.insertAll (keys.zip vs')) := by
  induction given generalizing b b' keys with
  | nil => simpa [Bindings.insertAll] using h
  | cons same _ ih =>
    cases keys with
    | nil => exact h
    | cons key keys => exact ih keys (h.insert laws same)

theorem suits : V.content.Suits V.likeness :=
  ⟨fun _ => rfl, fun h => ⟨rfl, h⟩, fun h => ⟨rfl, h⟩, fun h => ⟨rfl, h⟩,
    fun _ x => ⟨rfl, Content.value_of_isPlain rfl (laws.content.double x)⟩⟩

theorem simulates : V.likeness.Simulates setup setup' where
  value_mono _ h := h
  bindings_mono _ h := h
  stores_mono _ h := h
  stores_new h same := stores_iff.mpr ((stores_iff.mp h).new same)
  expression := by
    rintro tree _ ⟨rfl, h⟩
    exact Content.expression_same (suits laws) h
  key := by
    rintro name _ ⟨rfl, h⟩
    cases name with
    | scalar s => exact .ok ⟨rfl, h⟩
    | _ => exact .error rfl
  present := by
    rintro _ b b' key _ h ⟨rfl, named⟩
    exact laws.present named (h key)
  overlay := by
    intro _ b b' keys keys' vs vs' h same given
    obtain ⟨rfl, -⟩ := forall₂_same.mp same
    exact h.insertAll laws keys given
  undeclared := by
    rintro name _ ⟨rfl, -⟩
    rfl
  arity := by
    rintro name _ expected given ⟨rfl, -⟩
    rfl
  exhausted := rfl
  boolean _ b := ⟨rfl, Content.value_of_isPlain rfl (laws.content.boolean b)⟩
  isTrue h := by
    rw [((Value.resembles_rename laws.inj).form h.1).isTrue_eq]
    exact .refl (fun _ => rfl) (fun _ => rfl) _
  unary := by
    rintro _ operator _ v v' ⟨rfl, -⟩ ⟨renamed, h⟩
    rw [← ((Value.resembles_rename laws.inj).form renamed).unary_eq]
    exact same_of_isPlain (fun _ => Value.unary_isPlain) fun _ => laws.content.unary h
  binary := by
    rintro _ operator _ a a' b b' ⟨rfl, -⟩ ⟨first, left⟩ ⟨second, right⟩
    rw [← (Value.resembles_rename laws.inj).binary_eq first second]
    exact same_of_isPlain (fun _ => Value.binary_isPlain) fun _ => laws.content.binary left right
  subscript := by
    rintro κ a a' b b' ⟨first, left⟩ ⟨second, right⟩
    have failures (e : Failure) : e = e := rfl
    have alike := (Value.resembles_rename laws.inj).subscript_alike failures rfl first second
    have kept := (Content.kept laws.content).subscript (κ := κ) left right
    generalize Value.subscript a b = x at alike kept ⊢
    generalize Value.subscript a' b' = x' at alike ⊢
    cases alike with
    | error same => exact .error same
    | ok same =>
      cases kept with
      | ok held => exact .ok ⟨same, held⟩
  array := by
    intro κ n n' vs vs' next given
    obtain ⟨rfl, held⟩ := sames_iff.mp given
    obtain ⟨_, _, _, made⟩ := (Content.kept laws.content).array (κ := κ) (n := n) trivial held
    refine ⟨κ, le_refl κ, next.add 1, ?_, made⟩
    rw [Value.rename_array]
    exact congrArg (Value.array · _) (next.fresh 0)
  called := by
    rintro _ v _ ⟨rfl, h⟩
    cases v with
    | builtin i f => exact .builtin _ _ _ _
    | function i parameters body =>
      obtain ⟨-, inParameters, inBody⟩ := (Content.value_iff.mp h).1.2
      exact Content.function_same (suits laws) _ _ inParameters inBody
    | _ => exact .other nofun nofun fun _ _ same => by rw [same.1]; rfl
  answer := by
    rintro κ i i' n n' f f' vs vs' ⟨same, h⟩ next given
    obtain ⟨rfl, held⟩ := sames_iff.mp given
    injection same with _ same
    subst same
    have kept := (Content.kept laws.content).answer (κ := κ) (n := n) h trivial held
    rw [laws.answer h next]
    cases ran : setup.answer f n vs with
    | error e => exact .error rfl
    | ok a =>
      rw [ran] at kept
      cases kept with
      | ok made =>
        obtain ⟨κ', up, -, made⟩ := made
        exact .ok ⟨κ', up, next.add a.2, rfl, made⟩
  recorded {κ level event event'} h := by
    obtain rfl := h.same (fun _ _ h => h.1) (fun _ _ h => h.1)
      (fun v _ h => by rw [← h.1, Value.toText_rename]) fun _ _ _ _ _ _ h => by
        injection h.1 with _ same
        rw [same]
    have same : recorded setup' level event = recorded setup level event := by
      unfold recorded
      rw [laws.level]
    rw [same]
    exact .refl (.same fun _ _ => Iff.rfl) (fun _ => rfl) _

theorem executes : V.conduct.Executes setup setup' where
  toSimulates := simulates laws
  stores := stores_iff
  statement := by
    rintro tree _ ⟨rfl, h, assigns⟩
    have children := (Content.tree_iff.mp h).2
    refine Content.statement_same (d := V.conduct) (suits laws) ?_ laws.content.function h ?_ ?_ ?_
    · intro κ n n' parameters body held next
      refine ⟨κ, le_refl κ, next.add 1, ?_, held⟩
      exact congrArg (Value.function · parameters body) (next.fresh 0)
    · rintro id part name rfl named
      refine ⟨rfl, ?_, fun key read => assigns key (Ast.assigns_assignment named read rfl)⟩
      obtain rfl := Ast.eq_identifier_of_name? named
      exact (Content.tree_iff.mp (children _ (.head _))).1
    · rintro test body rfl
      exact ⟨rfl, children _ (.tail _ (.head _)), assigns⟩
    · rintro items rfl item listed
      have inItem := (Content.tree_iff.mp (children _ (.head _))).2 item listed
      exact ⟨rfl, inItem, fun name assigned => assigns name (Ast.assigns_of_mem listed assigned)⟩
  named h := ⟨h.1, h.2.1⟩
  binds := by
    rintro _ b b' name _ key key' h ⟨rfl, named, assigned⟩ read read'
    rw [read] at read'
    cases read'
    cases name with
    | scalar s =>
      cases read
      exact laws.binds named (assigned key rfl) (h key)
    | _ => cases read
  unassigned := by
    rintro name _ ⟨rfl, -⟩
    rfl
  output_mono _ h := h
  printed := by
    intro κ n n' o o' v v' next output same
    refine ⟨κ, le_refl κ, next.add 1, ?_⟩
    obtain ⟨i, values⟩ := o
    obtain ⟨i', values'⟩ := o'
    change (Value.array i values).rename V.rename = .array i' values' at output
    rw [Value.rename_array] at output
    injection output with _ output
    change (Value.array n (values ++ [v])).rename V.rename = .array n' (values' ++ [v'])
    have identity : V.rename n = n' := next.fresh 0
    rw [Value.rename_array, List.map_append, output, List.map_singleton, same.1, identity]

theorem run_renamed {w w' : World} (entered : V.conduct.Entered () setup setup' w w')
    (budget : Budget) {program : Ast}
    (h : ∀ body, program.block? = .ok body →
      V.content.Tree body ∧ ∀ name, body.Assigns name → V.assigned name) :
    setup'.runIn budget program w' =
      ⟨(setup.runIn budget program w).result.map (List.map (Value.rename V.rename)),
        (setup.runIn budget program w).trace⟩ := by
  have values {i i' : Nat} {vs vs' : List Value} (same : V.conduct.output () ⟨i, vs⟩ ⟨i', vs'⟩) :
      vs.map (Value.rename V.rename) = vs' := by
    change (Value.array i vs).rename V.rename = .array i' vs' at same
    rw [Value.rename_array] at same
    injection same
  have finished (κ : Unit) (o o' : Output) (trace trace' : Array Event)
      (same : V.conduct.output κ o o') (traces : V.conduct.trace trace trace') :
      V.conduct.trace (setup.traceWith 1 (.finished o.values.length) trace)
        (setup'.traceWith 1 (.finished o'.values.length) trace') := by
    change _ = _
    obtain rfl : trace = trace' := traces
    rw [← values same, List.length_map, Setup.traceWith, Setup.traceWith, laws.level]
  have outcomes := Conduct.run_outcomes (executes laws) budget entered
    (.same (fun body block => ⟨rfl, h body block⟩) fun _ => rfl) finished
  generalize setup.runIn budget program w = o at outcomes ⊢
  generalize setup'.runIn budget program w' = o' at outcomes ⊢
  obtain ⟨result, trace⟩ := o
  obtain ⟨result', trace'⟩ := o'
  obtain ⟨alike, traces⟩ := outcomes
  have traces : trace = trace' := congrArg Array.toList (traces : trace.toArray = trace'.toArray)
  subst traces
  cases alike with
  | ok same =>
    obtain ⟨_, _, _, same⟩ := same
    rw [← values same]
    rfl
  | error same =>
    cases (same : _ = _)
    rfl

end Laws

section Identity

variable {env env' : EnvRef} {w w' : World} (laws : V.Laws setup setup') (fixed : V.rename = id)
  (there : env < w.size) (there' : env' < w'.size) (supply : w.supply = w'.supply)
  (bound : V.Bound (w.bindings env) (w'.bindings env'))

include fixed in
theorem supply_eq {x x' : Supply} (next : V.conduct.next () x.nextIdentity x'.nextIdentity)
    (trace : V.conduct.trace x.trace x'.trace) : x = x' := by
  have same : V.rename x.nextIdentity = x'.nextIdentity := next.fresh 0
  rw [fixed] at same
  obtain ⟨n, events⟩ := x
  obtain ⟨n', events'⟩ := x'
  cases same
  cases (trace : events = events')
  rfl

include fixed there there' supply bound in
theorem alongside : V.conduct.Alongside () env w env' w' := by
  have next : w.nextIdentity = w'.nextIdentity := congrArg Supply.nextIdentity supply
  refine ⟨there, there', bound, ⟨fun i j same => ?_, fun k => ?_⟩, congrArg Supply.trace supply⟩
  · rwa [fixed] at same
  · rw [fixed, next]
    rfl

include laws fixed there there' supply bound

theorem evaluate_same (calls : Nat) {tree : Ast} (h : V.content.Tree tree) :
    supplied ((setup.evaluate calls env tree).run w) =
      supplied ((setup'.evaluate calls env' tree).run w') := by
  have matched := Conduct.matches_evaluate (executes laws) calls ⟨rfl, h⟩
    (alongside fixed there there' supply bound)
  generalize supplied ((setup.evaluate calls env tree).run w) = x at matched ⊢
  generalize supplied ((setup'.evaluate calls env' tree).run w') = x' at matched ⊢
  cases matched with
  | ok _ same next trace =>
    obtain rfl := supply_eq fixed next trace
    obtain ⟨rfl, -⟩ := same
    rw [fixed, Value.rename_id]
  | error _ same next trace =>
    obtain rfl := supply_eq fixed next trace
    exact congrArg (EStateM.Result.error · _) same

theorem execute_same (budget : Budget) {tree : Ast} (h : V.content.Tree tree)
    (assigns : ∀ name, tree.Assigns name → V.assigned name) (output : Output) :
    SameUpTo V.Bound (tracked ⟨env, output⟩ ((setup.execute budget tree ⟨env, output⟩).run w))
      (tracked ⟨env', output⟩ ((setup'.execute budget tree ⟨env', output⟩).run w')) := by
  have printed : V.conduct.output () output output := by
    change output.array.rename V.rename = _
    rw [fixed, Value.rename_id]
  have matched : V.conduct.Matches () V.conduct.Courses
      (tracked ⟨env, output⟩ ((setup.execute budget tree ⟨env, output⟩).run w))
      (tracked ⟨env', output⟩ ((setup'.execute budget tree ⟨env', output⟩).run w')) :=
    Conduct.matches_execute (executes laws) budget ⟨rfl, h, assigns⟩
      (alongside fixed there there' supply bound) printed
  generalize tracked _ ((setup.execute budget tree ⟨env, output⟩).run w) = x at matched ⊢
  generalize tracked _ ((setup'.execute budget tree ⟨env', output⟩).run w') = x' at matched ⊢
  cases matched with
  | ok _ courses next trace =>
    obtain rfl := supply_eq fixed next trace
    have same : _ = _ := courses.output
    rw [fixed, Value.rename_id] at same
    exact .ok (Output.array_inj same) courses.current courses.entry
  | error _ same next trace =>
    obtain rfl := supply_eq fixed next trace
    cases (same : _ = _)
    exact .error _ _

end Identity

end View

end DynamicScope
