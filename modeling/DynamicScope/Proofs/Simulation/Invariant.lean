import DynamicScope.Proofs.Simulation.Content

/-! Properties that runs keep.
A property of values, with one of failures, trees and names, is the likeness of a run beside itself
in which alike parts are equal and have the property. What the laws of a likeness ask for then comes
down to one run. -/

namespace DynamicScope

inductive Yields {α : Type} (value : α → Prop) (failure : Failure → Prop) :
    Except Failure α → Prop
  | ok {a : α} (h : value a) : Yields value failure (.ok a)
  | error {e : Failure} (h : failure e) : Yields value failure (.error e)

namespace Yields

variable {α β : Type} {P Q : α → Prop} {R : β → Prop} {F : Failure → Prop}

theorem imp {x : Except Failure α} (h : Yields P F x) (weaker : ∀ a, P a → Q a) : Yields Q F x := by
  cases h with
  | ok kept => exact .ok (weaker _ kept)
  | error kept => exact .error kept

theorem fails {F' : Failure → Prop} {x : Except Failure α} (h : Yields P F x)
    (weaker : ∀ e, F e → F' e) : Yields P F' x := by
  cases h with
  | ok kept => exact .ok kept
  | error kept => exact .error (weaker _ kept)

theorem bind {x : Except Failure α} {f : α → Except Failure β} (h : Yields P F x)
    (rest : ∀ a, P a → Yields R F (f a)) : Yields R F (x >>= f) := by
  cases h with
  | ok kept => exact rest _ kept
  | error kept => exact .error kept

theorem alike {R : α → α → Prop} {x : Except Failure α} (h : Yields P F x)
    (same : ∀ a, P a → R a a) : Alike R (fun e e' => e = e' ∧ F e) x x := by
  cases h with
  | ok kept => exact .ok (same _ kept)
  | error kept => exact .error ⟨rfl, kept⟩

end Yields

theorem forall₂_same {α : Type} {P : α → Prop} {xs ys : List α} :
    List.Forall₂ (fun x y => x = y ∧ P x) xs ys ↔ xs = ys ∧ ∀ x ∈ xs, P x := by
  constructor
  · intro h
    induction h with
    | nil => exact ⟨rfl, by simp⟩
    | cons head tail ih =>
      obtain ⟨rfl, kept⟩ := head
      obtain ⟨rfl, others⟩ := ih
      exact ⟨rfl, List.forall_mem_cons.mpr ⟨kept, others⟩⟩
  · rintro ⟨rfl, kept⟩
    exact List.forall₂_same.mpr fun x listed => ⟨rfl, kept x listed⟩

namespace Bindings

theorem mem_insert {b : Bindings} {name : Name} {value : Value} {entry : Name × Value}
    (h : entry ∈ b.insert name value) : entry ∈ b ∨ entry.2 = value := by
  induction b with
  | nil => exact .inr (congrArg Prod.snd (List.mem_singleton.mp h))
  | cons first rest ih =>
    obtain ⟨n, v⟩ := first
    by_cases same : n.key = name.key
    · rw [insert, if_pos same] at h
      rcases List.mem_cons.mp h with rfl | old
      · exact .inr rfl
      · exact .inl (List.mem_cons_of_mem _ old)
    · rw [insert, if_neg same] at h
      rcases List.mem_cons.mp h with rfl | later
      · exact .inl List.mem_cons_self
      · exact (ih later).imp (List.mem_cons_of_mem _) id

theorem mem_insertAll {b : Bindings} {others : List (Name × Value)} {entry : Name × Value}
    (h : entry ∈ b.insertAll others) : entry ∈ b ∨ ∃ other ∈ others, entry.2 = other.2 := by
  induction others generalizing b with
  | nil => exact .inl h
  | cons first rest ih =>
    rcases ih (b := b.insert first.1 first.2) h with early | ⟨other, listed, same⟩
    · refine (mem_insert early).imp id fun same => ⟨first, List.mem_cons_self, same⟩
    · exact .inr ⟨other, List.mem_cons_of_mem _ listed, same⟩

theorem mem_of_value? {b : Bindings} {name : Name} {value : Value} (h : b.value? name = some value) :
    ∃ entry ∈ b, entry.2 = value := by
  induction b with
  | nil => simp at h
  | cons first rest ih =>
    obtain ⟨n, v⟩ := first
    rw [value?_cons] at h
    split at h
    · exact ⟨(n, v), List.mem_cons_self, Option.some.inj h⟩
    · obtain ⟨entry, listed, same⟩ := ih h
      exact ⟨entry, List.mem_cons_of_mem _ listed, same⟩

end Bindings

/-- A property of values at a stage, and of what goes with them. -/
structure Invariant (Stage : Type) where
  failure : Failure → Prop
  operator : Json → Prop
  name : Json → Prop
  tree : Ast → Prop
  value : Stage → Value → Prop
  next : Stage → Nat → Prop

namespace Invariant

variable {Stage : Type} (p : Invariant Stage)

def Bound (κ : Stage) (b : Bindings) : Prop := ∀ entry ∈ b, p.value κ entry.2

structure World (κ : Stage) (w : DynamicScope.World) : Prop where
  bound : ∀ env < w.size, p.Bound κ (w.bindings env)
  next : p.next κ w.nextIdentity

def likeness : Likeness Stage where
  failure e e' := e = e' ∧ p.failure e
  operator o o' := o = o' ∧ p.operator o
  name n n' := n = n' ∧ p.name n
  key := Eq
  tree t t' := t = t' ∧ p.tree t
  value κ v v' := v = v' ∧ p.value κ v
  bindings κ b b' := b = b' ∧ p.Bound κ b
  stores κ s s' := s.environments.size = s'.environments.size ∧
    ∀ env < s.environments.size, s.bindings env = s'.bindings env ∧ p.Bound κ (s.bindings env)
  next κ n n' := n = n' ∧ p.next κ n
  trace _ _ := True

def conduct (statement : Ast → Prop) : Conduct Stage where
  toLikeness := p.likeness
  statement t t' := t = t' ∧ statement t
  target n n' := n = n' ∧ p.name n
  output κ o o' := o = o' ∧ p.value κ o.array

variable [Preorder Stage]

/-- What makes a run keep a property. -/
structure Kept (setup : Setup) : Prop where
  value_mono {κ κ' : Stage} {v : Value} (h : κ ≤ κ') : p.value κ v → p.value κ' v
  expression {tree : Ast} : p.tree tree → p.likeness.Expression tree tree
  key {name : Json} : p.name name → Yields (fun _ => True) p.failure (Name.ofJson? name)
  undeclared {name : Json} : p.name name → p.failure (Fault.undeclared name).raised
  arity {name : Json} (expected given : Nat) :
    p.name name → p.failure (Fault.arity name expected given).raised
  exhausted : p.failure .exhausted
  boolean (κ : Stage) (b : Bool) : p.value κ (.boolean b)
  isTrue {κ : Stage} {v : Value} : p.value κ v → Yields (fun _ => True) p.failure v.isTrue
  unary {κ : Stage} {operator : Json} {v : Value} : p.operator operator → p.value κ v →
    Yields (p.value κ) p.failure (Value.unary operator v)
  binary {κ : Stage} {operator : Json} {a b : Value} : p.operator operator → p.value κ a →
    p.value κ b → Yields (p.value κ) p.failure (Value.binary operator a b)
  subscript {κ : Stage} {a b : Value} : p.value κ a → p.value κ b →
    Yields (p.value κ) p.failure (Value.subscript a b)
  array {κ : Stage} {n : Nat} {vs : List Value} : p.next κ n → (∀ v ∈ vs, p.value κ v) →
    ∃ κ', κ ≤ κ' ∧ p.next κ' (n + 1) ∧ p.value κ' (.array n vs)
  called {κ : Stage} {v : Value} : p.value κ v → p.likeness.Called κ v v
  answer {κ : Stage} {i n : Nat} {f : Builtin} {vs : List Value} : p.value κ (.builtin i f) →
    p.next κ n → (∀ v ∈ vs, p.value κ v) →
      Yields (fun a => ∃ κ', κ ≤ κ' ∧ p.next κ' (n + a.2) ∧ p.value κ' a.1) p.failure
        (setup.answer f n vs)
  recorded {κ : Stage} {level : Nat} {event : Unit → Except Failure Event} :
    p.likeness.Recorded κ level event event →
      Yields (fun _ => True) p.failure (Machine.recorded setup level event)

variable {p} {setup : Setup} {κ : Stage}

omit [Preorder Stage] in
theorem stores_iff {s s' : Store} :
    p.likeness.stores κ s s' ↔ p.likeness.Lockstep κ s s' :=
  ⟨fun h => ⟨h.1, h.2⟩, fun h => ⟨h.size, h.bindings⟩⟩

theorem Bound.mono (laws : p.Kept setup) {κ' : Stage} {b : Bindings} (up : κ ≤ κ')
    (h : p.Bound κ b) : p.Bound κ' b := fun entry listed => laws.value_mono up (h entry listed)

omit [Preorder Stage] in
theorem Bound.insertAll {b : Bindings} {others : List (Name × Value)} (h : p.Bound κ b)
    (given : ∀ other ∈ others, p.value κ other.2) : p.Bound κ (b.insertAll others) := by
  intro entry listed
  rcases Bindings.mem_insertAll listed with old | ⟨other, there, same⟩
  · exact h entry old
  · exact same ▸ given other there

omit [Preorder Stage] in
theorem Bound.present? {b : Bindings} {name : Name} {v : Value} (h : p.Bound κ b)
    (found : b.present? name = some v) : p.value κ v := by
  obtain ⟨entry, listed, same⟩ := Bindings.mem_of_value? (Option.eq_some_of_filter_eq_some found)
  exact same ▸ h entry listed

namespace Kept

theorem simulates (laws : p.Kept setup) : p.likeness.Simulates setup setup where
  value_mono up h := ⟨h.1, laws.value_mono up h.2⟩
  bindings_mono up h := ⟨h.1, h.2.mono laws up⟩
  stores_mono up h := ⟨h.1, fun env there => ⟨(h.2 env there).1, (h.2 env there).2.mono laws up⟩⟩
  stores_new h same := stores_iff.mpr ((stores_iff.mp h).new same)
  expression := by
    rintro tree _ ⟨rfl, h⟩
    exact laws.expression h
  key := by
    rintro name _ ⟨rfl, h⟩
    exact (laws.key h).alike fun _ _ => rfl
  present := by
    rintro κ b _ key _ ⟨rfl, h⟩ rfl
    cases found : b.present? key with
    | none => exact .none
    | some v => exact .some ⟨rfl, h.present? found⟩
  overlay := by
    rintro κ b _ keys keys' vs vs' ⟨rfl, h⟩ same given
    obtain rfl := List.forall₂_eq_eq_eq ▸ same
    obtain ⟨rfl, kept⟩ := forall₂_same.mp given
    exact ⟨rfl, h.insertAll fun other listed => kept _ (List.of_mem_zip listed).2⟩
  undeclared := by
    rintro name _ ⟨rfl, h⟩
    exact ⟨rfl, laws.undeclared h⟩
  arity := by
    rintro name _ expected given ⟨rfl, h⟩
    exact ⟨rfl, laws.arity expected given h⟩
  exhausted := ⟨rfl, laws.exhausted⟩
  boolean κ b := ⟨rfl, laws.boolean κ b⟩
  isTrue := by
    rintro κ v _ ⟨rfl, h⟩
    exact (laws.isTrue h).alike fun _ _ => rfl
  unary := by
    rintro κ operator _ v _ ⟨rfl, op⟩ ⟨rfl, h⟩
    exact (laws.unary op h).alike fun _ kept => ⟨rfl, kept⟩
  binary := by
    rintro κ operator _ a _ b _ ⟨rfl, op⟩ ⟨rfl, left⟩ ⟨rfl, right⟩
    exact (laws.binary op left right).alike fun _ kept => ⟨rfl, kept⟩
  subscript := by
    rintro κ a _ b _ ⟨rfl, left⟩ ⟨rfl, right⟩
    exact (laws.subscript left right).alike fun _ kept => ⟨rfl, kept⟩
  array := by
    rintro κ n _ vs vs' ⟨rfl, free⟩ given
    obtain ⟨rfl, kept⟩ := forall₂_same.mp given
    obtain ⟨κ', up, next, made⟩ := laws.array free kept
    exact ⟨κ', up, ⟨rfl, next⟩, rfl, made⟩
  called := by
    rintro κ v _ ⟨rfl, h⟩
    exact laws.called h
  answer := by
    rintro κ i i' n _ f f' vs vs' ⟨same, h⟩ ⟨rfl, free⟩ given
    cases same
    obtain ⟨rfl, kept⟩ := forall₂_same.mp given
    refine (laws.answer h free kept).alike fun a made => ?_
    obtain ⟨κ', up, next, held⟩ := made
    exact ⟨κ', up, ⟨rfl, next⟩, rfl, held⟩
  recorded same := by
    obtain rfl := same.same (fun _ _ h => h.1) (fun _ _ h => h.1) (fun _ _ h => by rw [h.1])
      fun _ _ _ _ _ _ h => by
        injection h.1 with _ same
        rw [same]
    exact (laws.recorded same).alike fun _ _ _ _ _ => trivial

end Kept

/-- What makes executions of certain trees keep a property. -/
structure KeptThroughout (p : Invariant Stage) (statement : Ast → Prop) (setup : Setup) : Prop
    extends p.Kept setup where
  statement {tree : Ast} : statement tree → (p.conduct statement).Statement tree tree
  unassigned {name : Json} : p.name name → p.failure (Fault.assignmentToUndeclared name).raised
  items {κ : Stage} {i : Nat} {vs : List Value} :
    p.value κ (.array i vs) → ∀ v ∈ vs, p.value κ v

theorem KeptThroughout.executes {statement : Ast → Prop} (laws : p.KeptThroughout statement setup) :
    (p.conduct statement).Executes setup setup where
  toSimulates := laws.simulates
  stores := stores_iff
  statement := by
    rintro tree _ ⟨rfl, h⟩
    exact laws.statement h
  named h := h
  binds := by
    rintro κ b _ name _ key key' ⟨rfl, -⟩ ⟨rfl, -⟩ read read'
    rw [read] at read'
    cases read'
    rfl
  unassigned := by
    rintro name _ ⟨rfl, h⟩
    exact ⟨rfl, laws.unassigned h⟩
  output_mono up h := ⟨h.1, laws.value_mono up h.2⟩
  printed := by
    rintro κ n _ o _ v _ ⟨rfl, free⟩ ⟨rfl, output⟩ ⟨rfl, held⟩
    have kept := List.forall_mem_append.mpr
      ⟨laws.items output, List.forall_mem_singleton.mpr held⟩
    obtain ⟨κ', up, next, made⟩ := laws.array free kept
    exact ⟨κ', up, ⟨rfl, next⟩, rfl, made⟩

structure Open (p : Invariant Stage) : Prop where
  failure (e : Failure) : p.failure e
  operator (o : Json) : p.operator o
  name (n : Json) : p.name n
  tree (t : Ast) : p.tree t
  double (κ : Stage) (x : Double) : p.value κ (.double x)

namespace Open

omit [Preorder Stage]

theorem yields_of_ok (h : p.Open) {α : Type} {P : α → Prop} {x : Except Failure α}
    (held : ∀ a, x = .ok a → P a) : Yields P p.failure x := by
  cases x with
  | ok a => exact .ok (held a rfl)
  | error e => exact .error (h.failure e)

theorem yields (h : p.Open) {α : Type} (x : Except Failure α) :
    Yields (fun _ => True) p.failure x :=
  h.yields_of_ok fun _ _ => trivial

theorem reflexive (h : p.Open) : p.likeness.Reflexive :=
  ⟨fun e => ⟨rfl, h.failure e⟩, fun o => ⟨rfl, h.operator o⟩, fun n => ⟨rfl, h.name n⟩,
    fun t => ⟨rfl, h.tree t⟩, fun κ x => ⟨rfl, h.double κ x⟩⟩

theorem called (h : p.Open) (κ : Stage) (v : Value) : p.likeness.Called κ v v := by
  cases v with
  | builtin i f => exact .builtin i i f f
  | function i parameters body => exact h.reflexive.function i i parameters body
  | _ => exact .other nofun nofun fun _ _ named => ⟨by rw [named.1], h.failure _⟩

theorem statement [LE Stage] (h : p.Open)
    (made : ∀ κ n parameters body, p.next κ n →
      ∃ κ', κ ≤ κ' ∧ p.next κ' (n + 1) ∧ p.value κ' (.function n parameters body)) (tree : Ast) :
    (p.conduct fun _ => True).Statement tree tree := by
  refine Content.statement_same (d := p.conduct fun _ => True) h.reflexive.suits ?_
    (fun _ _ _ => trivial) (Content.any_tree tree) (fun _ _ name _ _ => ⟨rfl, h.name name⟩)
    (fun _ _ _ => ⟨rfl, trivial⟩) fun _ _ _ _ => ⟨rfl, trivial⟩
  rintro κ n _ parameters body - ⟨rfl, free⟩
  obtain ⟨κ', up, next, held⟩ := made κ n parameters body free
  exact ⟨κ', up, ⟨rfl, next⟩, rfl, held⟩

end Open

/-- What a step leaves, where what it returns has a property at a stage that the world has come to. -/
inductive Keeps (p : Invariant Stage) (κ : Stage) {α : Type} (R : Stage → α → Prop) :
    EStateM.Result Failure DynamicScope.World α → Prop
  | ok {κ' : Stage} {a : α} {v : DynamicScope.World} (up : κ ≤ κ') (h : R κ' a)
    (world : p.World κ' v) : Keeps p κ R (.ok a v)
  | error {κ' : Stage} {e : Failure} {v : DynamicScope.World} (up : κ ≤ κ') (h : p.failure e)
    (world : p.World κ' v) : Keeps p κ R (.error e v)

theorem Keeps.after {α : Type} {R : Stage → α → Prop} {m : Machine α} {w : DynamicScope.World}
    (h : p.Keeps κ R (m.run w)) :
    ∃ κ', κ ≤ κ' ∧ p.World κ' (m.after w) ∧ ∀ a v, m.run w = .ok a v → R κ' a := by
  unfold Machine.after
  generalize m.run w = x at h ⊢
  cases h with
  | ok up kept world => exact ⟨_, up, world, fun _ _ same => by cases same; exact kept⟩
  | error up _ world => exact ⟨_, up, world, nofun⟩

omit [Preorder Stage] in
theorem World.stores {w : DynamicScope.World} (h : p.World κ w) :
    p.likeness.stores κ w.store w.store :=
  ⟨rfl, fun env there => ⟨rfl, h.bound env there⟩⟩

omit [Preorder Stage] in
theorem World.linked {w : DynamicScope.World} {env : EnvRef} (h : p.World κ w)
    (there : env < w.size) : p.likeness.Linked κ env w env w :=
  ⟨there, there, ⟨rfl, h.bound env there⟩, h.stores, ⟨rfl, h.next⟩, trivial⟩

omit [Preorder Stage] in
theorem World.of_stores {w w' : DynamicScope.World}
    (stores : p.likeness.stores κ w.store w'.store)
    (next : p.likeness.next κ w.nextIdentity w'.nextIdentity) : p.World κ w :=
  ⟨fun env there => (stores.2 env there).2, next.2⟩

theorem keeps_of_ends {α : Type} {R : Stage → α → α → Prop} {env : EnvRef} {S : Stage → α → Prop}
    {x : EStateM.Result Failure DynamicScope.World α} (h : p.likeness.Ends κ env env R x x)
    (related : ∀ κ a, R κ a a → S κ a) : p.Keeps κ S x := by
  cases h with
  | ok up kept linked => exact .ok up (related _ _ kept) (.of_stores linked.stores linked.next)
  | error up kept linked => exact .error up kept.2 (.of_stores linked.stores linked.next)

theorem Kept.evaluate (laws : p.Kept setup) (calls : Nat) {env : EnvRef} {tree : Ast}
    {w : DynamicScope.World} (world : p.World κ w) (there : env < w.size) (h : p.tree tree) :
    p.Keeps κ p.value ((setup.evaluate calls env tree).run w) :=
  keeps_of_ends (Likeness.pairs_evaluate laws.simulates calls κ env env tree tree ⟨rfl, h⟩ w w
    (world.linked there)) fun _ _ kept => kept.2

theorem Kept.condition (laws : p.Kept setup) (budget : Budget) {env : EnvRef} {test : Ast}
    {w : DynamicScope.World} (world : p.World κ w) (there : env < w.size) (h : p.tree test) :
    p.Keeps κ (fun _ _ => True) ((setup.condition budget env test).run w) :=
  keeps_of_ends (Likeness.pairs_condition laws.simulates budget ⟨rfl, h⟩ w w
    (world.linked there)) fun _ _ _ => trivial

theorem KeptThroughout.execute {statement : Ast → Prop} (laws : p.KeptThroughout statement setup)
    (budget : Budget) {tree : Ast} {s : State} {w : DynamicScope.World} (world : p.World κ w)
    (there : s.env < w.size) (output : p.value κ s.output.array) (h : statement tree) :
    p.Keeps κ (fun κ t => p.value κ t.output.array) ((setup.execute budget tree s).run w) := by
  have ended := Conduct.halts_execute laws.executes budget κ tree tree ⟨rfl, h⟩ s s w w
    ⟨rfl, world.linked there, rfl, output⟩
  generalize (setup.execute budget tree s).run w = x at ended ⊢
  cases ended with
  | ok up joined =>
    exact .ok up joined.output.2 (.of_stores joined.linked.stores joined.linked.next)
  | error up kept stores next _ => exact .error up kept.2 (.of_stores stores next)

end Invariant

end DynamicScope
