import DynamicScope.Proofs.Origin.Basic

/-! Logs along an execution.
An execution passes points at which objects are made, one point after another. If each of them finds
a world that the log so far accounts for, and the log with what is made there accounts for what the
point leaves, then the whole log accounts for the world in the end. -/

namespace DynamicScope

open Machine

theorem mem_of_callBindings {name : Json} {parameters : Ast} {vs : List Value}
    {others : List (Name × Value)} {other : Name × Value}
    (h : callBindings name parameters vs = .ok others) (listed : other ∈ others) : other.2 ∈ vs := by
  obtain ⟨expected, -, h⟩ := bind_eq_ok.mp h
  split at h
  · obtain ⟨names, -, h⟩ := bind_eq_ok.mp h
    obtain ⟨keys, -, h⟩ := bind_eq_ok.mp h
    cases h
    exact (List.of_mem_zip listed).2
  · cases h

namespace Origin

variable {α β ι : Type} {log log' : List Value} {w : World}

inductive Leaves (log : List Value) (R : α → Prop) : EStateM.Result Failure World α → Prop
  | ok {a : α} {v : World} (world : v.Accounted log) (held : R a) : Leaves log R (.ok a v)
  | error {e : Failure} {v : World} (world : v.Accounted log) : Leaves log R (.error e v)

namespace Leaves

variable {R : α → Prop} {S : β → Prop} {m : Machine α} {f : α → Machine β}

theorem of_ok {a : α} {v : World} (h : Leaves log R (m.run w)) (ran : m.run w = .ok a v) :
    v.Accounted log ∧ R a := by
  rw [ran] at h
  cases h with
  | ok world held => exact ⟨world, held⟩

theorem after (h : Leaves log R (m.run w)) : (m.after w).Accounted log := by
  unfold Machine.after
  generalize m.run w = x at h ⊢
  cases h <;> assumption

theorem bind (first : Leaves log R (m.run w))
    (rest : ∀ a v, v.Accounted log → R a → Leaves log S ((f a).run v)) :
    Leaves log S ((m >>= f).run w) := by
  rw [EStateM.run_bind]
  generalize m.run w = x at first ⊢
  cases first with
  | ok world held => exact rest _ _ world held
  | error world => exact .error world

theorem pure (here : w.Accounted log) {a : α} (held : R a) :
    Leaves log R ((Pure.pure a : Machine α).run w) := .ok here held

theorem throw (here : w.Accounted log) (e : Failure) :
    Leaves log R ((MonadExcept.throw e : Machine α).run w) := .error here

theorem lift (here : w.Accounted log) {x : Except Failure α} (held : ∀ a, x = .ok a → R a) :
    Leaves log R ((Machine.lift x).run w) := by
  cases x with
  | ok a => exact .ok here (held a rfl)
  | error e => exact .error here

theorem record (here : w.Accounted log) (setup : Setup) (level : Nat)
    (event : Unit → Except Failure Event) :
    Leaves log (fun _ => True) ((Machine.record setup level event).run w) := by
  rw [run_record]
  rcases recorded setup level event with e | (_ | e)
  · exact .error here
  · exact .ok here trivial
  · exact .ok (here.traced _) trivial

theorem lookup? (here : w.Accounted log) (env : EnvRef) (name : Json) :
    Leaves log (fun f => ∀ v, f = some v → v.From log) ((Machine.lookup? env name).run w) := by
  cases found : (Machine.lookup? env name).run w with
  | ok f v =>
    obtain rfl := of_lookup?_ok found
    exact .ok here fun v same => here.lookup? (same ▸ found)
  | error e v =>
    rcases of_bind_error found with found | ⟨_, _, _, found⟩
    · rw [run_lift] at found
      split at found <;> cases found
      exact .error here
    · cases found

theorem assign (here : w.Accounted log) (env : EnvRef) (name : Json) {value : Value}
    (held : value.From log) :
    Leaves log (fun _ => True) ((Machine.assign env name value).run w) := by
  rw [run_assign]
  cases Name.ofJson? name with
  | error e => exact .error here
  | ok key =>
    dsimp only
    split
    · exact .ok (here.overwrite env key held) trivial
    · exact .error here

theorem callEnvironment (here : w.Accounted log) (name : Json) (parameters : Ast) {vs : List Value}
    (held : ∀ v ∈ vs, v.From log) (env : EnvRef) :
    Leaves log (fun _ => True) ((callEnvironment name parameters vs env).run w) := by
  rw [run_callEnvironment]
  cases bound : callBindings name parameters vs with
  | error e => exact .error here
  | ok others =>
    refine .ok (here.merged env fun other listed => held _ ?_) trivial
    exact mem_of_callBindings bound listed

end Leaves

section Sequence

variable (made : ι → List Value) (fit : List Value → ι → Prop)

/-- Points one after another, each of which is fit for the log so far. -/
inductive Sequence : List Value → List ι → Prop
  | nil {log : List Value} : Sequence log []
  | cons {log : List Value} {p : ι} {points : List ι} (first : fit log p)
    (rest : Sequence (log ++ made p) points) : Sequence log (p :: points)

/-- An execution that passes the points and leaves what the log accounts for after them. -/
structure Passage (log : List Value) (points : List ι) (R : List Value → α → Prop)
    (x : EStateM.Result Failure World α) : Prop where
  sequence : Sequence made fit log points
  leaves : Leaves (log ++ points.flatMap made) (R (log ++ points.flatMap made)) x

variable {made fit} {points : List ι}

theorem Sequence.append {later : List ι} (first : Sequence made fit log points)
    (rest : Sequence made fit (log ++ points.flatMap made) later) :
    Sequence made fit log (points ++ later) := by
  induction first with
  | nil => simpa using rest
  | cons here _ ih => exact .cons here (ih (by simpa using rest))

theorem Sequence.of_mem {p : ι} (h : Sequence made fit log points) (listed : p ∈ points) :
    ∃ log', fit log' p ∧ log' ++ made p <+: log ++ points.flatMap made := by
  induction h with
  | nil => cases listed
  | @cons log q points first rest ih =>
    rw [List.flatMap_cons, ← List.append_assoc]
    rcases List.mem_cons.mp listed with rfl | listed
    · exact ⟨log, first, List.prefix_append _ _⟩
    · exact ih listed

namespace Passage

variable {R : List Value → α → Prop} {S : List Value → β → Prop} {m : Machine α}
  {f : α → Machine β}

theorem quiet {x : EStateM.Result Failure World α} (h : Leaves log (R log) x) :
    Passage made fit log [] R x := ⟨.nil, by simpa using h⟩

theorem single {p : ι} {x : EStateM.Result Failure World α} (here : fit log p)
    (h : Leaves (log ++ made p) (R (log ++ made p)) x) : Passage made fit log [p] R x :=
  ⟨.cons here .nil, by simpa using h⟩

theorem bind {next : α → World → List ι} (first : Passage made fit log points R (m.run w))
    (rest : ∀ log' a v, log <+: log' → v.Accounted log' → R log' a → m.run w = .ok a v →
      Passage made fit log' (next a v) S ((f a).run v)) :
    Passage made fit log (points ++ Machine.following m w next) S ((m >>= f).run w) := by
  obtain ⟨sequence, leaves⟩ := first
  rw [EStateM.run_bind]
  cases ran : m.run w with
  | error e v =>
    rw [ran] at leaves
    rw [following_of_error ran, List.append_nil]
    cases leaves with
    | error world => exact ⟨sequence, .error world⟩
  | ok a v =>
    obtain ⟨world, held⟩ := leaves.of_ok ran
    obtain ⟨later, left⟩ := rest _ a v (List.prefix_append _ _) world held ran
    rw [following_of_ok ran]
    refine ⟨sequence.append later, ?_⟩
    rw [List.flatMap_append, ← List.append_assoc]
    exact left

theorem following {R : α → Prop} {next : α → World → List ι} (first : Leaves log R (m.run w))
    (rest : ∀ a v, v.Accounted log → R a → m.run w = .ok a v →
      Passage made fit log (next a v) S ((f a).run v)) :
    Passage made fit log (Machine.following m w next) S ((m >>= f).run w) := by
  rw [EStateM.run_bind]
  cases ran : m.run w with
  | error e v =>
    rw [ran] at first
    rw [following_of_error ran]
    cases first with
    | error world => exact quiet (.error world)
  | ok a v =>
    obtain ⟨world, held⟩ := first.of_ok ran
    rw [following_of_ok ran]
    exact rest a v world held ran

theorem cons {p : ι} {next : α → World → List ι} (first : Passage made fit log [p] R (m.run w))
    (rest : ∀ log' a v, log <+: log' → v.Accounted log' → R log' a → m.run w = .ok a v →
      Passage made fit log' (next a v) S ((f a).run v)) :
    Passage made fit log (p :: Machine.following m w next) S ((m >>= f).run w) :=
  bind first rest

theorem last (first : Passage made fit log points R (m.run w))
    (rest : ∀ log' a v, log <+: log' → v.Accounted log' → R log' a → m.run w = .ok a v →
      Leaves log' (S log') ((f a).run v)) :
    Passage made fit log points S ((m >>= f).run w) := by
  have whole : Passage made fit log (points ++ Machine.following m w fun _ _ => []) S
      ((m >>= f).run w) :=
    first.bind fun log' a v more world held ran => quiet (rest log' a v more world held ran)
  have none : Machine.following m w (fun _ _ => ([] : List ι)) = [] := by
    unfold Machine.following
    split <;> rfl
  rwa [none, List.append_nil] at whole

end Passage

end Sequence

end Origin

end DynamicScope
