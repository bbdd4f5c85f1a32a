import DynamicScope.Proofs.Loop.Iterates
import DynamicScope.Proofs.Renaming.Evaluate

/-! Conditions that no iteration can change.
An iteration that declares something goes on in a new environment, and nothing that comes after it
assigns to the environment in which the loop checks its condition. So a condition that is true after
such an iteration stays true. -/

namespace DynamicScope

open Machine

structure Heap.Fits (h : Heap) (s : State) (w : World) : Prop where
  covers : h.Covers w
  there : s.env < w.size
  output : h.Holds s.output.array

section Loop

variable {setup : Setup} {budget : Budget} {test body : Ast} {env : EnvRef} {h : Heap} {n k : Nat}
  {s t s' t' : State} {w v u w' : World}

theorem framed_iteration (there : s.env < w.size)
    (checked : (setup.condition budget env test).run w = .ok true v)
    (ran : (setup.execute budget body s).run v = .ok t u) :
    w.Altered body.Assigns s.env u ∧ t.env < u.size ∧
      if setup.declares budget body s v then w.size ≤ t.env else t.env = s.env := by
  have grown := (setup.grows_condition budget env test).le_of_ok checked
  have there' : s.env < v.size := Nat.lt_of_lt_of_le there (World.size_le grown)
  have framed := setup.framed_execute budget body s v there'
  rw [ran] at framed
  cases framed with
  | ok altered inside env =>
    refine ⟨(World.Altered.of_le there grown).trans altered, inside, ?_⟩
    cases declared : setup.declares budget body s v with
    | true =>
      rw [declared] at env
      exact Nat.le_trans (World.size_le grown) env
    | false =>
      rw [declared] at env
      exact env

theorem Heap.Fits.iteration (fits : h.Fits s w)
    (keeps : ∀ entry ∈ setup.natives, entry.2.KeepsObjects) (place : env < w.size)
    (checked : (setup.condition budget env test).run w = .ok true v)
    (ran : (setup.execute budget body s).run v = .ok t u) :
    ∃ h' : Heap, h'.Fits t u := by
  have laws := Heap.keptThroughout keeps
  have grown := (setup.grows_condition budget env test).le_of_ok checked
  have known : Heap.invariant.Keeps h (fun _ _ => True) ((setup.condition budget env test).run w) :=
    laws.condition budget fits.covers place trivial
  obtain ⟨h₁, up, covers, -⟩ := known.after
  rw [after_of_ok checked] at covers
  have there : s.env < v.size := Nat.lt_of_lt_of_le fits.there (World.size_le grown)
  have kept : Heap.invariant.Keeps h₁ (fun h' t => h'.Holds t.output.array)
      ((setup.execute budget body s).run v) :=
    laws.execute budget covers there (Heap.Holds.mono up _ fits.output) trivial
  obtain ⟨h₂, -, covers', output⟩ := kept.after
  rw [after_of_ok ran] at covers'
  exact ⟨h₂, covers', (framed_iteration fits.there checked ran).2.1, output t u ran⟩

theorem Heap.Fits.iterates (fits : h.Fits s w)
    (keeps : ∀ entry ∈ setup.natives, entry.2.KeepsObjects) (place : env < w.size)
    (run : Iterates (setup.condition budget env test) (setup.execute budget body) n s w t u) :
    (∃ h' : Heap, h'.Fits t u) ∧ w.size ≤ u.size := by
  induction run generalizing h with
  | zero s w => exact ⟨⟨h, fits⟩, Nat.le_refl _⟩
  | succ checked ran _ ih =>
    obtain ⟨h', fits'⟩ := fits.iteration keeps place checked ran
    have size := (framed_iteration fits.there checked ran).1.size
    obtain ⟨later, size'⟩ := ih fits' (Nat.lt_of_lt_of_le place size)
    exact ⟨later, Nat.le_trans size size'⟩

theorem bindings_of_iterates (place : env < w.size) (later : env < s.env) (there : s.env < w.size)
    (run : Iterates (setup.condition budget env test) (setup.execute budget body) n s w t u) :
    u.bindings env = w.bindings env ∧ w.nextIdentity ≤ u.nextIdentity ∧ env < u.size := by
  induction run with
  | zero s w => exact ⟨rfl, Nat.le_refl _, place⟩
  | @succ n s t s' w v u w' checked ran _ ih =>
    obtain ⟨altered, there', moved⟩ := framed_iteration there checked ran
    have later' : env < t.env := by
      split at moved
      · exact Nat.lt_of_lt_of_le place moved
      · exact Nat.lt_of_lt_of_eq later (Eq.symm moved)
    obtain ⟨same, next, place'⟩ := ih (Nat.lt_of_lt_of_le place altered.size) later' there'
    refine ⟨?_, Nat.le_trans altered.next next, place'⟩
    rw [same, altered.others env place (Nat.ne_of_lt later)]

end Loop

namespace Setup

/-- So many iterations of a while statement whose condition is checked in the given environment. -/
abbrev Iterated (setup : Setup) (budget : Budget) (test body : Ast) (env : EnvRef) :
    Nat → State → World → State → World → Prop :=
  Iterates (setup.condition budget env test) (setup.execute budget body)

def TrueAt (setup : Setup) (budget : Budget) (test : Ast) (env : EnvRef) (w : World) : Prop :=
  ∃ v, (setup.condition budget env test).run w = .ok true v

/-- An iteration that executes a declaration, from one check to the next. -/
def DeclaringIteration (setup : Setup) (budget : Budget) (test body : Ast) (env : EnvRef) (s : State)
    (w : World) (t : State) (u : World) : Prop :=
  ∃ v, (setup.condition budget env test).run w = .ok true v ∧
    (setup.execute budget body s).run v = .ok t u ∧ setup.declares budget body s v = true

variable {setup : Setup} {budget : Budget} {test body : Ast} {env : EnvRef} {h : Heap} {n k : Nat}
  {s s₁ s₂ s₃ : State} {w w₁ w₂ w₃ : World}

theorem DeclaringIteration.iterated (h : setup.DeclaringIteration budget test body env s w s₁ w₁) :
    setup.Iterated budget test body env 1 s w s₁ w₁ := by
  obtain ⟨v, checked, ran, -⟩ := h
  exact .succ checked ran (.zero s₁ w₁)

theorem frozen_after (natives : ∀ entry ∈ setup.natives, entry.2.Pure) (fits : h.Fits s w)
    (place : env < w.size) (run : setup.Iterated budget test body env n s w s₁ w₁)
    (declaring : setup.DeclaringIteration budget test body env s₁ w₁ s₂ w₂)
    (again : setup.TrueAt budget test env w₂)
    (later : setup.Iterated budget test body env k s₂ w₂ s₃ w₃) :
    w₃.bindings env = w₂.bindings env ∧ setup.TrueAt budget test env w₃ := by
  have keeps (entry) (listed : entry ∈ setup.natives) := (natives entry listed).keeps
  have uniform (entry) (listed : entry ∈ setup.natives) := (natives entry listed).uniform
  obtain ⟨v, checked, ran, declared⟩ := declaring
  obtain ⟨⟨h₁, fits₁⟩, size⟩ := fits.iterates keeps place run
  have place₁ := Nat.lt_of_lt_of_le place size
  obtain ⟨h₂, fits₂⟩ := fits₁.iteration keeps place₁ checked ran
  obtain ⟨altered, -, moved⟩ := framed_iteration fits₁.there checked ran
  rw [declared] at moved
  have place₂ := Nat.lt_of_lt_of_le place₁ altered.size
  have apart : env < s₂.env := Nat.lt_of_lt_of_le place₁ moved
  obtain ⟨same, next, place₃⟩ := bindings_of_iterates place₂ apart fits₂.there later
  obtain ⟨v₂, again⟩ := again
  exact ⟨same, condition_again uniform budget fits₂.covers place₂ place₃ same next again⟩

/-- If an iteration of a while statement declares something and the condition is true after it, then
every later check sees the same bindings and is true, and the statement never returns: it uses up all
iterations that it is given, or its body fails after one of the checks. So if it does return, only the
last iteration declares anything. -/
theorem while_frozen (setup : Setup) (natives : ∀ entry ∈ setup.natives, entry.2.Pure)
    (budget : Budget) (test body : Ast) {h : Heap} {s : State} {w : World} (fits : h.Fits s w) :
    (∀ n s₁ w₁ s₂ w₂, setup.Iterated budget test body s.env n s w s₁ w₁ →
      setup.DeclaringIteration budget test body s.env s₁ w₁ s₂ w₂ →
      setup.TrueAt budget test s.env w₂ →
      (∀ k s₃ w₃, setup.Iterated budget test body s.env k s₂ w₂ s₃ w₃ →
        w₃.bindings s.env = w₂.bindings s.env ∧ setup.TrueAt budget test s.env w₃) ∧
      ∀ iterations, ∃ e u,
        (repeatWhile (setup.condition budget s.env test) (setup.execute budget body)
          iterations s).run w = .error e u ∧
        ((e = .exhausted ∧ ∃ t, setup.Iterated budget test body s.env iterations s w t u) ∨
          ∃ k s₃ w₃ v, setup.Iterated budget test body s.env k s₂ w₂ s₃ w₃ ∧
            (setup.condition budget s.env test).run w₃ = .ok true v ∧
            (setup.execute budget body s₃).run v = .error e u)) ∧
    ∀ t u, (setup.execute budget (.whileStatement test body) s).run w = .ok t u →
      ∀ n s₁ w₁ s₂ w₂, setup.Iterated budget test body s.env n s w s₁ w₁ →
        setup.DeclaringIteration budget test body s.env s₁ w₁ s₂ w₂ →
        s₂ = t ∧ (setup.condition budget s.env test).run w₂ = .ok false u := by
  constructor
  · intro n s₁ w₁ s₂ w₂ run declaring again
    have frozen (k s₃ w₃) (later : setup.Iterated budget test body s.env k s₂ w₂ s₃ w₃) :=
      frozen_after natives fits fits.there run declaring again later
    refine ⟨frozen, fun iterations => ?_⟩
    rcases repeatWhile_ends (setup.condition budget s.env test) (setup.execute budget body)
      iterations s w with ⟨t, u, whole, spent⟩ | ⟨k, -, s₃, w₃, whole, stops⟩
    · exact ⟨_, u, spent, .inl ⟨rfl, t, whole⟩⟩
    · obtain ⟨j, later⟩ := (run.trans declaring.iterated).until_stop whole stops
      obtain ⟨-, v, checked⟩ := frozen j s₃ w₃ later
      generalize (repeatWhile _ _ iterations s).run w = x at stops ⊢
      -- the loop can only have ended in the body, since the check is true
      cases stops with
      | done checked' => rw [checked] at checked'; cases checked'
      | test failed => rw [checked] at failed; cases failed
      | body checked' failed => exact ⟨_, _, rfl, .inr ⟨j, s₃, w₃, _, later, checked', failed⟩⟩
  · intro t u returned n s₁ w₁ s₂ w₂ run declaring
    rw [execute] at returned
    rcases repeatWhile_ends (setup.condition budget s.env test) (setup.execute budget body)
      budget.iterations s w with ⟨t', u', -, spent⟩ | ⟨k, -, s₃, w₃, whole, stops⟩
    · rw [returned] at spent
      cases spent
    · obtain ⟨j, later⟩ := (run.trans declaring.iterated).until_stop whole stops
      rw [returned] at stops
      cases stops with
      | done checked =>
        cases later with
        | zero => exact ⟨rfl, checked⟩
        | succ again ran rest =>
          obtain ⟨-, v, still⟩ := frozen_after natives fits fits.there run declaring ⟨_, again⟩
            (.succ again ran rest)
          rw [still] at checked
          cases checked

def asserting : World := ⟨⟨#[[(.ofString "c", .boolean true)]]⟩, 1, #[]⟩

def asserted : Ast := .identifier (.scalar (.string "c"))

def declareAfter (value : Bool) : Ast :=
  .block (.list [.assignment asserted (.booleanLiteral value),
    .variableDeclaration (.identifier (.scalar (.string "x"))) (.booleanLiteral true)])

theorem asserting_fits : Heap.Fits ⟨fun i => if i = 0 then some (.array 0 []) else none⟩
    ⟨0, ⟨0, []⟩⟩ asserting := by
  refine ⟨⟨fun env there => ?_, fun i later => ?_⟩, by decide, ?_⟩
  · obtain rfl := Nat.lt_one_iff.mp there
    simp [Invariant.Bound, asserting, World.bindings, Store.bindings, Heap.invariant, Heap.Holds]
  · have new : i ≠ 0 := Nat.ne_of_gt later
    simp [new]
  · simp [Output.array, Heap.Holds, Heap.HoldsAll]

theorem while_frozen_asserting :
    (∀ iterations, ∃ e u, (repeatWhile (packing.condition ⟨0, 9⟩ 0 asserted)
      (packing.execute ⟨0, 9⟩ (declareAfter true)) iterations ⟨0, ⟨0, []⟩⟩).run asserting =
        .error e u) ∧
    ∃ t u w, (packing.execute ⟨0, 9⟩ (.whileStatement asserted (declareAfter false))
        ⟨0, ⟨0, []⟩⟩).run asserting = .ok t u ∧
      (packing.condition ⟨0, 9⟩ 0 asserted).run w = .ok false u := by
  have natives : ∀ entry ∈ packing.natives, entry.2.Pure := by
    intro entry listed
    obtain rfl := List.mem_singleton.mp listed
    exact Native.pure_pack
  constructor
  · intro iterations
    have never := ((while_frozen packing natives ⟨0, 9⟩ asserted (declareAfter true)
      asserting_fits).1 0 _ _ _ _ (.zero _ _) ⟨_, rfl, rfl, rfl⟩ ⟨_, rfl⟩).2
    obtain ⟨e, u, failed, -⟩ := never iterations
    exact ⟨e, u, failed⟩
  · have last := (while_frozen packing natives ⟨0, 9⟩ asserted (declareAfter false)
      asserting_fits).2 _ _ rfl 0 _ _ _ _ (.zero _ _) ⟨_, rfl, rfl, rfl⟩
    exact ⟨_, _, _, rfl, last.2⟩

end Setup

end DynamicScope
