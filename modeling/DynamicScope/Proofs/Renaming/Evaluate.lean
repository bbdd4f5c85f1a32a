import DynamicScope.Proofs.Heap.Preserved
import DynamicScope.Proofs.Renaming.Value

/-! Evaluation does not depend on identities.
Where the same bindings are found in two worlds, up to the identities of their objects, an expression
comes to the same value in both, again up to identities. So a loop's condition that is checked in
unchanged bindings has the same truth at every check, though each check uses up identities. -/

namespace DynamicScope

/-- Other identities for those before `next`, and for those to come the ones from `next'` on. -/
structure Renames (ρ : Nat → Nat) (next next' : Nat) : Prop where
  inj (i j : Nat) : ρ i = ρ j → i = j
  fresh (k : Nat) : ρ (next + k) = next' + k

namespace Renames

variable {ρ : Nat → Nat} {next next' : Nat}

theorem add (h : Renames ρ next next') (used : Nat) : Renames ρ (next + used) (next' + used) := by
  refine ⟨h.inj, fun k => ?_⟩
  rw [Nat.add_assoc, h.fresh, Nat.add_assoc]

theorem exists_moved (h : next ≤ next') : ∃ ρ, Renames ρ next next' ∧ ∀ i < next, ρ i = i := by
  refine ⟨fun i => if i < next then i else next' + (i - next), ⟨fun i j same => ?_, fun k => ?_⟩,
    fun i old => if_pos old⟩
  · split at same <;> split at same <;> omega
  · rw [if_neg (by omega)]
    omega

end Renames

/-- A native function whose answer does not depend on identities. -/
def Native.Uniform (native : Native) : Prop :=
  ∀ ρ next next' arguments, Renames ρ next next' →
    native.apply next' (arguments.map (Value.rename ρ)) =
      (native.apply next arguments).map fun a => (a.1.rename ρ, a.2)

/-- A native function that changes nothing and answers what its arguments determine. -/
structure Native.Pure (native : Native) : Prop where
  keeps : native.KeepsObjects
  uniform : native.Uniform

namespace Native

theorem pure_pack : pack.Pure := by
  refine ⟨keepsObjects_pack, fun ρ next next' arguments moved => ?_⟩
  have fresh := moved.fresh 0
  simp only [Nat.add_zero] at fresh
  simp [pack, Except.map, fresh]

end Native

def Likeness.renamed (Stage : Type) (ρ : Nat → Nat) : Likeness Stage where
  failure := Eq
  operator := Eq
  name := Eq
  key := Eq
  tree := Eq
  value _ v v' := v.rename ρ = v'
  bindings _ b b' := b.map (fun entry => (entry.1, entry.2.rename ρ)) = b'
  stores _ _ _ := True
  next _ := Renames ρ
  trace _ _ := True

namespace Renames

variable {Stage : Type} {ρ : Nat → Nat}

theorem reflexive : (Likeness.renamed Stage ρ).Reflexive :=
  ⟨fun _ => rfl, fun _ => rfl, fun _ => rfl, fun _ => rfl, fun _ _ => rfl⟩

theorem value?_map (b : Bindings) (name : Name) :
    Bindings.value? (b.map fun entry => (entry.1, entry.2.rename ρ)) name =
      (b.value? name).map (Value.rename ρ) :=
  Bindings.value?_map (f := id) (fun _ _ => Iff.rfl) b name

theorem insertAll_map (b : Bindings) (others : List (Name × Value)) :
    Bindings.insertAll (b.map fun entry => (entry.1, entry.2.rename ρ))
        (others.map fun entry => (entry.1, entry.2.rename ρ)) =
      (b.insertAll others).map fun entry => (entry.1, entry.2.rename ρ) :=
  Bindings.insertAll_map (f := id) (fun _ _ => Iff.rfl) b others

theorem mathBindings_map {next next' : Nat} (moved : Renames ρ next next') :
    (mathBindings next).map (fun entry => (entry.1, entry.2.rename ρ)) = mathBindings next' := by
  simp only [mathBindings, MathFunction.value, List.map_cons, List.map_map]
  refine congrArg₂ _ rfl (List.map_congr_left fun entry _ => ?_)
  exact congrArg (fun i => (Name.ofString entry.1.name, Value.builtin i (.math entry.1)))
    (moved.fresh entry.2)

theorem nativeBindings_map {setup : Setup} (fixed : ∀ i < setup.natives.length, ρ i = i) :
    setup.nativeBindings.map (fun entry => (entry.1, entry.2.rename ρ)) = setup.nativeBindings := by
  rw [Setup.nativeBindings, List.map_map]
  refine List.map_congr_left fun entry listed => ?_
  obtain ⟨⟨name, native⟩, i⟩ := entry
  exact congrArg (fun j => (Name.ofString name, Value.builtin j (.native native.name native.arity i)))
    (fixed i (List.snd_lt_of_mem_zipIdx listed))

theorem answer_rename {setup : Setup} (uniform : ∀ entry ∈ setup.natives, entry.2.Uniform)
    {n n' : Nat} (next : Renames ρ n n') {f : Builtin} {vs : List Value} :
    setup.answer f n' (vs.map (Value.rename ρ)) =
      (setup.answer f n vs).map fun a => (a.1.rename ρ, a.2) := by
  cases f with
  | math f =>
    rw [Setup.answer, Setup.answer,
      ← (Value.resembles_rename next.inj).apply_eq f (forall₂_graph_iff.mpr rfl)]
    cases ran : f.apply vs with
    | error e => rfl
    | ok v =>
      have same : v.rename ρ = v := Value.rename_of_isPlain (MathFunction.apply_isPlain ran)
      exact congrArg (fun v => Except.ok (v, 0)) same.symm
  | native name arity index =>
    rw [Setup.answer, Setup.answer]
    cases found : setup.natives[index]? with
    | none => rfl
    | some entry => exact uniform entry (List.mem_of_getElem? found) ρ n n' vs next

theorem answer_id (setup : Setup) {n n' : Nat} (next : Renames id n n') {f : Builtin}
    {vs : List Value} : setup.answer f n' (vs.map (Value.rename id)) =
      (setup.answer f n vs).map fun a => (a.1.rename id, a.2) := by
  obtain rfl : n = n' := next.fresh 0
  have unchanged : Value.rename id = id := funext Value.rename_id
  rw [unchanged, List.map_id]
  cases setup.answer f n vs <;> rfl

theorem simulates [Preorder Stage] (inj : ∀ i j, ρ i = ρ j → i = j) {setup : Setup}
    (uniform : ∀ entry ∈ setup.natives, entry.2.Uniform) :
    (Likeness.renamed Stage ρ).Simulates setup setup where
  value_mono _ h := h
  bindings_mono _ h := h
  stores_mono _ _ := trivial
  stores_new _ _ := trivial
  expression := by
    rintro tree _ rfl
    exact reflexive.expression tree
  key := by
    rintro name _ rfl
    exact .refl (fun _ => rfl) reflexive.failure _
  present := by
    rintro _ b _ key _ rfl rfl
    rw [Bindings.present?, Bindings.present?, value?_map]
    exact Value.present_related (fun h => ((Value.resembles_rename inj).form h).isPresent_eq)
      (Value.map_related fun _ _ => rfl)
  overlay := by
    rintro _ b _ keys _ vs vs' rfl same given
    obtain rfl := List.forall₂_eq_eq_eq ▸ same
    obtain rfl := forall₂_graph_iff.mp given
    rw [List.zip_map_right]
    exact (insertAll_map b (keys.zip vs)).symm
  undeclared := by
    rintro name _ rfl
    rfl
  arity := by
    rintro name _ expected given rfl
    rfl
  exhausted := rfl
  boolean _ _ := rfl
  isTrue h := by
    rw [((Value.resembles_rename inj).form h).isTrue_eq]
    exact .refl (fun _ => rfl) reflexive.failure _
  unary := by
    rintro _ operator _ v v' rfl h
    rw [← ((Value.resembles_rename inj).form h).unary_eq]
    exact .same (fun _ ran => Value.rename_of_isPlain (Value.unary_isPlain ran)) reflexive.failure
  binary := by
    rintro _ operator _ a a' b b' rfl left right
    rw [← (Value.resembles_rename inj).binary_eq left right]
    exact .same (fun _ ran => Value.rename_of_isPlain (Value.binary_isPlain ran)) reflexive.failure
  subscript := (Value.resembles_rename inj).subscript_alike reflexive.failure rfl
  array := by
    rintro κ n n' vs vs' next given
    obtain rfl := forall₂_graph_iff.mp given
    refine ⟨κ, le_refl κ, next.add 1, ?_⟩
    change Value.rename ρ _ = _
    rw [Value.rename_array]
    congr
    exact next.fresh 0
  called := by
    rintro _ v _ rfl
    cases v with
    | builtin i f => exact .builtin _ _ _ _
    | function i parameters body => exact reflexive.function _ _ parameters body
    | _ => exact .other nofun nofun fun _ _ same => by rw [same]; rfl
  answer := by
    rintro κ i i' n n' f f' vs vs' same next given
    obtain rfl := forall₂_graph_iff.mp given
    injection same with _ same
    subst same
    rw [answer_rename uniform next]
    exact .map (fun a _ => ⟨κ, le_refl κ, next.add a.2, rfl⟩) reflexive.failure
  recorded same := by
    obtain rfl := same.same (fun _ _ h => h) (fun _ _ h => h)
      (fun v _ h => by rw [← h, Value.toText_rename]) fun _ _ _ _ _ _ h => by
        injection h with _ same
        rw [same]
    exact .refl (fun _ _ _ _ => trivial) reflexive.failure _

end Renames

theorem Setup.condition_again {setup : Setup} (uniform : ∀ entry ∈ setup.natives, entry.2.Uniform)
    (budget : Budget) {env : EnvRef} {test : Ast} {h : Heap} {w u v : World} {b : Bool}
    (covers : h.Covers w) (there : env < w.size) (later : env < v.size)
    (same : v.bindings env = w.bindings env) (next : w.nextIdentity ≤ v.nextIdentity)
    (checked : (setup.condition budget env test).run w = .ok b u) :
    ∃ u', (setup.condition budget env test).run v = .ok b u' := by
  obtain ⟨ρ, moved, fixed⟩ := Renames.exists_moved next
  have laws : (Likeness.renamed Heap ρ).Simulates setup setup :=
    Renames.simulates moved.inj uniform
  have unmoved :
      (w.bindings env).map (fun entry => (entry.1, entry.2.rename ρ)) = v.bindings env := by
    have each : ∀ entry ∈ w.bindings env, (entry.1, entry.2.rename ρ) = entry := by
      intro entry listed
      rw [Value.rename_of_holds covers.next fixed entry.2 (covers.bound env there entry listed)]
    rw [same, List.map_congr_left each, List.map_id']
  have linked : (Likeness.renamed Heap ρ).Linked h env w env v :=
    ⟨there, later, unmoved, trivial, moved, trivial⟩
  have alike : (Likeness.renamed Heap ρ).tree test test := rfl
  have ended := Likeness.pairs_condition laws budget alike w v linked
  rw [checked] at ended
  generalize (setup.condition budget env test).run v = x at ended ⊢
  cases ended with
  | ok _ same _ => exact ⟨_, by rw [← same]⟩

end DynamicScope
