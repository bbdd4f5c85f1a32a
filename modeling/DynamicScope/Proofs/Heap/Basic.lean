import DynamicScope.Proofs.Simulation.Invariant

/-! What an identity stands for.
A heap says which array or function has an identity. It holds a value if every array and function in
the value is the one that the heap gives to its identity, so two arrays of one identity in values
that a heap holds have the same elements. A greater heap knows more identities; what it held before
it holds as it was. -/

namespace DynamicScope

structure Heap where
  object? : Nat → Option Value

namespace Heap

instance : Preorder Heap where
  le h h' := ∀ i v, h.object? i = some v → h'.object? i = some v
  le_refl h := fun _ _ known => known
  le_trans h h' h'' first second := fun i v known => second i v (first i v known)

mutual

/-- Whether every object in a value is the one that the heap gives to its identity. -/
def Holds (h : Heap) : Value → Prop
  | .array i items => h.object? i = some (.array i items) ∧ h.HoldsAll items
  | .builtin i f => h.object? i = some (.builtin i f)
  | .function i parameters body => h.object? i = some (.function i parameters body)
  | _ => True

def HoldsAll (h : Heap) : List Value → Prop
  | [] => True
  | v :: vs => h.Holds v ∧ h.HoldsAll vs

end

def Free (h : Heap) (next : Nat) : Prop := ∀ i, next ≤ i → h.object? i = none

def put (h : Heap) (i : Nat) (v : Value) : Heap := ⟨fun j => if j = i then some v else h.object? j⟩

theorem holdsAll_iff {h : Heap} {vs : List Value} : h.HoldsAll vs ↔ ∀ v ∈ vs, h.Holds v := by
  induction vs with
  | nil => simp [HoldsAll]
  | cons v vs ih => rw [HoldsAll, ih, List.forall_mem_cons]

theorem Holds.items {h : Heap} {i : Nat} {vs : List Value} (held : h.Holds (.array i vs)) :
    ∀ v ∈ vs, h.Holds v := by
  rw [Holds] at held
  exact holdsAll_iff.mp held.2

mutual

theorem Holds.mono {h h' : Heap} (up : h ≤ h') : (v : Value) → h.Holds v → h'.Holds v
  | .array i items, held => by
    rw [Holds] at held ⊢
    exact ⟨up i _ held.1, HoldsAll.mono up items held.2⟩
  | .builtin i f, held => by
    rw [Holds] at held ⊢
    exact up i _ held
  | .function i parameters body, held => by
    rw [Holds] at held ⊢
    exact up i _ held
  | .number _, _ | .boolean _, _ | .undefined, _ | .text _, _ | .nothing, _ => trivial

theorem HoldsAll.mono {h h' : Heap} (up : h ≤ h') :
    (vs : List Value) → h.HoldsAll vs → h'.HoldsAll vs
  | [], _ => trivial
  | v :: vs, held => ⟨Holds.mono up v held.1, HoldsAll.mono up vs held.2⟩

end

theorem le_put {h : Heap} {next : Nat} (free : h.Free next) (v : Value) : h ≤ h.put next v := by
  intro i u known
  have old : i ≠ next := by
    rintro rfl
    simp [free i (Nat.le_refl i)] at known
  simpa [put, old] using known

theorem free_put {h : Heap} {next : Nat} (free : h.Free next) (v : Value) :
    (h.put next v).Free (next + 1) := by
  intro i later
  have new : i ≠ next := by omega
  simpa [put, new] using free i (by omega)

theorem Free.lt {h : Heap} {next i : Nat} {v : Value} (free : h.Free next)
    (known : h.object? i = some v) : i < next := by
  by_contra later
  have unknown := free i (Nat.le_of_not_lt later)
  rw [known] at unknown
  cases unknown

theorem holds_put_array {h : Heap} {next : Nat} (free : h.Free next) {items : List Value}
    (held : ∀ v ∈ items, h.Holds v) :
    (h.put next (.array next items)).Holds (.array next items) := by
  rw [Holds]
  refine ⟨by simp [put], HoldsAll.mono (le_put free _) items (holdsAll_iff.mpr held)⟩

theorem array_inj {h : Heap} {i : Nat} {vs vs' : List Value} (first : h.Holds (.array i vs))
    (second : h.Holds (.array i vs')) : vs = vs' := by
  rw [Holds] at first second
  have same := first.1.symm.trans second.1
  injection same with same
  injection same

end Heap

end DynamicScope
