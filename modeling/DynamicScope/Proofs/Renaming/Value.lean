import DynamicScope.Proofs.Heap.Basic
import DynamicScope.Proofs.Value.Form
import DynamicScope.Value.Display

/-! Values with other identities.
Identities only serve to tell objects apart. Giving the objects of a value others, and different
objects different ones, changes neither its text nor its truth nor what any operator answers. -/

namespace DynamicScope

namespace Value

variable {ρ : Nat → Nat}

mutual

def rename (ρ : Nat → Nat) : Value → Value
  | .array i items => .array (ρ i) (renameAll ρ items)
  | .builtin i f => .builtin (ρ i) f
  | .function i parameters body => .function (ρ i) parameters body
  | .number n => .number n
  | .boolean b => .boolean b
  | .undefined => .undefined
  | .text s => .text s
  | .nothing => .nothing

def renameAll (ρ : Nat → Nat) : List Value → List Value
  | [] => []
  | v :: vs => v.rename ρ :: renameAll ρ vs

end

theorem renameAll_eq_map (ρ : Nat → Nat) (vs : List Value) :
    renameAll ρ vs = vs.map (rename ρ) := by
  induction vs with
  | nil => rfl
  | cons v vs ih => rw [renameAll, ih, List.map_cons]

@[simp] theorem rename_array (ρ : Nat → Nat) (i : Nat) (items : List Value) :
    (Value.array i items).rename ρ = .array (ρ i) (items.map (rename ρ)) := by
  rw [rename, renameAll_eq_map]

mutual

@[simp] theorem rename_id : (v : Value) → v.rename id = v
  | .array i items => by
    rw [rename, renameAll_id items]
    rfl
  | .builtin .. | .function .. | .number _ | .boolean _ | .undefined | .text _ | .nothing => rfl

theorem renameAll_id : (vs : List Value) → renameAll id vs = vs
  | [] => rfl
  | v :: vs => by rw [renameAll, rename_id v, renameAll_id vs]

end

theorem rename_of_isPlain {v : Value} (h : v.isPlain = true) : v.rename ρ = v := by
  cases v <;> first | rfl | cases h

mutual

@[simp] theorem toText_rename : (v : Value) → (v.rename ρ).toText = v.toText
  | .array i items => by rw [rename, toText, toText, toTextAll_renameAll items]
  | .builtin .. | .function .. | .number _ | .boolean _ | .undefined | .text _ | .nothing => rfl

theorem toTextAll_renameAll : (vs : List Value) → toTextAll (renameAll ρ vs) = toTextAll vs
  | [] => rfl
  | v :: vs => by
    rw [renameAll, toTextAll, toTextAll, toText_rename v, toTextAll_renameAll vs]

end

theorem equal_rename (inj : ∀ i j, ρ i = ρ j → i = j) (a b : Value) :
    (a.rename ρ).equal (b.rename ρ) = a.equal b := by
  have same (i j : Nat) : decide (ρ i = ρ j) = decide (i = j) :=
    decide_eq_decide.mpr ⟨inj i j, congrArg ρ⟩
  cases a <;> cases b <;> first | rfl | exact same _ _

theorem resembles_rename (inj : ∀ i j, ρ i = ρ j → i = j) :
    Resembles fun v v' => v.rename ρ = v' where
  form := by
    rintro v _ rfl
    cases v with
    | array i items =>
      rw [rename_array]
      exact .array i (ρ i) (forall₂_graph_iff.mpr rfl)
    | number n => exact .number n
    | boolean b => exact .boolean b
    | builtin i f => exact .builtin i (ρ i) f
    | function i parameters body => exact .function i (ρ i) _ _ _ _
    | undefined => exact .undefined
    | text s => exact .text s
    | nothing => exact .nothing
  equal := by
    rintro a _ b _ rfl rfl
    exact (equal_rename inj a b).symm

mutual

theorem rename_of_holds {h : Heap} {next : Nat} (free : h.Free next) (fixed : ∀ i < next, ρ i = i) :
    (v : Value) → h.Holds v → v.rename ρ = v
  | .array i items, held => by
    rw [Heap.Holds] at held
    rw [rename, fixed i (free.lt held.1), renameAll_of_holds free fixed items held.2]
  | .builtin i f, held => by
    rw [Heap.Holds] at held
    rw [rename, fixed i (free.lt held)]
  | .function i parameters body, held => by
    rw [Heap.Holds] at held
    rw [rename, fixed i (free.lt held)]
  | .number _, _ | .boolean _, _ | .undefined, _ | .text _, _ | .nothing, _ => rfl

theorem renameAll_of_holds {h : Heap} {next : Nat} (free : h.Free next)
    (fixed : ∀ i < next, ρ i = i) : (vs : List Value) → h.HoldsAll vs → renameAll ρ vs = vs
  | [], _ => rfl
  | v :: vs, held => by
    rw [renameAll, rename_of_holds free fixed v held.1, renameAll_of_holds free fixed vs held.2]

end

end Value

end DynamicScope
