import DynamicScope.Proofs.Heap.Basic
import DynamicScope.Proofs.Value.Operator

/-! Runs leave objects as they are.
A run only adds objects to a heap, at identities that nothing had, if its native functions do so. -/

namespace DynamicScope

/-- A native function that answers what it was given or what it made itself, and changes nothing. -/
def Native.KeepsObjects (native : Native) : Prop :=
  ∀ (h : Heap) next arguments value used, h.Free next → (∀ a ∈ arguments, h.Holds a) →
    native.apply next arguments = .ok (value, used) →
    ∃ h', h ≤ h' ∧ h'.Free (next + used) ∧ h'.Holds value

namespace Native

theorem keepsObjects_pack : pack.KeepsObjects := by
  intro h next arguments value used free held ran
  cases ran
  exact ⟨_, Heap.le_put free _, Heap.free_put free _, Heap.holds_put_array free held⟩

end Native

namespace Heap

def invariant : Invariant Heap where
  failure _ := True
  operator _ := True
  name _ := True
  tree _ := True
  value h v := h.Holds v
  next h n := h.Free n

/-- Every object in an environment is known, and no identity that is still to come. -/
abbrev Covers (h : Heap) (w : World) : Prop := invariant.World h w

theorem holds_of_isPlain (h : Heap) {v : Value} (plain : v.isPlain = true) : h.Holds v := by
  cases v <;> trivial

theorem isOpen : invariant.Open where
  failure _ := trivial
  operator _ := trivial
  name _ := trivial
  tree _ := trivial
  double _ _ := trivial

variable {setup : Setup}

theorem kept (keeps : ∀ entry ∈ setup.natives, entry.2.KeepsObjects) : invariant.Kept setup where
  value_mono up held := Holds.mono up _ held
  expression _ := isOpen.reflexive.expression _
  key _ := isOpen.yields _
  undeclared _ := trivial
  arity _ _ _ := trivial
  exhausted := trivial
  boolean _ _ := trivial
  isTrue _ := isOpen.yields _
  unary _ _ := isOpen.yields_of_ok fun _ ran => holds_of_isPlain _ (Value.unary_isPlain ran)
  binary _ _ _ := isOpen.yields_of_ok fun _ ran => holds_of_isPlain _ (Value.binary_isPlain ran)
  subscript := by
    intro h a b held _
    refine isOpen.yields_of_ok fun v ran => ?_
    obtain ⟨i, items, rfl, listed | rfl⟩ := Value.subscript_mem ran
    · exact Holds.items held v listed
    · trivial
  array free held := ⟨_, le_put free _, free_put free _, holds_put_array free held⟩
  called _ := isOpen.called _ _
  answer := by
    intro h i n f vs _ free held
    refine isOpen.yields_of_ok fun a ran => ?_
    cases f with
    | math f =>
      obtain ⟨v, applied, ran⟩ := bind_eq_ok.mp ran
      cases ran
      exact ⟨h, le_refl h, free, holds_of_isPlain h (MathFunction.apply_isPlain applied)⟩
    | native name arity index =>
      rw [Setup.answer] at ran
      cases found : setup.natives[index]? with
      | none =>
        rw [found] at ran
        cases ran
        exact ⟨h, le_refl h, free, trivial⟩
      | some entry =>
        rw [found] at ran
        exact keeps entry (List.mem_of_getElem? found) h n vs a.1 a.2 free held ran
  recorded _ := isOpen.yields _

theorem made_function (h : Heap) (n : Nat) (parameters body : Ast) (free : h.Free n) :
    ∃ h', h ≤ h' ∧ h'.Free (n + 1) ∧ h'.Holds (.function n parameters body) := by
  refine ⟨h.put n (.function n parameters body), le_put free _, free_put free _, ?_⟩
  rw [Holds]
  simp [put]

theorem keptThroughout (keeps : ∀ entry ∈ setup.natives, entry.2.KeepsObjects) :
    invariant.KeptThroughout (fun _ => True) setup where
  toKept := kept keeps
  statement _ := isOpen.statement made_function _
  unassigned _ := trivial
  items held := Holds.items held

end Heap

namespace Setup

open Machine

/-- Evaluation changes no environment. Execution changes the given environment at most, and of it
only the values of names that the tree assigns to; it goes on in that environment exactly if it
declares nothing, and else in one that is new. Neither changes an object: what they leave agrees
with a heap that knows all objects as they were. -/
theorem evaluate_execute_frame (setup : Setup)
    (keeps : ∀ entry ∈ setup.natives, entry.2.KeepsObjects) {h : Heap} {w : World}
    (covers : h.Covers w) (tree : Ast) :
    (∀ calls env, env < w.size →
      (∀ other < w.size,
        ((setup.evaluate calls env tree).after w).bindings other = w.bindings other) ∧
      ∃ h', h ≤ h' ∧ h'.Covers ((setup.evaluate calls env tree).after w) ∧
        ∀ v u, (setup.evaluate calls env tree).run w = .ok v u → h'.Holds v) ∧
    ∀ budget s, s.env < w.size → h.Holds s.output.array →
      w.Altered tree.Assigns s.env ((setup.execute budget tree s).after w) ∧
      (∃ h', h ≤ h' ∧ h'.Covers ((setup.execute budget tree s).after w) ∧
        ∀ t u, (setup.execute budget tree s).run w = .ok t u → h'.Holds t.output.array) ∧
      ∀ t u, (setup.execute budget tree s).run w = .ok t u →
        (t.env = s.env ↔ setup.declares budget tree s w = false) ∧
        (t.env ≠ s.env → w.size ≤ t.env ∧ t.env < u.size) := by
  have laws := Heap.keptThroughout keeps
  refine ⟨fun calls env there => ⟨fun other old => ?_, ?_⟩, fun budget s there output => ?_⟩
  · exact World.bindings_eq (setup.grows_evaluate calls env tree w) old
  · exact (laws.evaluate calls covers there trivial).after
  · have framed := setup.framed_execute budget tree s w there
    have kept : Heap.invariant.Keeps h (fun h' t => h'.Holds t.output.array)
        ((setup.execute budget tree s).run w) := laws.execute budget covers there output trivial
    refine ⟨?_, kept.after, fun t u ran => ?_⟩
    · unfold after
      generalize (setup.execute budget tree s).run w = x at framed ⊢
      cases framed <;> assumption
    · rw [ran] at framed
      cases framed with
      | ok altered there' env =>
        cases declared : setup.declares budget tree s w with
        | true =>
          rw [declared] at env
          have new : t.env ≠ s.env := fun same => Nat.not_le_of_lt there (same ▸ env)
          exact ⟨⟨fun same => absurd same new, nofun⟩, fun _ => ⟨env, there'⟩⟩
        | false =>
          rw [declared] at env
          exact ⟨⟨fun _ => rfl, fun _ => env⟩, fun new => absurd env new⟩

def packing : Setup := ⟨0, [("pack", .pack)]⟩

def shared : World where
  store := ⟨#[[(.ofString "pack", .builtin 0 (.native "pack" none 0)),
    (.ofString "xs", .array 1 [.boolean true])], [(.ofString "ys", .array 1 [.boolean true])]]⟩
  nextIdentity := 3
  trace := #[]

def sharedHeap : Heap where
  object?
    | 0 => some (.builtin 0 (.native "pack" none 0))
    | 1 => some (.array 1 [.boolean true])
    | 2 => some (.array 2 [])
    | _ => none

/-- Packs the array anew under its own name, and then declares another. -/
def repack : Ast :=
  let name (s : String) := Ast.identifier (.scalar (.string s))
  .block (.list [.assignment (name "xs") (.call (name "pack") (.list [name "xs"])),
    .variableDeclaration (name "zs") (name "xs")])

theorem sharedHeap_covers : sharedHeap.Covers shared := by
  refine ⟨fun env there => ?_, fun i later => ?_⟩
  · have listed : env = 0 ∨ env = 1 := by
      have : env < 2 := there
      omega
    rcases listed with rfl | rfl
    · simp [Invariant.Bound, shared, World.bindings, Store.bindings, Heap.invariant, Heap.Holds,
        Heap.HoldsAll, sharedHeap]
    · simp [Invariant.Bound, shared, World.bindings, Store.bindings, Heap.invariant, Heap.Holds,
        Heap.HoldsAll, sharedHeap]
  · obtain ⟨k, rfl⟩ := Nat.exists_eq_add_of_le' later
    rfl

theorem frame_repack :
    shared.Altered repack.Assigns 0
      ((packing.execute ⟨0, 0⟩ repack ⟨0, ⟨2, []⟩⟩).after shared) ∧
    (∃ h', sharedHeap ≤ h' ∧
      h'.Covers ((packing.execute ⟨0, 0⟩ repack ⟨0, ⟨2, []⟩⟩).after shared)) ∧
    ∃ t u, (packing.execute ⟨0, 0⟩ repack ⟨0, ⟨2, []⟩⟩).run shared = .ok t u ∧
      shared.size ≤ t.env := by
  have keeps : ∀ entry ∈ packing.natives, entry.2.KeepsObjects := by
    intro entry listed
    obtain rfl := List.mem_singleton.mp listed
    exact Native.keepsObjects_pack
  have output : sharedHeap.Holds (.array 2 []) := by simp [Heap.Holds, Heap.HoldsAll, sharedHeap]
  obtain ⟨altered, ⟨h', up, covers, -⟩, returned⟩ :=
    (evaluate_execute_frame packing keeps sharedHeap_covers repack).2 ⟨0, 0⟩ ⟨0, ⟨2, []⟩⟩
      (by decide) output
  exact ⟨altered, ⟨h', up, covers⟩, _, _, rfl, ((returned _ _ rfl).2 (by decide)).1⟩

end Setup

end DynamicScope
