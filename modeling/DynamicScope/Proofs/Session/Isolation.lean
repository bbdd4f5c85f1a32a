import DynamicScope.Proofs.Simulation.View

/-! A run is apart from the world that it starts in.
The definition of a run has it start in the empty world. In any other one, with whatever environments
and identities other runs and steps have left there, it comes to the same except for identities, and
it changes nothing that it finds. -/

namespace DynamicScope

open Machine

def View.whole (ρ : Nat → Nat) : View where
  content := .any
  rename := ρ
  seen _ o o' := o.map (Value.rename ρ) = o'
  assigned _ := True

theorem Content.laws_any (setup : Setup) : Content.any.Laws setup := by
  constructor <;> intros <;> first | trivial | exact any_value _

theorem View.laws_whole {ρ : Nat → Nat} (inj : ∀ i j, ρ i = ρ j → i = j) {setup : Setup}
    (uniform : ∀ entry ∈ setup.natives, entry.2.Uniform) : (View.whole ρ).Laws setup setup where
  content := Content.laws_any setup
  inj := inj
  level := rfl
  answer _ next := Renames.answer_rename uniform next
  bound _ := rfl
  present := by
    rintro _ o _ _ rfl
    exact Value.present_related (fun h => ((Value.resembles_rename inj).form h.1).isPresent_eq)
      (Value.map_related fun v _ => ⟨rfl, Content.any_value v⟩)
  binds := by
    rintro _ o _ _ _ rfl
    exact Option.isSome_map.symm

namespace Setup

variable {setup : Setup}

theorem entryBindings_rename {ρ : Nat → Nat} {w : World}
    (moved : Renames ρ setup.natives.length w.nextIdentity)
    (fixed : ∀ i < setup.natives.length, ρ i = i) :
    setup.firstBindings.map (fun entry => (entry.1, entry.2.rename ρ)) = setup.entryBindings w := by
  rw [firstBindings, entryBindings, ← Renames.insertAll_map, Renames.mathBindings_map moved,
    Renames.nativeBindings_map fixed]

theorem runIn_eq (uniform : ∀ entry ∈ setup.natives, entry.2.Uniform) {w : World}
    (counted : setup.natives.length ≤ w.nextIdentity) (budget : Budget) (program : Ast) :
    ∃ ρ : Nat → Nat, (∀ i j, ρ i = ρ j → i = j) ∧ (∀ i < setup.natives.length, ρ i = i) ∧
      setup.runIn budget program w =
        ⟨(setup.run budget program).result.map (List.map (Value.rename ρ)),
          (setup.run budget program).trace⟩ := by
  obtain ⟨ρ, moved, fixed⟩ := Renames.exists_moved counted
  refine ⟨ρ, moved.inj, fixed, ?_⟩
  have entered : (View.whole ρ).conduct.Entered () setup setup setup.startWorld w := by
    refine ⟨fun name => ?_, moved.add (MathFunction.all.length + 1), rfl, ?_⟩
    · change _ = _
      rw [← entryBindings_rename moved fixed, Renames.value?_map]
      rfl
    · change (Value.array (setup.natives.length + _) []).rename ρ = .array (w.nextIdentity + _) []
      rw [Value.rename_array, moved.fresh]
      rfl
  exact View.run_renamed (View.laws_whole moved.inj uniform) entered budget
    fun body _ => ⟨Content.any_tree body, fun _ _ => trivial⟩

theorem grows_runProgram (budget : Budget) (program : Ast) :
    Grows (setup.runProgram budget program) := by
  intro w
  cases block : program.block? with
  | error e =>
    rw [after, run_runProgram_of_no_block _ block]
    exact w.le_trace _
  | ok body =>
    have old : w ≤ setup.entryWorld w := by
      have entered := w.le_new (setup.entryBindings w)
      exact ⟨entered.1, entered.2.1, Nat.le_add_right _ (MathFunction.all.length + 1)⟩
    have there : (entryState w).env < (setup.entryWorld w).size :=
      Nat.lt_of_lt_of_eq (Nat.lt_succ_self _) (Store.size_new _ _).symm
    have framed := setup.framed_execute budget body (entryState w) (setup.entryWorld w) there
    rw [after, run_runProgram_of_block _ block]
    generalize (setup.execute budget body (entryState w)).run (setup.entryWorld w) = x at framed ⊢
    cases framed with
    | error altered => exact altered.le_of_later old (Nat.le_refl _)
    | ok altered _ _ =>
      exact le_trans (altered.le_of_later old (Nat.le_refl _)) (World.le_trace _ _)

end Setup

end DynamicScope
