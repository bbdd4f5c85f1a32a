import DynamicScope.Proofs.Origin.Run
import DynamicScope.Proofs.Run.Descent
import DynamicScope.Proofs.Simulation.ContentKept

/-! Functions come from declarations.
What a run visits stands in its program. So every function of the language that a run without native
functions calls is one whose declaration stands in the program and has been executed. -/

namespace DynamicScope

open Machine

def Visit.tree : Visit → Ast
  | .statement tree _ _ => tree
  | .condition test _ _ => test

theorem mem_repeatVisits {check : World → Visit} {test : Machine Bool}
    {body : State → Machine State} {inside : State → World → List Visit} {visit : Visit}
    {iterations : Nat} {s : State} {w : World}
    (listed : visit ∈ repeatVisits check test body inside iterations s w) :
    (∃ v, visit = check v) ∨ ∃ t u, visit ∈ inside t u := by
  induction iterations generalizing s w with
  | zero => cases listed
  | succ iterations ih =>
    rw [repeatVisits_succ] at listed
    rcases List.mem_cons.mp listed with rfl | listed
    · exact .inl ⟨w, rfl⟩
    obtain ⟨again, v, -, listed⟩ := mem_following.mp listed
    cases again with
    | false => cases listed
    | true =>
      rcases List.mem_append.mp listed with listed | listed
      · exact .inr ⟨s, v, listed⟩
      · obtain ⟨t, u, -, listed⟩ := mem_following.mp listed
        exact ih listed

namespace Setup

variable {setup : Setup} {budget : Budget} {program : Ast} {x : Evaluation}

mutual

theorem contains_of_mem_visits (tree : Ast) {s : State} {w : World} {visit : Visit}
    (listed : visit ∈ setup.visits budget tree s w) : tree.Contains visit.tree := by
  cases tree with
  | whileStatement test body =>
    rw [visits] at listed
    rcases mem_repeatVisits listed with ⟨v, rfl⟩ | ⟨t, u, listed⟩
    · exact .single (.head _)
    · exact .head (.tail _ (.head _)) (contains_of_mem_visits body listed)
  | block statements =>
    rw [visits] at listed
    exact .head (.head _) (contains_of_mem_partVisits statements listed)
  | _ =>
    obtain rfl := List.mem_singleton.mp listed
    exact .refl

theorem contains_of_mem_partVisits (tree : Ast) {s : State} {w : World} {visit : Visit}
    (listed : visit ∈ setup.partVisits budget tree s w) : tree.Contains visit.tree := by
  cases tree with
  | list items =>
    obtain ⟨item, inside, found⟩ := contains_of_mem_allVisits items listed
    exact .head inside found
  | _ => cases listed

theorem contains_of_mem_allVisits (items : List Ast) {s : State} {w : World} {visit : Visit}
    (listed : visit ∈ setup.allVisits budget items s w) :
    ∃ item ∈ items, item.Contains visit.tree := by
  cases items with
  | nil => cases listed
  | cons item items =>
    rw [allVisits_cons] at listed
    rcases List.mem_append.mp listed with listed | listed
    · exact ⟨item, .head _, contains_of_mem_visits item listed⟩
    · obtain ⟨t, v, -, listed⟩ := mem_following.mp listed
      obtain ⟨later, inside, found⟩ := contains_of_mem_allVisits items listed
      exact ⟨later, .tail _ inside, found⟩

end

theorem contains_of_mem_runVisits {visit : Visit} (listed : visit ∈ setup.runVisits budget program) :
    program.Contains visit.tree := by
  obtain ⟨body, block⟩ := exists_block listed
  rw [runVisits, block] at listed
  exact .head (Ast.mem_children_of_block? block) (contains_of_mem_visits body listed)

theorem declared_of_mem_objects {i : Nat} {parameters body : Ast}
    (listed : .function i parameters body ∈ setup.objects budget program) :
    ∃ id s w, .statement (.functionDeclaration id parameters body) s w ∈
      setup.runVisits budget program := by
  obtain ⟨happening, listed, made⟩ := List.mem_filterMap.mp listed
  unfold made? at made
  split at made
  · rw [run_arrayLiteral] at made
    split at made
    · rename_i ended
      split at ended <;> cases ended
      cases made
    · cases made
  · cases made
    exact ⟨_, _, _, visited_mem_history.mp listed⟩
  · cases made

theorem declared_of_calls (natives : setup.natives = []) (reached : setup.Reaches budget program x)
    {json : Json} {parameters body : Ast} (called : x.Calls json parameters body) :
    ∃ id s w, .statement (.functionDeclaration id parameters body) s w ∈
      setup.runVisits budget program := by
  obtain ⟨callee, args, i, -, -, found⟩ := called
  obtain ⟨key, -, bound⟩ := value?_of_lookup? found
  obtain ⟨entry, listed, same⟩ := Bindings.mem_of_value? bound
  have made := from_of_meets natives (.bound (.start reached) listed)
  rw [same] at made
  exact declared_of_mem_objects (made.mem ⟨i, rfl⟩)

end Setup

end DynamicScope
