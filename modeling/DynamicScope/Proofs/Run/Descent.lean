import DynamicScope.Proofs.Ast.Contains
import DynamicScope.Proofs.Run.Parts
import DynamicScope.Proofs.Simulation.Points

/-! What evaluations descend to.
An evaluation starts others inside its own tree, in its own environment, or enters the body of the
function that it calls. Only the latter leaves the tree, makes an environment and takes from the calls
that may be nested. -/

namespace DynamicScope

open Machine

namespace Evaluation

def Calls (x : Evaluation) (name : Json) (parameters body : Ast) : Prop :=
  ∃ callee args i, x.tree = .call callee args ∧ callee.name? = .ok name ∧
    (lookup? x.env name).run x.world = .ok (some (.function i parameters body)) x.world

/-- Whether the second evaluation is one inside the tree of the first. -/
structure Within (x y : Evaluation) : Prop where
  calls : y.calls = x.calls
  env : y.env = x.env
  grown : x.world ≤ y.world
  inside : ∃ child ∈ x.tree.children, child.Contains y.tree

end Evaluation

namespace Setup

variable {setup : Setup}

/-- Whether the second evaluation is that of the body of the function that the first one calls. -/
inductive Enters (setup : Setup) (x y : Evaluation) : Prop
  | body {name : Json} {parameters : Ast} {vs : List Value} {v : World}
    (calls : x.calls = y.calls + 1) (called : x.Calls name parameters y.tree) (grown : x.world ≤ v)
    (entered : (setup.entrance name parameters vs x.env).run v = .ok y.env y.world) : Enters setup x y

theorem within_item {calls : Nat} {env : EnvRef} {tree list : Ast} {items later : List Ast}
    {item : Ast} {vs : List Value} {w v : World} (listed : list ∈ tree.children)
    (same : list = .list (items ++ item :: later))
    (before : (setup.evaluateAll (setup.entering calls) env items).run w = .ok vs v) :
    Evaluation.Within ⟨calls, env, tree, w⟩ ⟨calls, env, item, v⟩ := by
  refine ⟨rfl, rfl, ?_, list, listed, .single ?_⟩
  · exact (setup.grows_evaluateAll (setup.grows_entering calls) env items).le_of_ok before
  · subst same
    exact List.mem_append_right items (.head later)

theorem Starts.within_or_enters {x y : Evaluation} (h : setup.Starts x y) :
    x.Within y ∨ setup.Enters x y := by
  have grown {calls : Nat} {env : EnvRef} {tree : Ast} {a : Value} {w v : World}
      (before : (setup.evaluate calls env tree).run w = .ok a v) : w ≤ v :=
    (setup.grows_evaluate calls env tree).le_of_ok before
  cases h with
  | operand | left | test | array => exact .inl ⟨rfl, rfl, le_refl _, _, .head _, .refl⟩
  | right before | index before =>
    exact .inl ⟨rfl, rfl, grown before, _, .tail _ (.head _), .refl⟩
  | @chosen _ _ _ _ _ _ b _ _ before _ =>
    refine .inl ⟨rfl, rfl, grown before, _, ?_, .refl⟩
    cases b with
    | true => exact .tail _ (.head _)
    | false => exact .tail _ (.tail _ (.head _))
  | element before => exact .inl (within_item (.head _) rfl before)
  | argument _ _ before => exact .inl (within_item (.tail _ (.head _)) rfl before)
  | @body calls env _ callee args _ _ name i vs w v u named found given entered =>
    refine .inr (.body rfl ⟨callee, args, i, rfl, named, found⟩ ?_ entered)
    exact (setup.grows_evaluateParts (setup.grows_entering _) env args).le_of_ok given

end Setup

end DynamicScope
