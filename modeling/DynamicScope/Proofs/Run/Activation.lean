import DynamicScope.Proofs.Ast.Subtrees
import DynamicScope.Proofs.Loop.Iterates
import DynamicScope.Proofs.Origin.Declaration

/-! What runs inside what.
The execution of a statement runs the executions of the statements in it and the evaluation of its
expression, and an evaluation runs those that it starts. A chain of them is what stands on the stack at
one moment, so its length is how deep the recursion has come. -/

namespace DynamicScope

/-- The execution of a statement or the evaluation of an expression, by where it starts. -/
inductive Activation
  | execution (tree : Ast) (s : State) (w : World)
  | evaluation (x : Evaluation)

/-- Whether the first activation runs the second one itself. -/
inductive Setup.Activates (setup : Setup) (budget : Budget) : Activation → Activation → Prop
  /-- A block executes its statements, each after the ones before it. -/
  | item {items later : List Ast} {item : Ast} {s t : State} {w v : World}
    (before : (setup.executeAll budget items s).run w = .ok t v) :
    Activates setup budget (.execution (.block (.list (items ++ item :: later))) s w)
      (.execution item t v)
  /-- A loop evaluates its condition after some iterations. -/
  | check {test body : Ast} {n : Nat} {s t : State} {w v : World} (room : n < budget.iterations)
    (before : Iterates (setup.condition budget s.env test) (setup.execute budget body) n s w t v) :
    Activates setup budget (.execution (.whileStatement test body) s w)
      (.evaluation ⟨budget.calls, s.env, test, v⟩)
  /-- A loop executes its body after a true check. -/
  | repeated {test body : Ast} {n : Nat} {s t : State} {w v u : World} (room : n < budget.iterations)
    (before : Iterates (setup.condition budget s.env test) (setup.execute budget body) n s w t v)
    (checked : (setup.condition budget s.env test).run v = .ok true u) :
    Activates setup budget (.execution (.whileStatement test body) s w) (.execution body t u)
  | expression {tree : Ast} {s : State} {w : World} {x : Evaluation}
    (started : (Visit.statement tree s w).evaluation? budget.calls = some x) :
    Activates setup budget (.execution tree s w) (.evaluation x)
  | part {x y : Evaluation} (started : setup.Starts x y) :
    Activates setup budget (.evaluation x) (.evaluation y)

theorem Visit.calls_of_evaluation? {visit : Visit} {calls : Nat} {x : Evaluation}
    (started : visit.evaluation? calls = some x) : x.calls = calls := by
  cases visit with
  | condition test env w =>
    cases started
    rfl
  | statement tree s w => cases tree <;> cases started <;> rfl

namespace Ast

theorem size_block (statements : Ast) : (Ast.block statements).size = statements.size + 1 := rfl

theorem size_list_cons (item : Ast) (items : List Ast) :
    (Ast.list (item :: items)).size = item.size + (Ast.list items).size := by
  simp [size, subtrees, subtreesAll, Nat.add_assoc]

theorem size_whileStatement (test body : Ast) :
    (Ast.whileStatement test body).size = test.size + body.size + 1 := by
  simp [size, subtrees]

theorem size_functionDeclaration (id parameters body : Ast) :
    (Ast.functionDeclaration id parameters body).size =
      id.size + parameters.size + body.size + 1 := by
  simp [size, subtrees, Nat.add_assoc]

mutual

/-- The size of a statement without the bodies of the functions that it declares. -/
def outerSize : Ast → Nat
  | .functionDeclaration id parameters _ => id.size + parameters.size + 1
  | .whileStatement test body => test.size + body.outerSize + 1
  | .block statements => statements.outerSize + 1
  | .list items => outerSizeAll items + 1
  | tree => tree.size

def outerSizeAll : List Ast → Nat
  | [] => 0
  | item :: items => item.outerSize + outerSizeAll items

end

theorem outerSize_pos (tree : Ast) : 0 < tree.outerSize := by
  cases tree <;> exact Nat.succ_pos _

theorem outerSize_le_outerSizeAll {items : List Ast} {item : Ast} (listed : item ∈ items) :
    item.outerSize ≤ outerSizeAll items := by
  induction listed with
  | head => exact Nat.le_add_right _ _
  | tail _ _ ih => exact Nat.le_add_left_of_le ih

theorem outerSize_lt_block {items : List Ast} {item : Ast} (listed : item ∈ items) :
    item.outerSize < (Ast.block (.list items)).outerSize := by
  have inside := outerSize_le_outerSizeAll listed
  rw [outerSize, outerSize]
  omega

mutual

theorem outerSize_le_size (tree : Ast) : tree.outerSize ≤ tree.size := by
  cases tree with
  | functionDeclaration id parameters body =>
    rw [outerSize, size_functionDeclaration]
    omega
  | whileStatement test body =>
    have inside := outerSize_le_size body
    rw [outerSize, size_whileStatement]
    omega
  | block statements =>
    have inside := outerSize_le_size statements
    rw [outerSize, size_block]
    omega
  | list items =>
    exact outerSizeAll_lt_size items
  | _ => exact Nat.le_refl _

theorem outerSizeAll_lt_size (items : List Ast) : outerSizeAll items < (Ast.list items).size := by
  cases items with
  | nil => exact Nat.zero_lt_one
  | cons item items =>
    have head := outerSize_le_size item
    have tail := outerSizeAll_lt_size items
    rw [outerSizeAll, size_list_cons]
    omega

end

end Ast

theorem Visit.size_lt_of_evaluation? {tree : Ast} {s : State} {w : World} {x : Evaluation}
    {calls : Nat} (started : (Visit.statement tree s w).evaluation? calls = some x) :
    x.tree.size < tree.outerSize := by
  cases tree with
  | variableDeclaration id part | assignment id part =>
    cases started
    exact Ast.size_lt_of_mem_children (.tail _ (.head _))
  | printStatement part =>
    cases started
    exact Ast.size_lt_of_mem_children (.head _)
  | _ => cases started

namespace Setup

variable {setup : Setup} {budget : Budget} {id parameters body : Ast} {s t : State} {w v : World}

mutual

theorem size_add_outerSize_le (tree : Ast) {s : State} {w : World}
    (listed : .statement (.functionDeclaration id parameters body) t v ∈
      setup.visits budget tree s w) : body.size + tree.outerSize ≤ tree.size := by
  cases tree with
  | whileStatement test inner =>
    rw [visits] at listed
    rcases mem_repeatVisits listed with ⟨v', same⟩ | ⟨t', u, listed⟩
    · cases same
    · have inside := size_add_outerSize_le inner listed
      rw [Ast.outerSize, Ast.size_whileStatement]
      omega
  | block statements =>
    rw [visits] at listed
    have inside := size_add_outerSizeParts_le statements listed
    rw [Ast.outerSize, Ast.size_block]
    omega
  | functionDeclaration =>
    cases List.mem_singleton.mp listed
    rw [Ast.outerSize, Ast.size_functionDeclaration]
    omega
  | _ => cases List.mem_singleton.mp listed

theorem size_add_outerSizeParts_le (tree : Ast) {s : State} {w : World}
    (listed : .statement (.functionDeclaration id parameters body) t v ∈
      setup.partVisits budget tree s w) : body.size + tree.outerSize ≤ tree.size := by
  cases tree with
  | list items =>
    exact size_add_outerSizeAll_lt items listed
  | _ => cases listed

theorem size_add_outerSizeAll_lt (items : List Ast) {s : State} {w : World}
    (listed : .statement (.functionDeclaration id parameters body) t v ∈
      setup.allVisits budget items s w) :
    body.size + Ast.outerSizeAll items < (Ast.list items).size := by
  cases items with
  | nil => cases listed
  | cons item items =>
    have head := item.outerSize_le_size
    have tail := Ast.outerSizeAll_lt_size items
    rw [allVisits_cons] at listed
    rw [Ast.outerSizeAll, Ast.size_list_cons]
    rcases List.mem_append.mp listed with listed | listed
    · have inside := size_add_outerSize_le item listed
      omega
    · obtain ⟨t', v', -, listed⟩ := Machine.mem_following.mp listed
      have inside := size_add_outerSizeAll_lt items listed
      omega

end

theorem visits_of_evaluation? {tree : Ast} {s : State} {w : World} {x : Evaluation} {calls : Nat}
    (started : (Visit.statement tree s w).evaluation? calls = some x) :
    setup.visits budget tree s w = [.statement tree s w] := by
  cases tree <;> first | rfl | cases started

theorem visits_subset_of_before {items later : List Ast} {item : Ast}
    (before : (setup.executeAll budget items s).run w = .ok t v) :
    setup.visits budget item t v ⊆ setup.allVisits budget (items ++ item :: later) s w := by
  induction items generalizing s w with
  | nil =>
    cases before
    rw [List.nil_append, allVisits_cons]
    exact List.subset_append_left _ _
  | cons first items ih =>
    rw [executeAll] at before
    obtain ⟨t', v', ran, before⟩ := Machine.of_bind_ok before
    rw [List.cons_append, allVisits_cons, Machine.following_of_ok ran]
    exact List.Subset.trans (ih before) (List.subset_append_right _ _)

end Setup

end DynamicScope
