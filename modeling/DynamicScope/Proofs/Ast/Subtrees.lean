import DynamicScope.Proofs.Ast.Contains

/-! The trees that stand in a tree.
They can be listed, from the root on, so that what is said of everything in a tree can be decided.
Their number is the size of the tree. -/

namespace DynamicScope.Ast

mutual

def subtrees (tree : Ast) : List Ast :=
  tree :: match tree with
    | .list items => subtreesAll items
    | .program a | .block a | .printStatement a | .unary _ a | .arrayLiteral a => a.subtrees
    | .variableDeclaration a b | .assignment a b | .whileStatement a b | .binary _ a b
    | .subscript a b | .call a b => a.subtrees ++ b.subtrees
    | .functionDeclaration a b c | .conditional a b c => a.subtrees ++ (b.subtrees ++ c.subtrees)
    | .scalar _ | .numeral _ | .booleanLiteral _ | .identifier _ => []

def subtreesAll : List Ast → List Ast
  | [] => []
  | item :: items => item.subtrees ++ subtreesAll items

end

def size (tree : Ast) : Nat := tree.subtrees.length

theorem subtreesAll_eq (items : List Ast) : subtreesAll items = items.flatMap subtrees := by
  induction items with
  | nil => rfl
  | cons item items ih => rw [subtreesAll, ih, List.flatMap_cons]

theorem subtrees_eq (tree : Ast) : tree.subtrees = tree :: tree.children.flatMap subtrees := by
  cases tree <;> simp [subtrees, subtreesAll_eq, children, node?]

theorem size_pos (tree : Ast) : 0 < tree.size := by
  rw [size, subtrees_eq]
  exact Nat.succ_pos _

theorem size_lt_of_mem_children {tree part : Ast} (h : part ∈ tree.children) :
    part.size < tree.size := by
  obtain ⟨before, after, same⟩ := List.append_of_mem h
  rw [size, size, subtrees_eq tree, same, List.flatMap_append, List.flatMap_cons]
  simp only [List.length_cons, List.length_append]
  omega

theorem size_le_of_contains {tree part : Ast} (h : tree.Contains part) : part.size ≤ tree.size := by
  induction h with
  | refl => exact Nat.le_refl _
  | tail _ last ih => exact Nat.le_trans (Nat.le_of_lt (size_lt_of_mem_children last)) ih

theorem mem_subtrees {tree part : Ast} : part ∈ tree.subtrees ↔ tree.Contains part := by
  induction hn : tree.size using Nat.strongRecOn generalizing tree with
  | ind n ih =>
    subst hn
    rw [subtrees_eq, List.mem_cons, List.mem_flatMap]
    constructor
    · rintro (rfl | ⟨child, listed, inside⟩)
      · exact .refl
      · exact .head listed ((ih _ (size_lt_of_mem_children listed) rfl).mp inside)
    · intro h
      rcases Relation.ReflTransGen.cases_head h with rfl | ⟨child, listed, rest⟩
      · exact .inl rfl
      · exact .inr ⟨child, listed, (ih _ (size_lt_of_mem_children listed) rfl).mpr rest⟩

end DynamicScope.Ast
