import Mathlib.Order.CompleteBooleanAlgebra
import Mathlib.Order.CompletePartialOrder
import DynamicScope.Proofs.Ast.Contains
import DynamicScope.Proofs.Simulation.Execute

/-! Properties of everything in trees and values.
What is asked of a tree is asked of all names, operators and parameter lists in it, and what is asked
of a value of all that it consists of, its code included. A tree of such content runs alike in two
runs if all such content is alike in them. -/

namespace DynamicScope

/-- What is to hold of the names, operators and parameter lists in code, and of values apart from
what they consist of. -/
structure Content where
  name : Json → Prop
  operator : Json → Prop
  parameters : Ast → Prop
  value : Value → Prop

namespace Content

variable (c : Content)

/-- What is to hold of a tree apart from its children. -/
def Root : Ast → Prop
  | .identifier name => c.name name
  | .unary operator _ => c.operator operator
  | .binary operator _ _ => c.operator operator
  | .functionDeclaration _ parameters _ => c.parameters parameters
  | _ => True

def Tree (tree : Ast) : Prop := ∀ part, tree.Contains part → c.Root part

def Code : Value → Prop
  | .function _ parameters body => c.parameters parameters ∧ c.Tree parameters ∧ c.Tree body
  | _ => True

def Value (v : DynamicScope.Value) : Prop := ∀ part, v.Contains part → c.value part ∧ c.Code part

variable {c}

theorem tree_iff {tree : Ast} : c.Tree tree ↔ c.Root tree ∧ ∀ child ∈ tree.children, c.Tree child :=
  Ast.forall_contains_iff

theorem Tree.of_children {tree : Ast} (root : c.Root tree) (h : tree.children.Forall c.Tree) :
    c.Tree tree :=
  tree_iff.mpr ⟨root, List.forall_iff_forall_mem.mp h⟩

theorem value_iff {v : DynamicScope.Value} :
    c.Value v ↔ (c.value v ∧ c.Code v) ∧ ∀ element ∈ v.elements, c.Value element :=
  Value.forall_contains_iff

theorem Value.here {v : DynamicScope.Value} (h : c.Value v) : c.value v := (value_iff.mp h).1.1

theorem value_of_isPlain {v : DynamicScope.Value} (plain : v.isPlain = true) (h : c.value v) :
    c.Value v := by
  refine value_iff.mpr ⟨⟨h, ?_⟩, ?_⟩
  · cases v <;> trivial
  · simp [Value.elements_of_isPlain plain]

def any : Content := ⟨fun _ => True, fun _ => True, fun _ => True, fun _ => True⟩

theorem any_tree (tree : Ast) : any.Tree tree := by
  intro part _
  cases part <;> trivial

theorem any_value (v : DynamicScope.Value) : any.Value v := by
  intro part _
  refine ⟨trivial, ?_⟩
  cases part with
  | function i parameters body => exact ⟨trivial, any_tree parameters, any_tree body⟩
  | _ => trivial

section Suits

variable {Stage : Type} {r : Likeness Stage}

/-- Whether everything without an identity is like itself if its content is as it is to be. -/
structure Suits (c : Content) (r : Likeness Stage) : Prop where
  failure (e : Failure) : r.failure e e
  operator {o : Json} : c.operator o → r.operator o o
  name {n : Json} : c.name n → r.name n n
  tree {t : Ast} : c.Tree t → r.tree t t
  double (κ : Stage) (x : Double) : r.value κ (.double x) (.double x)

variable (suits : c.Suits r)

include suits

theorem name_same {related : Json → Json → Prop} {id : Ast}
    (h : ∀ name, id.name? = .ok name → related name name) :
    Alike related r.failure id.name? id.name? := by
  cases named : id.name? with
  | ok name => exact .ok (h name named)
  | error e => exact .error (suits.failure e)

theorem named_same {id : Ast} (h : c.Tree id) : Alike r.name r.failure id.name? id.name? :=
  name_same suits fun name named => by
    obtain rfl := Ast.eq_identifier_of_name? named
    exact suits.name (tree_iff.mp h).1

theorem parts_same {related : Ast → Ast → Prop} {tree : Ast} (unexpected : String → Failure)
    (h : ∀ items, tree = .list items → ∀ item ∈ items, related item item) :
    r.Parts related unexpected tree tree := by
  by_cases listed : ∃ items, tree = .list items
  · obtain ⟨items, rfl⟩ := listed
    exact .list (List.forall₂_same.mpr (h items rfl))
  · have other : ∀ items, tree ≠ .list items := fun items same => listed ⟨items, same⟩
    exact .other other other (.refl (fun _ => trivial) suits.failure _)

theorem items_same {tree : Ast} (unexpected : String → Failure) (h : c.Tree tree) :
    r.Parts r.tree unexpected tree tree := by
  refine parts_same suits unexpected ?_
  rintro items rfl item listed
  exact suits.tree ((tree_iff.mp h).2 item listed)

theorem expression_same {tree : Ast} (h : c.Tree tree) : r.Expression tree tree := by
  obtain ⟨root, children⟩ := tree_iff.mp h
  have part {child : Ast} (listed : child ∈ tree.children) : r.tree child child :=
    suits.tree (children child listed)
  cases tree with
  | numeral value => exact .numeral fun κ => .refl (suits.double κ) suits.failure _
  | booleanLiteral b => exact .booleanLiteral b
  | identifier name => exact .identifier (suits.name root)
  | unary operator operand => exact .unary (suits.operator root) (part (.head _))
  | binary operator left right =>
    exact .binary (suits.operator root) (part (.head _)) (part (.tail _ (.head _)))
  | conditional test first second =>
    exact .conditional (part (.head _)) (part (.tail _ (.head _)))
      (part (.tail _ (.tail _ (.head _))))
  | arrayLiteral elements => exact .arrayLiteral (items_same suits _ (children _ (.head _)))
  | subscript array index => exact .subscript (part (.head _)) (part (.tail _ (.head _)))
  | call callee args =>
    exact .call (named_same suits (children _ (.head _)))
      (items_same suits _ (children _ (.tail _ (.head _))))
  | _ => exact .other rfl rfl (suits.failure _)

theorem function_same {κ : Stage} (i i' : Nat) {parameters body : Ast}
    (inParameters : c.Tree parameters) (inBody : c.Tree body) :
    r.Called κ (.function i parameters body) (.function i' parameters body) := by
  refine .function (.refl (fun _ => rfl) suits.failure _) ?_ (suits.tree inBody)
  cases read : parameters.parameterNames with
  | error e => exact .error (suits.failure e)
  | ok names =>
    refine .ok (List.forall₂_same.mpr fun name listed => suits.name ?_)
    have identifier := (tree_iff.mp inParameters).2 _ (Ast.mem_of_parameterNames read listed)
    exact (tree_iff.mp identifier).1

omit suits

theorem statement_same [LE Stage] {d : Conduct Stage} (suits : c.Suits d.toLikeness)
    (made : ∀ κ n n' parameters body, c.Value (.function n parameters body) → d.next κ n n' →
      ∃ κ', κ ≤ κ' ∧ d.next κ' (n + 1) (n' + 1) ∧
        d.value κ' (.function n parameters body) (.function n' parameters body))
    (function : ∀ i parameters body, c.value (.function i parameters body)) {tree : Ast}
    (h : c.Tree tree)
    (assigned : ∀ id part name, tree = .assignment id part → id.name? = .ok name →
      d.target name name)
    (repeated : ∀ test body, tree = .whileStatement test body → d.statement body body)
    (listed : ∀ items, tree = .block (.list items) → ∀ item ∈ items, d.statement item item) :
    d.Statement tree tree := by
  obtain ⟨root, children⟩ := tree_iff.mp h
  cases tree with
  | variableDeclaration id part =>
    exact .variableDeclaration (named_same suits (children _ (.head _)))
      (suits.tree (children _ (.tail _ (.head _))))
  | functionDeclaration id parameters body =>
    have code : c.parameters parameters ∧ c.Tree parameters ∧ c.Tree body :=
      ⟨root, children _ (.tail _ (.head _)), children _ (.tail _ (.tail _ (.head _)))⟩
    refine .functionDeclaration (named_same suits (children _ (.head _))) fun κ n n' next => ?_
    have held : c.Value (.function n parameters body) :=
      Value.forall_contains_of_elements rfl ⟨function n parameters body, code⟩
    exact made κ n n' parameters body held next
  | assignment id part =>
    exact .assignment (name_same suits fun name named => assigned id part name rfl named)
      (suits.tree (children _ (.tail _ (.head _))))
  | printStatement part => exact .printStatement (suits.tree (children _ (.head _)))
  | whileStatement test body =>
    exact .whileStatement (suits.tree (children _ (.head _))) (repeated test body rfl)
  | block statements =>
    exact .block (parts_same suits _ fun items same => listed items (same ▸ rfl))
  | _ => exact .other rfl rfl (suits.failure _)

end Suits

end Content

namespace Likeness

variable {Stage : Type} {r : Likeness Stage}

structure Reflexive (r : Likeness Stage) : Prop where
  failure (e : Failure) : r.failure e e
  operator (o : Json) : r.operator o o
  name (n : Json) : r.name n n
  tree (t : Ast) : r.tree t t
  double (κ : Stage) (x : Double) : r.value κ (.double x) (.double x)

namespace Reflexive

variable (refl : r.Reflexive)

include refl

theorem suits : Content.any.Suits r :=
  ⟨refl.failure, fun _ => refl.operator _, fun _ => refl.name _, fun _ => refl.tree _, refl.double⟩

theorem parts {related : Ast → Ast → Prop} {unexpected : String → Failure}
    (trees : ∀ t, related t t) (tree : Ast) : r.Parts related unexpected tree tree :=
  Content.parts_same refl.suits unexpected fun _ _ item _ => trees item

theorem expression (tree : Ast) : r.Expression tree tree :=
  Content.expression_same refl.suits (Content.any_tree tree)

theorem function {κ : Stage} (i i' : Nat) (parameters body : Ast) :
    r.Called κ (.function i parameters body) (.function i' parameters body) :=
  Content.function_same refl.suits i i' (Content.any_tree parameters) (Content.any_tree body)

end Reflexive

end Likeness

end DynamicScope
