import Mathlib.Logic.Relation
import DynamicScope.Proofs.Ast.Parts
import DynamicScope.Value.Display

/-! What stands somewhere in a tree or in a value.
A tree contains itself and what its children contain, an array itself and what its elements contain.
What is said of everything in a tree or a value is said of it by itself and of everything in each of
its parts. -/

namespace DynamicScope

theorem forall_reflTransGen_iff {α : Type} {r : α → α → Prop} {P : α → Prop} {a : α} :
    (∀ b, Relation.ReflTransGen r a b → P b) ↔
      P a ∧ ∀ c, r a c → ∀ b, Relation.ReflTransGen r c b → P b := by
  constructor
  · exact fun h => ⟨h a .refl, fun c next b path => h b (.head next path)⟩
  · rintro ⟨here, later⟩ b path
    rcases Relation.ReflTransGen.cases_head path with rfl | ⟨c, next, rest⟩
    · exact here
    · exact later c next b rest

theorem exists_of_mem_mapM {ε α β : Type} {f : α → Except ε β} {items : List α} {answers : List β}
    {b : β} (h : items.mapM f = .ok answers) (listed : b ∈ answers) : ∃ a ∈ items, f a = .ok b := by
  induction items generalizing answers with
  | nil =>
    cases h
    cases listed
  | cons item items ih =>
    rw [List.mapM_cons] at h
    obtain ⟨first, found, h⟩ := bind_eq_ok.mp h
    obtain ⟨rest, others, h⟩ := bind_eq_ok.mp h
    cases h
    rcases List.mem_cons.mp listed with rfl | later
    · exact ⟨item, .head _, found⟩
    · obtain ⟨a, inside, same⟩ := ih others later
      exact ⟨a, .tail _ inside, same⟩

namespace Ast

/-- The items of a list, or the trees that the fields of a node hold. -/
def children : Ast → List Ast
  | .list items => items
  | tree => (tree.node?.elim [] Prod.snd).filterMap fun
    | (_, .child part) => some part
    | _ => none

/-- Whether the second tree stands somewhere in the first one, or is it. -/
def Contains : Ast → Ast → Prop := Relation.ReflTransGen fun tree part => part ∈ tree.children

theorem forall_contains_iff {P : Ast → Prop} {tree : Ast} :
    (∀ part, tree.Contains part → P part) ↔
      P tree ∧ ∀ child ∈ tree.children, ∀ part, child.Contains part → P part :=
  forall_reflTransGen_iff

theorem eq_identifier_of_name? {id : Ast} {name : Json} (h : id.name? = .ok name) :
    id = .identifier name := by
  cases id <;> cases h
  rfl

theorem mem_of_mapM_name? {items : List Ast} {names : List Json} {name : Json}
    (h : items.mapM name? = .ok names) (listed : name ∈ names) : .identifier name ∈ items := by
  obtain ⟨item, inside, named⟩ := exists_of_mem_mapM h listed
  exact eq_identifier_of_name? named ▸ inside

theorem mem_of_parameterNames {parameters : Ast} {names : List Json} {name : Json}
    (h : parameters.parameterNames = .ok names) (listed : name ∈ names) :
    .identifier name ∈ parameters.children := by
  obtain ⟨items, read, h⟩ := bind_eq_ok.mp h
  have found := mem_of_mapM_name? h listed
  unfold items? at read
  split at read
  · cases read
    exact found
  · cases read
    obtain ⟨code, -, same⟩ := List.mem_map.mp found
    cases same
  · cases read

end Ast

namespace Value

def elements : Value → List Value
  | .array _ items => items
  | _ => []

/-- Whether the second value is the first one, or stands somewhere in it. -/
def Contains : Value → Value → Prop := Relation.ReflTransGen fun v part => part ∈ v.elements

variable {P : Value → Prop} {v : Value}

theorem forall_contains_iff : (∀ part, v.Contains part → P part) ↔
    P v ∧ ∀ element ∈ v.elements, ∀ part, element.Contains part → P part :=
  forall_reflTransGen_iff

theorem forall_contains_of_elements (h : v.elements = []) (here : P v) :
    ∀ part, v.Contains part → P part :=
  forall_contains_iff.mpr ⟨here, by simp [h]⟩

theorem elements_of_isPlain (h : v.isPlain = true) : v.elements = [] := by
  cases v <;> first | rfl | cases h

end Value

end DynamicScope
