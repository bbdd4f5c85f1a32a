import DynamicScope.Proofs.Simulation.Invariant
import DynamicScope.Proofs.Soundness.Kept

/-! What code and values lead to.
A tree leads to the names that occur in it, a function to those in its code, and a native function to
what it answers with that it was not given. From a tree and two environments that leads to the names
that executing the tree has to do with; where no native function brings anything of its own, they are
those in the tree and in the functions that such names are bound to. -/

namespace DynamicScope

/-- What code or a value may lead to: a name, by its key, or a native function, by its place. -/
inductive Reference
  | name (key : Scalar.Key)
  | native (index : Nat)

def Ast.Mentions (tree : Ast) (key : Scalar.Key) : Prop :=
  ∃ name : Scalar, tree.Contains (.identifier (.scalar name)) ∧ name.key = key

def Value.Cites (v : Value) (r : Reference) : Prop :=
  match v with
  | .builtin _ (.native _ _ index) => r = .native index
  | .function _ parameters body =>
    ∃ key, r = .name key ∧ (parameters.Mentions key ∨ body.Mentions key)
  | _ => False

def Value.RefersTo (v : Value) (r : Reference) : Prop := ∃ part, v.Contains part ∧ part.Cites r

/-- Whether a native function can answer a value that refers to something to which none of its
arguments refers. -/
def Native.Brings (native : Native) (r : Reference) : Prop :=
  ∃ next arguments value used, native.apply next arguments = .ok (value, used) ∧
    value.RefersTo r ∧ ∀ a ∈ arguments, ¬ a.RefersTo r

theorem Value.cites_of_refersTo {v : Value} {r : Reference} (elements : v.elements = [])
    (h : v.RefersTo r) : v.Cites r := by
  obtain ⟨part, contained, cited⟩ := h
  rcases Relation.ReflTransGen.cases_head contained with rfl | ⟨element, listed, _⟩
  · exact cited
  · rw [elements] at listed
    cases listed

theorem Value.refersTo_of_array {i : Nat} {items : List Value} {r : Reference}
    (h : (Value.array i items).RefersTo r) : ∃ v ∈ items, v.RefersTo r := by
  obtain ⟨part, contained, cited⟩ := h
  rcases Relation.ReflTransGen.cases_head contained with rfl | ⟨element, listed, rest⟩
  · cases cited
  · exact ⟨element, listed, part, rest, cited⟩

theorem Native.not_brings_plain {name : String} {arity : Option Nat}
    {answer : List Value → Except Failure Value} {r : Reference}
    (given : ∀ arguments value, answer arguments = .ok value → value.RefersTo r →
      ∃ a ∈ arguments, a.RefersTo r) : ¬ (plain name arity answer).Brings r := by
  rintro ⟨_, arguments, value, _, ran, refers, others⟩
  obtain ⟨v, answered, ran⟩ := bind_eq_ok.mp ran
  cases ran
  obtain ⟨a, listed, referred⟩ := given arguments value answered refers
  exact others a listed referred

theorem Native.not_brings {native : Native} (h : native ∈ [count, length, first, pack, fail])
    (r : Reference) : ¬ native.Brings r := by
  simp only [List.mem_cons, List.not_mem_nil, or_false] at h
  rcases h with rfl | rfl | rfl | rfl | rfl
  · refine not_brings_plain fun arguments value answered refers => ?_
    cases answered
    cases Value.cites_of_refersTo rfl refers
  · refine not_brings_plain fun arguments value answered refers => ?_
    split at answered <;> cases answered <;> cases Value.cites_of_refersTo rfl refers
  · refine not_brings_plain fun arguments value answered refers => ?_
    cases answered
    cases arguments with
    | nil => cases Value.cites_of_refersTo rfl refers
    | cons a _ => exact ⟨a, List.mem_cons_self, refers⟩
  · rintro ⟨_, arguments, _, _, ran, refers, others⟩
    cases ran
    obtain ⟨a, listed, referred⟩ := Value.refersTo_of_array refers
    exact others a listed referred
  · exact not_brings_plain fun _ _ => nofun

/-- What a tree has to do with in either of two environments: the names that occur in it, and what the
values refer to that such names are bound to, or what the native functions among them bring. -/
inductive Setup.Relevant (setup : Setup) (tree : Ast) (b b' : Bindings) : Reference → Prop
  | mentioned {key : Scalar.Key} (h : tree.Mentions key) : Relevant setup tree b b' (.name key)
  | bound {name : Name} {v : Value} {r : Reference} (h : Relevant setup tree b b' (.name name.key))
    (found : b.value? name = some v ∨ b'.value? name = some v) (refers : v.RefersTo r) :
    Relevant setup tree b b' r
  | brought {index : Nat} {entry : String × Native} {r : Reference}
    (h : Relevant setup tree b b' (.native index)) (found : setup.natives[index]? = some entry)
    (brings : entry.2.Brings r) : Relevant setup tree b b' r

/-- The names that occur in a tree, and those in functions that names among them are bound to in either
of two environments. -/
inductive Ast.Reaches (tree : Ast) (b b' : Bindings) : Scalar.Key → Prop
  | mentioned {key : Scalar.Key} (h : tree.Mentions key) : Reaches tree b b' key
  | bound {name : Name} {v : Value} {key : Scalar.Key} (h : Reaches tree b b' name.key)
    (found : b.value? name = some v ∨ b'.value? name = some v) (refers : v.RefersTo (.name key)) :
    Reaches tree b b' key

theorem Setup.relevant_name_iff {setup : Setup}
    (natives : ∀ entry ∈ setup.natives, ∀ r, ¬ entry.2.Brings r) {tree : Ast} {b b' : Bindings}
    {key : Scalar.Key} : setup.Relevant tree b b' (.name key) ↔ tree.Reaches b b' key := by
  constructor
  · intro h
    generalize same : Reference.name key = r at h
    induction h generalizing key with
    | mentioned h =>
      cases same
      exact .mentioned h
    | bound _ found refers ih =>
      subst same
      exact .bound (ih rfl) found refers
    | brought _ found brings =>
      exact absurd brings (natives _ (List.mem_of_getElem? found) _)
  · intro h
    induction h with
    | mentioned h => exact .mentioned h
    | bound _ found refers ih => exact .bound ih found refers

end DynamicScope
