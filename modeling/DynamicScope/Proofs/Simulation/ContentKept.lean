import DynamicScope.Proofs.Run.Outcome
import DynamicScope.Proofs.Simulation.Invariant

/-! Content that runs keep.
A run evaluates no code but that of its program and of the functions in its values. So what holds of
all names, operators and parameter lists there, and of all values in arrays, holds of them at every
point of the run, provided that operators and native functions keep it. -/

namespace DynamicScope

theorem Ast.mem_children_of_block? {program body : Ast} (found : program.block? = .ok body) :
    body ∈ program.children := by
  unfold Ast.block? at found
  split at found
  · cases found
    exact .head _
  · cases found
    exact .tail _ (.head _)
  · cases found

namespace Content

variable (c : Content)

def invariant : Invariant Unit where
  failure _ := True
  operator := c.operator
  name := c.name
  tree := c.Tree
  value _ := c.Value
  next _ _ := True

variable {c}

theorem Tree.block {program body : Ast} (h : c.Tree program) (found : program.block? = .ok body) :
    c.Tree body := (tree_iff.mp h).2 body (Ast.mem_children_of_block? found)

/-- What is made of values: every value without elements and code is as it is to be, as are arrays
and functions of what is. -/
structure Laws (c : Content) (setup : Setup) : Prop where
  double (x : Double) : c.value (.double x)
  boolean (b : Bool) : c.value (.boolean b)
  undefined : c.value .undefined
  array (i : Nat) (items : List DynamicScope.Value) : c.value (.array i items)
  function (i : Nat) (parameters body : Ast) : c.value (.function i parameters body)
  unary {operator : Json} {v result : DynamicScope.Value} (h : c.Value v) :
    Value.unary operator v = .ok result → c.value result
  binary {operator : Json} {v v' result : DynamicScope.Value} (left : c.Value v)
    (right : c.Value v') : Value.binary operator v v' = .ok result → c.value result
  library {f : MathFunction} {vs : List DynamicScope.Value} {result : DynamicScope.Value} :
    f.apply vs = .ok result → c.value result
  native {i n : Nat} {name : String} {arity : Option Nat} {index : Nat} {entry : String × Native}
    {vs : List DynamicScope.Value} {answer : DynamicScope.Value × Nat} :
    c.value (.builtin i (.native name arity index)) → setup.natives[index]? = some entry →
      (∀ v ∈ vs, c.Value v) → entry.2.apply n vs = .ok answer → c.Value answer.1

theorem yields {α : Type} {P : α → Prop} {x : Except Failure α} (h : ∀ a, x = .ok a → P a) :
    Yields P c.invariant.failure x := by
  cases x with
  | ok a => exact .ok (h a rfl)
  | error e => exact .error trivial

section Kept

variable {setup : Setup} (laws : c.Laws setup)

include laws

theorem suits : c.Suits c.invariant.likeness :=
  ⟨fun _ => ⟨rfl, trivial⟩, fun h => ⟨rfl, h⟩, fun h => ⟨rfl, h⟩, fun h => ⟨rfl, h⟩,
    fun _ x => ⟨rfl, value_of_isPlain rfl (laws.double x)⟩⟩

theorem kept : c.invariant.Kept setup where
  value_mono _ h := h
  expression := expression_same (suits laws)
  key _ := yields fun _ _ => trivial
  undeclared _ := trivial
  arity _ _ _ := trivial
  exhausted := trivial
  boolean _ b := value_of_isPlain rfl (laws.boolean b)
  isTrue _ := yields fun _ _ => trivial
  unary _ h := yields fun _ ran => value_of_isPlain (Value.unary_isPlain ran) (laws.unary h ran)
  binary _ left right :=
    yields fun _ ran => value_of_isPlain (Value.binary_isPlain ran) (laws.binary left right ran)
  subscript := by
    intro _ a b held _
    refine yields fun v ran => ?_
    obtain ⟨i, items, rfl, listed | rfl⟩ := Value.subscript_mem ran
    · exact (value_iff.mp held).2 v listed
    · exact Value.forall_contains_of_elements rfl ⟨laws.undefined, trivial⟩
  array := by
    intro κ n vs _ held
    exact ⟨κ, le_refl κ, trivial, value_iff.mpr ⟨⟨laws.array n vs, trivial⟩, held⟩⟩
  called := by
    intro _ v h
    cases v with
    | builtin i f => exact .builtin i i f f
    | function i parameters body =>
      obtain ⟨-, inParameters, inBody⟩ := (value_iff.mp h).1.2
      exact function_same (suits laws) i i inParameters inBody
    | _ => exact .other nofun nofun fun _ _ same => ⟨by rw [same.1], trivial⟩
  answer := by
    intro κ i n f vs h _ held
    refine yields fun a ran => ⟨κ, le_refl κ, trivial, ?_⟩
    cases f with
    | math f =>
      obtain ⟨v, applied, ran⟩ := bind_eq_ok.mp ran
      cases ran
      exact value_of_isPlain (MathFunction.apply_isPlain applied) (laws.library applied)
    | native name arity index =>
      rw [Setup.answer] at ran
      cases found : setup.natives[index]? with
      | none =>
        rw [found] at ran
        cases ran
        exact Value.forall_contains_of_elements rfl ⟨laws.undefined, trivial⟩
      | some entry =>
        rw [found] at ran
        exact laws.native h.here found held ran
  recorded _ := yields fun _ _ => trivial

theorem keptThroughout : c.invariant.KeptThroughout c.Tree setup where
  toKept := kept laws
  statement := by
    intro tree h
    have children := (tree_iff.mp h).2
    refine statement_same (d := c.invariant.conduct c.Tree) (suits laws) ?_ laws.function h ?_ ?_ ?_
    · rintro κ n _ parameters body held ⟨rfl, -⟩
      exact ⟨κ, le_refl κ, ⟨rfl, trivial⟩, rfl, held⟩
    · rintro id part name rfl named
      obtain rfl := Ast.eq_identifier_of_name? named
      exact ⟨rfl, (tree_iff.mp (children _ (.head _))).1⟩
    · rintro test body rfl
      exact ⟨rfl, children _ (.tail _ (.head _))⟩
    · rintro items rfl item listed
      exact ⟨rfl, (tree_iff.mp (children _ (.head _))).2 item listed⟩
  unassigned _ := trivial
  items h := (value_iff.mp h).2

theorem bound_first (library : ∀ i f, c.value (.builtin i (.math f)))
    (natives : ∀ i < setup.natives.length, ∀ name arity,
      c.value (.builtin i (.native name arity i))) :
    c.invariant.Bound () setup.firstBindings := by
  have builtin {i : Nat} {f : Builtin} (h : c.value (.builtin i f)) : c.Value (.builtin i f) :=
    Value.forall_contains_of_elements rfl ⟨h, trivial⟩
  refine Invariant.Bound.insertAll (fun entry listed => ?_) fun entry listed => ?_
  · rcases List.mem_cons.mp listed with rfl | listed
    · exact value_of_isPlain rfl (laws.double .pi)
    · obtain ⟨⟨f, i⟩, -, rfl⟩ := List.mem_map.mp listed
      exact builtin (library _ f)
  · obtain ⟨⟨⟨name, native⟩, i⟩, there, rfl⟩ := List.mem_map.mp listed
    exact builtin (natives i (List.snd_lt_of_mem_zipIdx there) native.name native.arity)

end Kept

end Content

end DynamicScope
