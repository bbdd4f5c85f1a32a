import DynamicScope.Proofs.Simulation.Invariant
import DynamicScope.Proofs.Soundness.Value

/-! The values of the language.
Integers, texts and nothing only enter a run from outside. What the operators and the library make
of the other values is never one of these, whatever the operator, and a comparison or a connective
makes nothing but booleans. -/

namespace DynamicScope

namespace Number

theorem apply_double {op : Arithmetic} {x y : Double} {n : Number}
    (h : op.apply (.double x) (.double y) = .ok n) : ∃ z, n = .double z := by
  cases op with
  | rem =>
    rw [Arithmetic.apply, rem_double] at h
    split at h
    · cases h
    · cases h
      exact ⟨_, rfl⟩
  | _ =>
    cases h
    exact ⟨_, rfl⟩

end Number

namespace Value

mutual

/-- Whether a value is one of the language, and so are all that it consists of. -/
def Genuine : Value → Prop
  | .number (.double _) | .boolean _ | .undefined | .builtin .. | .function .. => True
  | .array _ items => GenuineAll items
  | .number (.integer _) | .text _ | .nothing => False

def GenuineAll : List Value → Prop
  | [] => True
  | v :: vs => v.Genuine ∧ GenuineAll vs

end

theorem genuineAll_iff {vs : List Value} : GenuineAll vs ↔ ∀ v ∈ vs, v.Genuine := by
  induction vs with
  | nil => simp [GenuineAll]
  | cons v vs ih => rw [GenuineAll, ih, List.forall_mem_cons]

theorem Genuine.number {n : Number} (h : (Value.number n).Genuine) : ∃ x, n = .double x := by
  cases n with
  | double x => exact ⟨x, rfl⟩
  | integer k => exact h.elim

theorem numericOperands_eq_ok {symbol : String} {a b : Value} {m n : Number}
    (h : numericOperands symbol a b = .ok (m, n)) : a = .number m ∧ b = .number n := by
  unfold numericOperands at h
  split at h
  · cases h
    exact ⟨rfl, rfl⟩
  · cases h

theorem liftNumber_eq_ok {α : Type} {x : Except NumberError α} {a : α}
    (h : liftNumber x = .ok a) : x = .ok a := by
  cases x with
  | ok b =>
    cases h
    rfl
  | error e => cases h

theorem applyOperator_boolean {symbol : String} {op : BinaryOperator} {a b v : Value}
    (logical : ∀ arithmetic, op ≠ .arithmetic arithmetic)
    (h : applyOperator symbol a b op = .ok v) : ∃ truth, v = .boolean truth := by
  cases op with
  | arithmetic op => exact absurd rfl (logical op)
  | comparison op | equal | unequal =>
    rw [applyOperator] at h
    obtain ⟨result, -, h⟩ := bind_eq_ok.mp h
    cases h
    exact ⟨_, rfl⟩
  | both | either =>
    rw [applyOperator] at h
    obtain ⟨left, -, h⟩ := bind_eq_ok.mp h
    cases left with
    | true | false =>
      first
        | cases h; exact ⟨_, rfl⟩
        | obtain ⟨right, -, h⟩ := bind_eq_ok.mp h; cases h; exact ⟨_, rfl⟩

theorem applyOperator_genuine {symbol : String} {op : BinaryOperator} {a b v : Value}
    (left : a.Genuine) (right : b.Genuine) (h : applyOperator symbol a b op = .ok v) :
    v.Genuine := by
  cases op with
  | arithmetic op =>
    rw [applyOperator] at h
    obtain ⟨⟨m, n⟩, operands, rest⟩ := bind_eq_ok.mp h
    obtain ⟨rfl, rfl⟩ := numericOperands_eq_ok operands
    obtain ⟨x, rfl⟩ := left.number
    obtain ⟨y, rfl⟩ := right.number
    dsimp only at rest
    split at rest
    · cases rest
    · obtain ⟨result, applied, returned⟩ := bind_eq_ok.mp rest
      obtain ⟨z, rfl⟩ := Number.apply_double (liftNumber_eq_ok applied)
      cases returned
      trivial
  | _ =>
    obtain ⟨truth, rfl⟩ := applyOperator_boolean (by simp) h
    trivial

theorem binary_genuine {operator : Json} {a b v : Value} (left : a.Genuine) (right : b.Genuine)
    (h : binary operator a b = .ok v) : v.Genuine := by
  unfold binary at h
  split at h
  · split at h
    · exact applyOperator_genuine left right h
    · cases h
  · cases h
  · cases h

theorem binary_boolean {symbol : String} {op : BinaryOperator} {a b v : Value}
    (named : BinaryOperator.ofSymbol? symbol = some op)
    (logical : ∀ arithmetic, op ≠ .arithmetic arithmetic)
    (h : binary (.scalar (.string (.proper symbol))) a b = .ok v) :
    ∃ truth, v = .boolean truth := by
  dsimp only [binary] at h
  rw [named] at h
  exact applyOperator_boolean logical h

theorem unary_genuine {operator : Json} {operand v : Value} (held : operand.Genuine)
    (h : unary operator operand = .ok v) : v.Genuine := by
  unfold unary at h
  split at h
  · split at h
    · obtain ⟨x, rfl⟩ := held.number
      cases h
      trivial
    · cases h
  · obtain ⟨truth, -, h⟩ := bind_eq_ok.mp h
    cases h
    trivial
  · cases h

theorem unary_boolean {operand v : Value}
    (h : unary (.scalar (.string (.proper "!"))) operand = .ok v) :
    ∃ truth, v = .boolean truth := by
  obtain ⟨truth, -, h⟩ := bind_eq_ok.mp h
  cases h
  exact ⟨_, rfl⟩

theorem subscript_genuine {a b v : Value} (held : a.Genuine) (h : subscript a b = .ok v) :
    v.Genuine := by
  obtain ⟨i, items, rfl, listed | rfl⟩ := subscript_mem h
  · exact genuineAll_iff.mp held v listed
  · trivial

end Value

theorem MathFunction.apply_genuine {f : MathFunction} {arguments : List Value} {v : Value}
    (h : f.apply arguments = .ok v) : v.Genuine := by
  cases f with
  | sqrt | sin | cos | ln | hypot =>
    obtain ⟨_, -, h⟩ := bind_eq_ok.mp h
    obtain ⟨_, -, h⟩ := bind_eq_ok.mp h
    cases h
    trivial
  | exp =>
    obtain ⟨_, -, h⟩ := bind_eq_ok.mp h
    cases h
    trivial

theorem Bindings.present?_ne_undefined {b : Bindings} {name : Name} :
    b.present? name ≠ some .undefined := by
  intro found
  have present := Option.filter_eq_some_iff.mp found
  exact Bool.false_ne_true present.2

end DynamicScope
