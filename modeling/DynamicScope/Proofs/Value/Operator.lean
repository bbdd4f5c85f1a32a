import DynamicScope.Library.Math
import DynamicScope.Value.Operator

/-! What operators and library functions answer.
An operator answers a number or a boolean, a library function a double, and a subscript an element
of the array or the undefined value. None of them makes an array or a function. -/

namespace DynamicScope

theorem bind_eq_ok {ε α β : Type} {x : Except ε α} {f : α → Except ε β} {b : β} :
    (x >>= f) = .ok b ↔ ∃ a, x = .ok a ∧ f a = .ok b := by
  cases x with
  | error e => exact ⟨nofun, fun ⟨a, same, _⟩ => nomatch same⟩
  | ok a => exact ⟨fun h => ⟨a, rfl, h⟩, fun ⟨a', same, h⟩ => Except.ok.inj same ▸ h⟩

namespace Value

def isPlain : Value → Bool
  | .number _ | .boolean _ => true
  | _ => false

theorem applyOperator_isPlain {symbol : String} {a b v : Value} {op : BinaryOperator}
    (h : applyOperator symbol a b op = .ok v) : v.isPlain = true := by
  cases op with
  | arithmetic op =>
    rw [applyOperator] at h
    obtain ⟨⟨m, n⟩, -, h⟩ := bind_eq_ok.mp h
    dsimp only at h
    split at h
    · cases h
    · obtain ⟨result, -, h⟩ := bind_eq_ok.mp h
      cases h
      rfl
  | comparison op | equal | unequal =>
    rw [applyOperator] at h
    obtain ⟨result, -, h⟩ := bind_eq_ok.mp h
    cases h
    rfl
  | both | either =>
    rw [applyOperator] at h
    obtain ⟨left, -, h⟩ := bind_eq_ok.mp h
    cases left with
    | true | false =>
      first
        | cases h; rfl
        | obtain ⟨right, -, h⟩ := bind_eq_ok.mp h; cases h; rfl

theorem binary_isPlain {operator : Json} {a b v : Value} (h : binary operator a b = .ok v) :
    v.isPlain = true := by
  unfold binary at h
  split at h
  · split at h
    · exact applyOperator_isPlain h
    · cases h
  · cases h
  · cases h

theorem unary_isPlain {operator : Json} {operand v : Value} (h : unary operator operand = .ok v) :
    v.isPlain = true := by
  unfold unary at h
  split at h
  · split at h
    · cases h
      rfl
    · cases h
  · obtain ⟨b, -, h⟩ := bind_eq_ok.mp h
    cases h
    rfl
  · cases h

theorem element_mem (items : List Value) (index : Number) :
    element items index ∈ items ∨ element items index = .undefined := by
  unfold element
  split
  · rename_i k _
    by_cases inside : k < items.length
    · exact .inl (by simp [List.getD_eq_getElem?_getD, inside])
    · exact .inr (by simp [List.getD_eq_getElem?_getD, Nat.le_of_not_lt inside])
  · exact .inr rfl

theorem subscript_mem {a b v : Value} (h : subscript a b = .ok v) :
    ∃ i items, a = .array i items ∧ (v ∈ items ∨ v = .undefined) := by
  unfold subscript at h
  split at h
  · cases h
    exact ⟨_, _, rfl, element_mem _ _⟩
  · cases h

end Value

theorem MathFunction.apply_isPlain {f : MathFunction} {arguments : List Value} {v : Value}
    (h : f.apply arguments = .ok v) : v.isPlain = true := by
  cases f with
  | sqrt | sin | cos | ln =>
    obtain ⟨n, -, h⟩ := bind_eq_ok.mp h
    obtain ⟨x, -, h⟩ := bind_eq_ok.mp h
    cases h
    rfl
  | exp =>
    obtain ⟨n, -, h⟩ := bind_eq_ok.mp h
    cases h
    rfl
  | hypot =>
    obtain ⟨ns, -, h⟩ := bind_eq_ok.mp h
    obtain ⟨xs, -, h⟩ := bind_eq_ok.mp h
    cases h
    rfl

end DynamicScope
