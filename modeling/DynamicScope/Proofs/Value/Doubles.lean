import DynamicScope.Proofs.Soundness.Value

/-! The numeric operators on doubles.
Of two doubles every one of them answers, a double or a boolean as the operator has it, but for a
divisor that is zero, which is an error of the language, and for the remainder of an infinite dividend,
which is none. -/

namespace DynamicScope

namespace Arithmetic

def symbol : Arithmetic → String
  | .add => "+"
  | .sub => "-"
  | .mul => "*"
  | .div => "/"
  | .rem => "%"

def onDoubles : Arithmetic → Double → Double → Double
  | .add => Double.add
  | .sub => Double.sub
  | .mul => Double.mul
  | .div => Double.div
  | .rem => Double.rem

@[simp] theorem ofSymbol?_symbol (op : Arithmetic) :
    BinaryOperator.ofSymbol? op.symbol = some (.arithmetic op) := by
  cases op <;> rfl

theorem divides_iff {op : Arithmetic} : op.divides = true ↔ op = .div ∨ op = .rem := by
  cases op <;> simp [divides]

theorem apply_doubles (op : Arithmetic) {x y : Double}
    (nonzero : (op.divides && y.isZero) = false) :
    op.apply (.double x) (.double y) =
      if op = .rem ∧ x.isInfinite = true ∧ y.isNaN = false then .error .remainderUndefined
      else .ok (.double (op.onDoubles x y)) := by
  cases op with
  | rem =>
    rw [divides, Bool.true_and] at nonzero
    rw [apply, Number.rem_double, nonzero]
    simp [onDoubles]
  | _ => rfl

end Arithmetic

def Comparison.symbol : Comparison → String
  | .less => "<"
  | .lessEqual => "<="
  | .greater => ">"
  | .greaterEqual => ">="

@[simp] theorem Comparison.ofSymbol?_symbol (op : Comparison) :
    BinaryOperator.ofSymbol? op.symbol = some (.comparison op) := by
  cases op <;> rfl

namespace Value

def written (symbol : String) : Json := .scalar (.string (.proper symbol))

theorem binary_arithmetic (op : Arithmetic) (x y : Double) :
    binary (written op.symbol) (.double x) (.double y) =
      if op.divides && y.isZero then .error (.fault (.divisionByZero op.symbol))
      else if op = .rem ∧ x.isInfinite = true ∧ y.isNaN = false then
        .error (.number .remainderUndefined)
      else .ok (.double (op.onDoubles x y)) := by
  have applied : binary (written op.symbol) (.double x) (.double y) =
      if op.divides && y.isZero then .error (.fault (.divisionByZero op.symbol))
      else liftNumber (op.apply (.double x) (.double y)) >>= fun n => .ok (.number n) := by
    rw [written, binary, Arithmetic.ofSymbol?_symbol, ← Number.isZero_double]
    rfl
  rw [applied]
  cases zero : op.divides && y.isZero with
  | true => rfl
  | false =>
    rw [if_neg Bool.false_ne_true, if_neg Bool.false_ne_true, Arithmetic.apply_doubles op zero]
    split <;> rfl

theorem binary_comparison (op : Comparison) (m n : Number) :
    binary (written op.symbol) (.number m) (.number n) = .ok (.boolean (op.apply m n)) := by
  rw [written, binary, Comparison.ofSymbol?_symbol]
  rfl

/-- An arithmetic operator on doubles fails if it divides by zero, with the error of the language for
that, and if it is the remainder of an infinite dividend by anything but zero and NaN; otherwise it
answers a double. A comparison of doubles never fails and answers a boolean. -/
theorem binary_doubles (x y : Double) :
    (∀ (op : Arithmetic) (e : Failure),
      binary (written op.symbol) (.double x) (.double y) = .error e ↔
        (op = .div ∨ op = .rem) ∧ y.isZero = true ∧ e = .fault (.divisionByZero op.symbol) ∨
        op = .rem ∧ x.isInfinite = true ∧ y.isZero = false ∧ y.isNaN = false ∧
          e = .number .remainderUndefined) ∧
    (∀ (op : Arithmetic) (v : Value),
      binary (written op.symbol) (.double x) (.double y) = .ok v →
        v = .double (op.onDoubles x y)) ∧
    ∀ op : Comparison, binary (written op.symbol) (.double x) (.double y) =
      .ok (.boolean (op.apply (.double x) (.double y))) := by
  refine ⟨fun op e => ?_, fun op v answered => ?_, fun op => binary_comparison op (.double x) (.double y)⟩
  · rw [binary_arithmetic, ← Arithmetic.divides_iff]
    cases divides : op.divides && y.isZero with
    | true =>
      obtain ⟨divides, zero⟩ := (Bool.and_eq_true ..).mp divides
      rw [if_pos rfl, Except.error.injEq]
      constructor
      · rintro rfl
        exact .inl ⟨divides, zero, rfl⟩
      · rintro (⟨-, -, same⟩ | ⟨-, -, nonzero, -⟩)
        · exact same.symm
        · exact absurd (zero.symm.trans nonzero) (by decide)
    | false =>
      have nonzero (h : op.divides = true) : y.isZero = false := by simpa [h] using divides
      rw [if_neg Bool.false_ne_true]
      split
      · rename_i undefined
        obtain ⟨rfl, infinite, number⟩ := undefined
        rw [Except.error.injEq]
        constructor
        · rintro rfl
          exact .inr ⟨rfl, infinite, nonzero rfl, number, rfl⟩
        · rintro (⟨h, zero, -⟩ | ⟨-, -, -, -, same⟩)
          · exact absurd ((nonzero h).symm.trans zero) (by decide)
          · exact same.symm
      · rename_i defined
        constructor
        · nofun
        · rintro (⟨h, zero, -⟩ | ⟨rem, infinite, -, number, -⟩)
          · exact absurd ((nonzero h).symm.trans zero) (by decide)
          · exact absurd ⟨rem, infinite, number⟩ defined
  · rw [binary_arithmetic] at answered
    split at answered
    · cases answered
    · split at answered
      · cases answered
      · exact (Except.ok.inj answered).symm

/-- The remainder of infinity by one is not NaN; it fails. -/
theorem binary_infinity_rem_one :
    binary (written "%") (.double (.infinity false)) (.double (.ofInt 1)) =
      .error (.number .remainderUndefined) := by
  have divisor : (Double.ofInt 1).isZero = false ∧ (Double.ofInt 1).isNaN = false := by
    decide +kernel
  refine (binary_arithmetic .rem (.infinity false) (.ofInt 1)).trans ?_
  rw [divisor.1, divisor.2]
  rfl

end Value

end DynamicScope
