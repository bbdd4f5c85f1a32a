import DynamicScope.Proofs.Simulation.Invariant
import DynamicScope.Proofs.Soundness.WellFormed
import DynamicScope.Proofs.Value.Operator

/-! Values of well-formed programs.
Such values are doubles, booleans, library functions, well-formed functions and arrays of them. What
is done with them answers another or fails with an error of the language; only a remainder can fail
otherwise, when it is undefined. -/

namespace DynamicScope

namespace Number

theorem isTrue_double (x : Double) : ∃ b, (double x).isTrue = .ok b := by
  unfold isTrue
  split <;> exact ⟨_, rfl⟩

theorem rem_double (x y : Double) :
    rem (.double x) (.double y) =
      if (x.isInfinite && !y.isNaN) || (y.isZero && !x.isNaN) then .error .remainderUndefined
      else .ok (.double (x.rem y)) := rfl

theorem isZero_double (x : Double) : (double x).isZero = x.isZero := by
  cases x with
  | nan => rfl
  | infinity negative => cases negative <;> rfl
  | finite negative units h =>
    have place : (double (.finite negative units h)).isZero =
        decide (Place.at (Double.signed negative units) = .at (0 * unitsPerOne)) := rfl
    rw [place, Int.zero_mul]
    cases units with
    | zero => cases negative <;> rfl
    | succ n =>
      have apart : Double.signed negative (n + 1) ≠ 0 := by
        cases negative <;> simp [Double.signed] <;> omega
      rw [decide_eq_false fun same => apart (Place.at.inj same)]
      rfl

end Number

theorem Double.isInfinite_iff {x : Double} :
    x.isInfinite = true ↔ ∃ negative, x = .infinity negative := by
  cases x <;> simp [isInfinite]

inductive Failure.IsFault : Failure → Prop
  | fault (f : Fault) : IsFault (.fault f)

/-- What an operator on two values can fail with: an error of the language, or no remainder of an
infinite number by one that is neither zero nor NaN. -/
inductive Failure.OfOperator (operator : Text) (a b : Value) : Failure → Prop
  | fault (f : Fault) : OfOperator operator a b (.fault f)
  | remainder (negative : Bool) (y : Double) (op : operator = "%")
    (left : a = .double (.infinity negative)) (right : b = .double y) (number : y.isNaN = false)
    (nonzero : y.isZero = false) : OfOperator operator a b (.number .remainderUndefined)

/-- The failures that a well-formed program can end with. -/
inductive Failure.Permitted : Failure → Prop
  | fault (f : Fault) : Permitted (.fault f)
  | remainder : Permitted (.number .remainderUndefined)
  | exhausted : Permitted .exhausted

theorem Failure.IsFault.permitted {e : Failure} (h : e.IsFault) : e.Permitted := by
  cases h with
  | fault f => exact .fault f

theorem Failure.OfOperator.permitted {operator : Text} {a b : Value} {e : Failure}
    (h : e.OfOperator operator a b) : e.Permitted := by
  cases h with
  | fault f => exact .fault f
  | remainder => exact .remainder

namespace Value

mutual

/-- Whether a value can come up in a well-formed program. -/
def Sound : Value → Prop
  | .number (.double _) | .boolean _ | .undefined | .builtin _ (.math _) => True
  | .array _ items => SoundAll items
  | .function _ parameters body =>
    (∃ names : List Text, parameters = .list (names.map Ast.named)) ∧ body.IsExpression
  | .number (.integer _) | .builtin _ (.native ..) | .text _ | .nothing => False

def SoundAll : List Value → Prop
  | [] => True
  | v :: vs => v.Sound ∧ SoundAll vs

end

theorem soundAll_iff {vs : List Value} : SoundAll vs ↔ ∀ v ∈ vs, v.Sound := by
  induction vs with
  | nil => simp [SoundAll]
  | cons v vs ih => rw [SoundAll, ih, List.forall_mem_cons]

theorem Sound.number {n : Number} (h : (Value.number n).Sound) : ∃ x, n = .double x := by
  cases n with
  | double x => exact ⟨x, rfl⟩
  | integer k => exact h.elim

theorem isTrue_soundly {v : Value} (h : v.Sound) :
    Yields (fun _ => True) Failure.IsFault v.isTrue := by
  cases v with
  | number n =>
    obtain ⟨x, rfl⟩ := h.number
    obtain ⟨b, same⟩ := Number.isTrue_double x
    rw [isTrue, same]
    exact .ok trivial
  | _ => exact .ok trivial

theorem unary_soundly (operator : Text) {v : Value} (h : v.Sound) :
    Yields Sound Failure.IsFault (unary (.scalar (.string operator)) v) := by
  unfold unary
  split
  · split
    · rename_i n
      obtain ⟨x, rfl⟩ := h.number
      exact .ok trivial
    · exact .error (.fault _)
  · exact (isTrue_soundly h).bind fun b _ => .ok trivial
  · exact .error (.fault _)

theorem numericOperands_soundly (symbol : String) {a b : Value} (left : a.Sound)
    (right : b.Sound) :
    Yields (fun n => ∃ x y, n = (.double x, .double y) ∧ a = .double x ∧ b = .double y)
      Failure.IsFault (numericOperands symbol a b) := by
  cases a with
  | number m =>
    obtain ⟨x, rfl⟩ := left.number
    cases b with
    | number n =>
      obtain ⟨y, rfl⟩ := right.number
      exact .ok ⟨x, y, rfl, rfl, rfl⟩
    | _ => exact .error (.fault _)
  | _ => exact .error (.fault _)

theorem equalOperands_soundly (symbol : String) (a b : Value) :
    Yields (fun _ => True) Failure.IsFault (equalOperands symbol a b) := by
  unfold equalOperands
  split
  · exact .ok trivial
  · exact .error (.fault _)

theorem symbol_of_rem {symbol : String}
    (found : BinaryOperator.ofSymbol? symbol = some (.arithmetic .rem)) : symbol = "%" := by
  obtain ⟨before, after, split, -⟩ := List.lookup_eq_some_iff.mp found
  have listed : (symbol, BinaryOperator.arithmetic .rem) ∈ BinaryOperator.symbols := by
    rw [split]
    exact List.mem_append_right _ List.mem_cons_self
  simpa [BinaryOperator.symbols] using listed

theorem arithmetic_soundly {symbol : String} {op : Arithmetic} {x y : Double}
    (found : BinaryOperator.ofSymbol? symbol = some (.arithmetic op))
    (nonzero : (op.divides && (Number.double y).isZero) = false) :
    Yields (fun n => ∃ z, n = .double z)
      (Failure.OfOperator symbol (.double x) (.double y))
      (liftNumber (op.apply (.double x) (.double y))) := by
  cases op with
  | rem =>
    rw [Arithmetic.divides, Bool.true_and, Number.isZero_double] at nonzero
    rw [Arithmetic.apply, Number.rem_double, nonzero, Bool.false_and, Bool.or_false]
    split
    · rename_i undefined
      obtain ⟨infinite, number⟩ := (Bool.and_eq_true ..).mp undefined
      obtain ⟨negative, rfl⟩ := Double.isInfinite_iff.mp infinite
      rw [symbol_of_rem found]
      exact .error (.remainder negative y rfl rfl rfl (by simpa using number) nonzero)
    · exact .ok ⟨_, rfl⟩
  | _ => exact .ok ⟨_, rfl⟩

theorem applyOperator_soundly {symbol : String} {op : BinaryOperator} {a b : Value}
    (found : BinaryOperator.ofSymbol? symbol = some op) (left : a.Sound) (right : b.Sound) :
    Yields Sound (Failure.OfOperator symbol a b) (applyOperator symbol a b op) := by
  have faults (e : Failure) (h : e.IsFault) : e.OfOperator symbol a b := by
    cases h with
    | fault f => exact .fault f
  cases op with
  | arithmetic op =>
    refine ((numericOperands_soundly symbol left right).fails faults).bind fun n doubles => ?_
    obtain ⟨x, y, rfl, rfl, rfl⟩ := doubles
    dsimp only
    split
    · exact .error (.fault _)
    · rename_i nonzero
      refine (arithmetic_soundly found (Bool.eq_false_iff.mpr nonzero)).bind fun n double => ?_
      obtain ⟨z, rfl⟩ := double
      exact .ok trivial
  | comparison op =>
    exact ((numericOperands_soundly symbol left right).fails faults).bind fun _ _ => .ok trivial
  | equal | unequal =>
    exact ((equalOperands_soundly symbol a b).fails faults).bind fun _ _ => .ok trivial
  | both =>
    refine ((isTrue_soundly left).fails faults).bind fun first _ => ?_
    cases first with
    | true => exact ((isTrue_soundly right).fails faults).bind fun _ _ => .ok trivial
    | false => exact .ok trivial
  | either =>
    refine ((isTrue_soundly left).fails faults).bind fun first _ => ?_
    cases first with
    | true => exact .ok trivial
    | false => exact ((isTrue_soundly right).fails faults).bind fun _ _ => .ok trivial

theorem binary_soundly (operator : Text) {a b : Value} (left : a.Sound) (right : b.Sound) :
    Yields Sound (Failure.OfOperator operator a b) (binary (.scalar (.string operator)) a b) := by
  unfold binary
  split
  · rename_i symbol same
    cases same
    split
    · rename_i op found
      exact applyOperator_soundly found left right
    · exact .error (.fault _)
  · exact .error (.fault _)
  · rename_i no
    exact absurd rfl (no _)

theorem subscript_soundly {a b : Value} (left : a.Sound) :
    Yields Sound Failure.IsFault (subscript a b) := by
  cases a with
  | array i items =>
    cases b with
    | number index =>
      rw [subscript]
      rcases element_mem items index with listed | absent
      · exact .ok (soundAll_iff.mp left _ listed)
      · rw [absent]
        exact .ok trivial
    | _ => exact .error (.fault _)
  | _ => exact .error (.fault _)

end Value

namespace MathFunction

theorem firstArgument_soundly (f : MathFunction) {arguments : List Value}
    (given : ∀ v ∈ arguments, v.Sound) :
    Yields (fun n => ∃ x, n = .double x) Failure.IsFault (f.firstArgument arguments) := by
  cases arguments with
  | nil => exact .ok ⟨_, rfl⟩
  | cons v rest =>
    cases v with
    | number n => exact .ok (given _ List.mem_cons_self).number
    | _ => exact .error (.fault _)

theorem numericArguments_soundly (f : MathFunction) {arguments : List Value}
    (given : ∀ v ∈ arguments, v.Sound) :
    Yields (fun ns => ∃ xs : List Double, ns = xs.map .double) Failure.IsFault
      (f.numericArguments arguments) := by
  induction arguments with
  | nil => exact .ok ⟨[], rfl⟩
  | cons v rest ih =>
    obtain ⟨first, others⟩ := List.forall_mem_cons.mp given
    cases v with
    | number n =>
      obtain ⟨x, rfl⟩ := first.number
      refine (ih others).bind fun ns doubles => ?_
      obtain ⟨xs, rfl⟩ := doubles
      exact .ok ⟨x :: xs, rfl⟩
    | _ => exact .error (.fault _)

theorem rootOf_double (x : Double) : ∃ y, rootOf (.double x) = .ok y := by
  unfold rootOf
  split <;> exact ⟨_, rfl⟩

theorem mapM_toDouble (xs : List Double) :
    (xs.map Number.double).mapM Number.toDouble = .ok xs := by
  induction xs with
  | nil => rfl
  | cons x xs ih =>
    rw [List.map_cons, List.mapM_cons, ih]
    rfl

theorem apply_soundly (f : MathFunction) {arguments : List Value}
    (given : ∀ v ∈ arguments, v.Sound) :
    Yields Value.Sound Failure.IsFault (f.apply arguments) := by
  cases f with
  | hypot =>
    refine (numericArguments_soundly _ given).bind fun ns doubles => ?_
    obtain ⟨xs, rfl⟩ := doubles
    rw [mapM_toDouble]
    exact .ok trivial
  | sqrt =>
    refine (firstArgument_soundly _ given).bind fun n double => ?_
    obtain ⟨x, rfl⟩ := double
    obtain ⟨y, same⟩ := rootOf_double x
    rw [same]
    exact .ok trivial
  | _ =>
    refine (firstArgument_soundly _ given).bind fun n double => ?_
    obtain ⟨x, rfl⟩ := double
    exact .ok trivial

end MathFunction

end DynamicScope
