import DynamicScope.Run.Evaluate

/-! Computations that use up nothing.
Reading names and parameters, applying operators and library functions and forming the texts of values
fail in many ways, but never because a run is longer or deeper than it is allowed to be. -/

namespace DynamicScope

def Failure.isExhausted : Failure → Bool
  | .exhausted => true
  | _ => false

theorem Fault.isExhausted_raised (f : Fault) : f.raised.isExhausted = false := by
  rcases f.raised_eq_or with same | same <;> rw [same] <;> rfl

def Ample {α : Type} (x : Except Failure α) : Prop := x ≠ .error .exhausted

namespace Ample

variable {α β : Type}

theorem ok (a : α) : Ample (.ok a) := by
  intro same
  cases same

theorem error {e : Failure} (h : e.isExhausted = false) : Ample (.error e : Except Failure α) := by
  intro same
  cases same
  cases h

theorem fault (f : Fault) : Ample (Value.fault f : Except Failure α) :=
  .error f.isExhausted_raised

theorem bind {x : Except Failure α} {f : α → Except Failure β} (first : Ample x)
    (rest : ∀ a, Ample (f a)) : Ample (x >>= f) := by
  cases x with
  | ok a => exact rest a
  | error e =>
    intro same
    cases same
    exact first rfl

theorem mapM {f : α → Except Failure β} (each : ∀ a, Ample (f a)) (items : List α) :
    Ample (items.mapM f) := by
  induction items with
  | nil => exact .ok []
  | cons item items ih =>
    rw [List.mapM_cons]
    exact (each item).bind fun b => ih.bind fun bs => .ok (b :: bs)

theorem liftNumber (x : Except NumberError α) : Ample (Value.liftNumber x) := by
  cases x with
  | ok a => exact .ok a
  | error e => exact .error rfl

end Ample

theorem Json.ample_plainText (document : Json) : Ample document.plainText := by
  unfold plainText
  split
  · exact .ok _
  · split
    · exact .ok _
    · exact .error rfl

theorem Json.ample_numeralValue (value : Json) : Ample value.numeralValue := by
  unfold Json.numeralValue
  split
  · exact .liftNumber _
  · exact .liftNumber _
  · split
    · exact .ok _
    · exact .error rfl
  · exact .error rfl

theorem Name.ample_ofJson? (name : Json) : Ample (Name.ofJson? name) := by
  cases name with
  | scalar s => exact .ok s
  | _ => exact .error rfl

namespace Ast

theorem ample_name? (tree : Ast) : Ample tree.name? := by
  cases tree with
  | identifier name => exact .ok name
  | _ => exact .error rfl

theorem ample_items? (tree : Ast) : Ample tree.items? := by
  unfold items?
  split
  · exact .ok _
  · exact .ok _
  · exact .error rfl

theorem ample_count? (tree : Ast) : Ample tree.count? := by
  unfold count?
  split
  · exact .ok _
  · exact .ok _
  · exact .error rfl

theorem ample_parameterNames (parameters : Ast) : Ample parameters.parameterNames :=
  (ample_items? parameters).bind fun items => .mapM ample_name? items

end Ast

namespace Value

theorem ample_isTrue (v : Value) : Ample v.isTrue := by
  unfold isTrue
  split
  · exact .ok _
  · exact .liftNumber _
  · exact .ok _
  · exact .ok _

theorem ample_unary (operator : Json) (v : Value) : Ample (unary operator v) := by
  unfold unary
  split
  · split
    · exact .ok _
    · exact .fault _
  · exact (ample_isTrue v).bind fun _ => .ok _
  · exact .fault _

theorem ample_numericOperands (symbol : String) (a b : Value) :
    Ample (numericOperands symbol a b) := by
  unfold numericOperands
  split
  · exact .ok _
  · exact .fault _

theorem ample_equalOperands (symbol : String) (a b : Value) : Ample (equalOperands symbol a b) := by
  unfold equalOperands
  split
  · exact .ok _
  · exact .fault _

theorem ample_applyOperator (symbol : String) (a b : Value) (op : BinaryOperator) :
    Ample (applyOperator symbol a b op) := by
  cases op with
  | arithmetic op =>
    refine (ample_numericOperands symbol a b).bind fun ⟨m, n⟩ => ?_
    dsimp only
    split
    · exact .fault _
    · exact (Ample.liftNumber _).bind fun _ => .ok _
  | comparison op => exact (ample_numericOperands symbol a b).bind fun _ => .ok _
  | equal | unequal => exact (ample_equalOperands symbol a b).bind fun _ => .ok _
  | both | either =>
    refine (ample_isTrue a).bind fun left => ?_
    cases left with
    | true | false => first | exact .ok _ | exact (ample_isTrue b).bind fun _ => .ok _

theorem ample_binary (operator : Json) (a b : Value) : Ample (binary operator a b) := by
  unfold binary
  split
  · split
    · exact ample_applyOperator _ a b _
    · exact .fault _
  · exact .fault _
  · exact .error rfl

theorem ample_subscript (a b : Value) : Ample (subscript a b) := by
  unfold subscript
  split
  · exact .ok _
  · exact .fault _

theorem ample_nameTexts (position : Nat) (names : List Json) : Ample (nameTexts position names) := by
  induction names generalizing position with
  | nil => exact .ok []
  | cons name names ih =>
    unfold nameTexts
    split
    · exact .ok _
    · cases ‹_ = _›
      exact (ih _).bind fun _ => .ok _
    · exact .error rfl

theorem ample_functionText (parameters : Ast) : Ample (functionText parameters) :=
  parameters.ample_parameterNames.bind fun names => (ample_nameTexts 0 names).bind fun _ => .ok _

theorem ample_numberText (n : Number) : Ample (numberText n) := by
  cases n with
  | double x => exact .ok _
  | integer n =>
    unfold numberText
    dsimp only
    split
    · exact .error rfl
    · exact .ok _

mutual

theorem ample_toText (v : Value) : Ample v.toText := by
  cases v with
  | number n => exact (ample_numberText n).bind fun _ => .ok _
  | array i items => exact (ample_toTextAll items).bind fun _ => .ok _
  | function i parameters body => exact ample_functionText parameters
  | _ => exact .ok _

theorem ample_toTextAll (items : List Value) : Ample (toTextAll items) := by
  cases items with
  | nil => exact .ok []
  | cons item items =>
    exact (ample_toText item).bind fun _ => (ample_toTextAll items).bind fun _ => .ok _

end

end Value

namespace MathFunction

theorem ample_firstArgument (f : MathFunction) (arguments : List Value) :
    Ample (f.firstArgument arguments) := by
  unfold firstArgument
  split
  · exact .ok _
  · exact .ok _
  · exact .error rfl

theorem ample_numericArguments (f : MathFunction) (arguments : List Value) :
    Ample (f.numericArguments arguments) := by
  induction arguments with
  | nil => exact .ok []
  | cons v rest ih =>
    unfold numericArguments
    split
    · exact .ok _
    · cases ‹_ = _›
      exact ih.bind fun _ => .ok _
    · exact .error rfl

theorem ample_apply (f : MathFunction) (arguments : List Value) : Ample (f.apply arguments) := by
  cases f with
  | sqrt | sin | cos | ln =>
    exact (ample_firstArgument _ arguments).bind fun _ => (Ample.liftNumber _).bind fun _ => .ok _
  | exp => exact (ample_firstArgument _ arguments).bind fun _ => .ok _
  | hypot =>
    exact (ample_numericArguments _ arguments).bind fun _ => (Ample.liftNumber _).bind fun _ => .ok _

end MathFunction

end DynamicScope
