import DynamicScope.Proofs.Simulation.Basic
import DynamicScope.Proofs.Value.Operator

/-! Values of one form.
Operators, subscripts and library functions look at the data in values and at whether two values are
one object. They look neither at the identities by which objects are told apart nor at the code of
functions, so they answer alike for values that differ in nothing else. -/

namespace DynamicScope

namespace Value

variable {R : Value → Value → Prop} {v v' a a' b b' : Value}

/-- Values of one form: the same data, or objects of one sort, and in arrays related elements. -/
inductive Form (R : Value → Value → Prop) : Value → Value → Prop
  | number (n : Number) : Form R (.number n) (.number n)
  | boolean (b : Bool) : Form R (.boolean b) (.boolean b)
  | array (i i' : Nat) {items items' : List Value} (h : List.Forall₂ R items items') :
    Form R (.array i items) (.array i' items')
  | builtin (i i' : Nat) (f : Builtin) : Form R (.builtin i f) (.builtin i' f)
  | function (i i' : Nat) (parameters parameters' body body' : Ast) :
    Form R (.function i parameters body) (.function i' parameters' body')
  | undefined : Form R .undefined .undefined
  | text (s : String) : Form R (.text s) (.text s)
  | nothing : Form R .nothing .nothing

/-- A relation of values of one form under which the same values are the same objects. -/
structure Resembles (R : Value → Value → Prop) : Prop where
  form {v v' : Value} : R v v' → Form R v v'
  equal {a a' b b' : Value} : R a a' → R b b' → a.equal b = a'.equal b'

namespace Form

theorem kind_eq (h : Form R v v') : v.kind = v'.kind := by
  cases h <;> rfl

theorem isTrue_eq (h : Form R v v') : v.isTrue = v'.isTrue := by
  cases h <;> rfl

theorem isPresent_eq (h : Form R v v') : v.isPresent = v'.isPresent := by
  cases h <;> rfl

theorem unary_eq (h : Form R v v') (operator : Json) : unary operator v = unary operator v' := by
  unfold unary
  split
  · cases h <;> rfl
  · rw [h.isTrue_eq]
  · rfl

theorem numericOperands_eq (left : Form R a a') (right : Form R b b') (symbol : String) :
    numericOperands symbol a b = numericOperands symbol a' b' := by
  cases left <;> cases right <;> rfl

end Form

namespace Resembles

variable (resembles : Resembles R)

include resembles

theorem applyOperator_eq (left : R a a') (right : R b b') (symbol : String) (op : BinaryOperator) :
    applyOperator symbol a b op = applyOperator symbol a' b' op := by
  have first := resembles.form left
  have second := resembles.form right
  cases op with
  | arithmetic op | comparison op =>
    rw [applyOperator, applyOperator, first.numericOperands_eq second]
  | equal | unequal =>
    rw [applyOperator, applyOperator, equalOperands, equalOperands, first.kind_eq, second.kind_eq,
      resembles.equal left right]
  | both | either => rw [applyOperator, applyOperator, first.isTrue_eq, second.isTrue_eq]

theorem binary_eq (left : R a a') (right : R b b') (operator : Json) :
    binary operator a b = binary operator a' b' := by
  unfold binary
  simp only [resembles.applyOperator_eq left right]

omit resembles in
theorem getD_related {items items' : List Value} (h : List.Forall₂ R items items')
    (absent : R .undefined .undefined) (k : Nat) :
    R (items.getD k .undefined) (items'.getD k .undefined) := by
  induction h generalizing k with
  | nil => exact absent
  | cons head _ ih =>
    cases k with
    | zero => exact head
    | succ k => exact ih k

omit resembles in
theorem element_related {items items' : List Value} (h : List.Forall₂ R items items')
    (absent : R .undefined .undefined) (index : Number) :
    R (element items index) (element items' index) := by
  unfold element
  split
  · exact getD_related h absent _
  · exact absent

theorem subscript_alike {failure : Failure → Failure → Prop} (failures : ∀ e, failure e e)
    (absent : R .undefined .undefined) (left : R a a') (right : R b b') :
    Alike R failure (subscript a b) (subscript a' b') := by
  cases resembles.form left with
  | array i i' h =>
    cases resembles.form right with
    | number index => exact .ok (element_related h absent index)
    | _ => exact .error (failures _)
  | _ => cases resembles.form right <;> exact .error (failures _)

theorem firstArgument_eq (f : MathFunction) {vs vs' : List Value} (h : List.Forall₂ R vs vs') :
    f.firstArgument vs = f.firstArgument vs' := by
  cases h with
  | nil => rfl
  | cons head _ => cases resembles.form head <;> rfl

theorem numericArguments_eq (f : MathFunction) {vs vs' : List Value} (h : List.Forall₂ R vs vs') :
    f.numericArguments vs = f.numericArguments vs' := by
  induction h with
  | nil => rfl
  | cons head _ ih =>
    cases resembles.form head with
    | number n => rw [MathFunction.numericArguments, MathFunction.numericArguments, ih]
    | _ => rfl

theorem apply_eq (f : MathFunction) {vs vs' : List Value} (h : List.Forall₂ R vs vs') :
    f.apply vs = f.apply vs' := by
  cases f <;>
    simp only [MathFunction.apply, resembles.firstArgument_eq _ h, resembles.numericArguments_eq _ h]

end Resembles

theorem present_related {o o' : Option Value} (same : ∀ {v v'}, R v v' → v.isPresent = v'.isPresent)
    (h : Option.Rel R o o') :
    Option.Rel R (o.filter isPresent) (o'.filter isPresent) := by
  cases h with
  | none => exact .none
  | @some v v' related =>
    rw [Option.filter_some, Option.filter_some, ← same related]
    cases v.isPresent with
    | true => exact .some related
    | false => exact .none

theorem map_related {f : Value → Value} {o : Option Value} (related : ∀ v, o = some v → R v (f v)) :
    Option.Rel R o (o.map f) := by
  cases o with
  | none => exact .none
  | some v => exact .some (related v rfl)

end Value

namespace Bindings

variable {f : Name → Name} {g : Value → Value}

section Names

variable (names : ∀ m n : Name, (f m).key = (f n).key ↔ m.key = n.key)

include names

theorem value?_map (b : Bindings) (name : Name) :
    value? (b.map fun entry => (f entry.1, g entry.2)) (f name) = (b.value? name).map g := by
  induction b with
  | nil => rfl
  | cons entry rest ih =>
    obtain ⟨n, v⟩ := entry
    rw [List.map_cons, value?_cons, ih, value?_cons]
    simp only [names]
    split <;> rfl

theorem insert_map (b : Bindings) (name : Name) (v : Value) :
    insert (b.map fun entry => (f entry.1, g entry.2)) (f name) (g v) =
      (b.insert name v).map fun entry => (f entry.1, g entry.2) := by
  induction b with
  | nil => rfl
  | cons entry rest ih =>
    obtain ⟨n, w⟩ := entry
    rw [List.map_cons, insert, insert, ih]
    simp only [names]
    split <;> rfl

theorem insertAll_map (b : Bindings) (others : List (Name × Value)) :
    insertAll (b.map fun entry => (f entry.1, g entry.2))
        (others.map fun entry => (f entry.1, g entry.2)) =
      (b.insertAll others).map fun entry => (f entry.1, g entry.2) := by
  induction others generalizing b with
  | nil => rfl
  | cons other others ih =>
    have later := ih (b.insert other.1 other.2)
    rw [← insert_map names] at later
    exact later

end Names

end Bindings

end DynamicScope
