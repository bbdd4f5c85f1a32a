import DynamicScope.Proofs.Ast.Equivalence
import DynamicScope.Proofs.Number.Nearest
import DynamicScope.Proofs.Value.Form
import DynamicScope.Run.Program

/-! Equal programs that are spelled differently.
A numeral can be written as an integer, as a real and, if it is zero or one, as a truth value, and
equality does not tell these apart. Equal trees are of one class, with equal parts, the same names and
operators, and numerals that become the same double. In values there are trees in the code of
functions only. -/

namespace DynamicScope

namespace Json

/-- A number, but neither NaN nor the negative zero, or a truth value. -/
inductive IsNumeral : Json → Prop
  | number {n : Number} (h : n.Definite) : IsNumeral (.scalar (.number n))
  | bool (b : Bool) : IsNumeral (.scalar (.bool b))

def IsString (document : Json) : Prop := ∃ t : Text, document = .string t

theorem IsString.eq_of_same {a b : Json} (ha : a.IsString) (hb : b.IsString)
    (same : a.same b = true) : a = b := by
  obtain ⟨t, rfl⟩ := ha
  obtain ⟨t', rfl⟩ := hb
  rw [Scalar.Key.text.inj (of_decide_eq_true same)]

theorem IsNumeral.exists_number {document : Json} (h : document.IsNumeral) :
    ∃ (s : Scalar) (n : Number), document = .scalar s ∧ s.key = .number n.place? ∧ n.Definite ∧
      document.numeralValue = Value.liftNumber n.toDouble := by
  cases h with
  | @number n definite => exact ⟨.number n, n, rfl, rfl, definite, by rw [numeralValue]⟩
  | bool b =>
    exact ⟨.bool b, .integer (if b then 1 else 0), rfl, rfl, trivial, by rw [numeralValue]⟩

theorem numeralValue_eq_of_same {a b : Json} (ha : a.IsNumeral) (hb : b.IsNumeral)
    (same : a.same b = true) : a.numeralValue = b.numeralValue := by
  obtain ⟨s, m, rfl, key, definite, value⟩ := ha.exists_number
  obtain ⟨t, n, rfl, key', definite', value'⟩ := hb.exists_number
  have keys : s.key = t.key := of_decide_eq_true same
  rw [key, key'] at keys
  rw [value, value', Number.toDouble_eq_of_place? definite definite' (Scalar.Key.number.inj keys)]

end Json

namespace Ast

/-- What is asked of a tree apart from its children: it is a node or a list, names and operators are
strings, and numerals are numbers or truth values. -/
def Sound : Ast → Prop
  | .scalar _ => False
  | .numeral value => value.IsNumeral
  | .identifier name => name.IsString
  | .unary operator _ => operator.IsString
  | .binary operator _ _ => operator.IsString
  | _ => True

def Regular (tree : Ast) : Prop := ∀ part, tree.Contains part → part.Sound

theorem regular_iff {tree : Ast} :
    tree.Regular ↔ tree.Sound ∧ ∀ child ∈ tree.children, child.Regular :=
  forall_contains_iff

theorem Regular.of_children {tree : Ast} (sound : tree.Sound) (h : tree.children.Forall Regular) :
    tree.Regular :=
  regular_iff.mpr ⟨sound, List.forall_iff_forall_mem.mp h⟩

/-- Equal trees of this kind. -/
structure Respelled (tree tree' : Ast) : Prop where
  left : tree.Regular
  right : tree'.Regular
  same : tree.same tree' = true

theorem same_of_equal {a b : Ast} (regular : a.Regular) (h : a.equal b = true) :
    a.same b = true := by
  cases a with
  | scalar s => exact (regular_iff.mp regular).1.elim
  | _ => exact h

inductive Likewise (R : Ast → Ast → Prop) : Ast → Ast → Prop
  | list {items items' : List Ast} (h : List.Forall₂ R items items') :
    Likewise R (.list items) (.list items')
  | program {body body' : Ast} (h : R body body') : Likewise R (.program body) (.program body')
  | block {statements statements' : Ast} (h : R statements statements') :
    Likewise R (.block statements) (.block statements')
  | variableDeclaration {id id' part part' : Ast} (named : R id id') (h : R part part') :
    Likewise R (.variableDeclaration id part) (.variableDeclaration id' part')
  | functionDeclaration {id id' parameters parameters' body body' : Ast} (named : R id id')
    (taking : R parameters parameters') (h : R body body') :
    Likewise R (.functionDeclaration id parameters body)
      (.functionDeclaration id' parameters' body')
  | assignment {id id' part part' : Ast} (named : R id id') (h : R part part') :
    Likewise R (.assignment id part) (.assignment id' part')
  | printStatement {part part' : Ast} (h : R part part') :
    Likewise R (.printStatement part) (.printStatement part')
  | whileStatement {test test' body body' : Ast} (checked : R test test') (h : R body body') :
    Likewise R (.whileStatement test body) (.whileStatement test' body')
  | numeral {value value' : Json} (h : value.numeralValue = value'.numeralValue) :
    Likewise R (.numeral value) (.numeral value')
  | booleanLiteral (b : Bool) : Likewise R (.booleanLiteral b) (.booleanLiteral b)
  | identifier (name : Json) : Likewise R (.identifier name) (.identifier name)
  | unary (operator : Json) {part part' : Ast} (h : R part part') :
    Likewise R (.unary operator part) (.unary operator part')
  | binary (operator : Json) {left left' right right' : Ast} (first : R left left')
    (second : R right right') : Likewise R (.binary operator left right) (.binary operator left' right')
  | conditional {test test' first first' second second' : Ast} (chosen : R test test')
    (whenTrue : R first first') (whenFalse : R second second') :
    Likewise R (.conditional test first second) (.conditional test' first' second')
  | arrayLiteral {elements elements' : Ast} (h : R elements elements') :
    Likewise R (.arrayLiteral elements) (.arrayLiteral elements')
  | subscript {array array' index index' : Ast} (first : R array array') (second : R index index') :
    Likewise R (.subscript array index) (.subscript array' index')
  | call {callee callee' args args' : Ast} (called : R callee callee') (h : R args args') :
    Likewise R (.call callee args) (.call callee' args')

theorem respelled_items {items items' : List Ast} (left : ∀ item ∈ items, item.Regular)
    (right : ∀ item ∈ items', item.Regular) (same : sameItems items items' = true) :
    List.Forall₂ Respelled items items' := by
  induction items generalizing items' with
  | nil =>
    cases items' with
    | nil => exact .nil
    | cons => cases same
  | cons item items ih =>
    cases items' with
    | nil => cases same
    | cons item' items' =>
      obtain ⟨first, rest⟩ := List.forall_mem_cons.mp left
      obtain ⟨first', rest'⟩ := List.forall_mem_cons.mp right
      obtain ⟨equal, others⟩ := Bool.and_eq_true_iff.mp same
      exact .cons ⟨first, first', equal⟩ (ih rest rest' others)

theorem respelled_one {a a' : Ast} (left : ∀ part ∈ [a], part.Regular)
    (right : ∀ part ∈ [a'], part.Regular) (same : a.same a' = true) : a.Respelled a' :=
  ⟨left a (.head _), right a' (.head _), same⟩

theorem respelled_two {a a' b b' : Ast} (left : ∀ part ∈ [a, b], part.Regular)
    (right : ∀ part ∈ [a', b'], part.Regular) (same : (a.same a' && b.same b') = true) :
    a.Respelled a' ∧ b.Respelled b' := by
  obtain ⟨first, rest⟩ := List.forall_mem_cons.mp left
  obtain ⟨first', rest'⟩ := List.forall_mem_cons.mp right
  obtain ⟨equal, last⟩ := Bool.and_eq_true_iff.mp same
  exact ⟨⟨first, first', equal⟩, respelled_one rest rest' last⟩

theorem respelled_three {a a' b b' c c' : Ast} (left : ∀ part ∈ [a, b, c], part.Regular)
    (right : ∀ part ∈ [a', b', c'], part.Regular)
    (same : (a.same a' && b.same b' && c.same c') = true) :
    a.Respelled a' ∧ b.Respelled b' ∧ c.Respelled c' := by
  obtain ⟨first, rest⟩ := List.forall_mem_cons.mp left
  obtain ⟨first', rest'⟩ := List.forall_mem_cons.mp right
  rw [Bool.and_assoc] at same
  obtain ⟨equal, others⟩ := Bool.and_eq_true_iff.mp same
  exact ⟨⟨first, first', equal⟩, respelled_two rest rest' others⟩

theorem Respelled.likewise {tree tree' : Ast} (h : tree.Respelled tree') :
    Likewise Respelled tree tree' := by
  obtain ⟨left, right, same⟩ := h
  obtain ⟨sound, children⟩ := regular_iff.mp left
  obtain ⟨sound', children'⟩ := regular_iff.mp right
  cases tree with
  | scalar s => exact sound.elim
  | list items =>
    cases tree' with
    | list items' => exact .list (respelled_items children children' same)
    | _ => cases same
  | numeral value =>
    cases tree' with
    | numeral value' => exact .numeral (Json.numeralValue_eq_of_same sound sound' same)
    | _ => cases same
  | booleanLiteral b =>
    cases tree' with
    | booleanLiteral b' =>
      obtain rfl : b = b' := of_decide_eq_true same
      exact .booleanLiteral b
    | _ => cases same
  | identifier name =>
    cases tree' with
    | identifier name' =>
      obtain rfl := sound.eq_of_same sound' same
      exact .identifier name
    | _ => cases same
  | unary operator operand =>
    cases tree' with
    | unary operator' operand' =>
      obtain ⟨op, first⟩ := Bool.and_eq_true_iff.mp same
      obtain rfl := sound.eq_of_same sound' op
      exact .unary operator (respelled_one children children' first)
    | _ => cases same
  | binary operator left right =>
    cases tree' with
    | binary operator' left' right' =>
      rw [Ast.same, Bool.and_assoc] at same
      obtain ⟨op, operands⟩ := Bool.and_eq_true_iff.mp same
      obtain rfl := sound.eq_of_same sound' op
      obtain ⟨first, second⟩ := respelled_two children children' operands
      exact .binary operator first second
    | _ => cases same
  | program body =>
    cases tree' with
    | program body' =>
      exact .program (respelled_one children children' same)
    | _ => cases same
  | block statements =>
    cases tree' with
    | block statements' =>
      exact .block (respelled_one children children' same)
    | _ => cases same
  | variableDeclaration id part =>
    cases tree' with
    | variableDeclaration id' part' =>
      obtain ⟨first, second⟩ := respelled_two children children' same
      exact .variableDeclaration first second
    | _ => cases same
  | functionDeclaration id parameters body =>
    cases tree' with
    | functionDeclaration id' parameters' body' =>
      obtain ⟨first, second, third⟩ := respelled_three children children' same
      exact .functionDeclaration first second third
    | _ => cases same
  | assignment id part =>
    cases tree' with
    | assignment id' part' =>
      obtain ⟨first, second⟩ := respelled_two children children' same
      exact .assignment first second
    | _ => cases same
  | printStatement part =>
    cases tree' with
    | printStatement part' =>
      exact .printStatement (respelled_one children children' same)
    | _ => cases same
  | whileStatement test body =>
    cases tree' with
    | whileStatement test' body' =>
      obtain ⟨first, second⟩ := respelled_two children children' same
      exact .whileStatement first second
    | _ => cases same
  | conditional test first second =>
    cases tree' with
    | conditional test' first' second' =>
      obtain ⟨first, second, third⟩ := respelled_three children children' same
      exact .conditional first second third
    | _ => cases same
  | arrayLiteral elements =>
    cases tree' with
    | arrayLiteral elements' =>
      exact .arrayLiteral (respelled_one children children' same)
    | _ => cases same
  | subscript array index =>
    cases tree' with
    | subscript array' index' =>
      obtain ⟨first, second⟩ := respelled_two children children' same
      exact .subscript first second
    | _ => cases same
  | call callee args =>
    cases tree' with
    | call callee' args' =>
      obtain ⟨first, second⟩ := respelled_two children children' same
      exact .call first second
    | _ => cases same

section Likewise

variable {R : Ast → Ast → Prop} {tree tree' : Ast}

theorem Likewise.qualifiedClass_eq (h : Likewise R tree tree') :
    tree.qualifiedClass = tree'.qualifiedClass := by
  cases h <;> rfl

theorem Likewise.name?_eq (h : Likewise R tree tree') : tree.name? = tree'.name? := by
  cases h <;> rfl

theorem Likewise.count?_eq (h : Likewise R tree tree') : tree.count? = tree'.count? := by
  cases h with
  | list items => rw [count?, count?, items.length_eq]
  | _ => rfl

theorem Respelled.parameterNames_eq (h : tree.Respelled tree') :
    tree.parameterNames = tree'.parameterNames := by
  have names {items items' : List Ast} (h : List.Forall₂ Respelled items items') :
      items.mapM name? = items'.mapM name? := by
    induction h with
    | nil => rfl
    | cons head _ ih => rw [List.mapM_cons, List.mapM_cons, head.likewise.name?_eq, ih]
  cases h.likewise with
  | list items => exact names items
  | _ => rfl

theorem Respelled.functionText_eq (h : tree.Respelled tree') :
    Value.functionText tree = Value.functionText tree' := by
  rw [Value.functionText, Value.functionText, h.parameterNames_eq]

end Likewise

end Ast

namespace Value

/-- Values that are the same but for the spelling of numerals in the code of functions. -/
inductive Respelled : Value → Value → Prop
  | number (n : Number) : Respelled (.number n) (.number n)
  | boolean (b : Bool) : Respelled (.boolean b) (.boolean b)
  | array (i : Nat) {items items' : List Value} (h : List.Forall₂ Respelled items items') :
    Respelled (.array i items) (.array i items')
  | builtin (i : Nat) (f : Builtin) : Respelled (.builtin i f) (.builtin i f)
  | function (i : Nat) {parameters parameters' body body' : Ast}
    (taking : parameters.Respelled parameters') (h : body.Respelled body') :
    Respelled (.function i parameters body) (.function i parameters' body')
  | undefined : Respelled .undefined .undefined
  | text (s : String) : Respelled (.text s) (.text s)
  | nothing : Respelled .nothing .nothing

theorem respelled_of_isPlain {v : Value} (h : v.isPlain = true) : v.Respelled v := by
  cases v with
  | array | function => cases h
  | _ => constructor

theorem resembles_respelled : Resembles Respelled where
  form h := by
    cases h with
    | number n => exact .number n
    | boolean b => exact .boolean b
    | array i h => exact .array i i h
    | builtin i f => exact .builtin i i f
    | function i => exact .function i i _ _ _ _
    | undefined => exact .undefined
    | text s => exact .text s
    | nothing => exact .nothing
  equal left right := by
    cases left <;> cases right <;> rfl

mutual

theorem toText_respelled {v v' : Value} : v.Respelled v' → v.toText = v'.toText
  | .array i h => by rw [toText, toText, toTextAll_respelled h]
  | .function i taking _ => by rw [toText, toText, taking.functionText_eq]
  | .number _ | .boolean _ | .builtin .. | .undefined | .text _ | .nothing => rfl
termination_by sizeOf v

theorem toTextAll_respelled {vs vs' : List Value} : List.Forall₂ Respelled vs vs' →
    toTextAll vs = toTextAll vs'
  | .nil => rfl
  | .cons head tail => by
    rw [toTextAll, toTextAll, toText_respelled head, toTextAll_respelled tail]
termination_by sizeOf vs

end

end Value

end DynamicScope
