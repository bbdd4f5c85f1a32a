import DynamicScope.Failure

/-! Well-formed programs.
Every slot of a well-formed tree holds what it is for: names and operators are strings, numerals are
numbers within the double range, and lists are lists. Which operators there are, whether names are
bound and what kinds of values meet is left to the run. -/

namespace DynamicScope

namespace Ast

def named (name : Text) : Ast := .identifier (.scalar (.string name))

inductive IsExpression : Ast → Prop
  | numeral {n : Number} {x : Double} (h : n.toDouble = .ok x) :
    IsExpression (.numeral (.scalar (.number n)))
  | booleanLiteral (b : Bool) : IsExpression (.booleanLiteral b)
  | identifier (name : Text) : IsExpression (named name)
  | unary (operator : Text) {part : Ast} (h : IsExpression part) :
    IsExpression (.unary (.scalar (.string operator)) part)
  | binary (operator : Text) {left right : Ast} (first : IsExpression left)
    (second : IsExpression right) : IsExpression (.binary (.scalar (.string operator)) left right)
  | conditional {test whenTrue whenFalse : Ast} (chosen : IsExpression test)
    (first : IsExpression whenTrue) (second : IsExpression whenFalse) :
    IsExpression (.conditional test whenTrue whenFalse)
  | arrayLiteral {items : List Ast} (h : ∀ item ∈ items, IsExpression item) :
    IsExpression (.arrayLiteral (.list items))
  | subscript {array index : Ast} (first : IsExpression array) (second : IsExpression index) :
    IsExpression (.subscript array index)
  | call (callee : Text) {args : List Ast} (h : ∀ arg ∈ args, IsExpression arg) :
    IsExpression (.call (named callee) (.list args))

inductive IsStatement : Ast → Prop
  | variableDeclaration (name : Text) {part : Ast} (h : IsExpression part) :
    IsStatement (.variableDeclaration (named name) part)
  | functionDeclaration (name : Text) (parameters : List Text) {body : Ast} (h : IsExpression body) :
    IsStatement (.functionDeclaration (named name) (.list (parameters.map named)) body)
  | assignment (name : Text) {part : Ast} (h : IsExpression part) :
    IsStatement (.assignment (named name) part)
  | printStatement {part : Ast} (h : IsExpression part) : IsStatement (.printStatement part)
  | whileStatement {test : Ast} {statements : List Ast} (checked : IsExpression test)
    (h : ∀ s ∈ statements, IsStatement s) :
    IsStatement (.whileStatement test (.block (.list statements)))
  | block {statements : List Ast} (h : ∀ s ∈ statements, IsStatement s) :
    IsStatement (.block (.list statements))

inductive IsProgram : Ast → Prop
  | program {statements : List Ast} (h : ∀ s ∈ statements, IsStatement s) :
    IsProgram (.program (.block (.list statements)))

end Ast

end DynamicScope
