import DynamicScope.Json.Basic

/-!
Programs as trees. A tree may be malformed: where a node is due, a scalar or a list can stand, and
names, operators and numeral values are whatever JSON document was written. What a malformed tree
means is settled when it runs.
-/

namespace DynamicScope

inductive Ast
  | scalar (s : Scalar)
  | list (items : List Ast)
  | program (block : Ast)
  | block (statements : Ast)
  | variableDeclaration (id expression : Ast)
  | functionDeclaration (id parameters expression : Ast)
  | assignment (id expression : Ast)
  | printStatement (expression : Ast)
  | whileStatement (expression block : Ast)
  | numeral (value : Json)
  | booleanLiteral (value : Bool)
  | identifier (name : Json)
  | unary (operator : Json) (expression : Ast)
  | binary (operator : Json) (left right : Ast)
  | conditional (test consequent alternate : Ast)
  | arrayLiteral (elements : Ast)
  | subscript (array index : Ast)
  | call (callee args : Ast)

namespace Ast

instance : Inhabited Ast := ⟨.scalar .null⟩

/-- The class name of a tree: that of its root node, or of the raw value in its place. -/
def className : Ast → String
  | .scalar s => s.className
  | .list _ => "list"
  | .program _ => "Program"
  | .block _ => "Block"
  | .variableDeclaration .. => "VariableDeclaration"
  | .functionDeclaration .. => "FunctionDeclaration"
  | .assignment .. => "Assignment"
  | .printStatement _ => "PrintStatement"
  | .whileStatement .. => "WhileStatement"
  | .numeral _ => "Numeral"
  | .booleanLiteral _ => "BooleanLiteral"
  | .identifier _ => "Identifier"
  | .unary .. => "UnaryExpression"
  | .binary .. => "BinaryExpression"
  | .conditional .. => "ConditionalExpression"
  | .arrayLiteral _ => "ArrayLiteral"
  | .subscript .. => "SubscriptExpression"
  | .call .. => "Call"

def isNode : Ast → Bool
  | .scalar _ => false
  | .list _ => false
  | _ => true

end Ast

end DynamicScope
