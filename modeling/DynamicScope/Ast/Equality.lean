import DynamicScope.Ast.Basic

/-!
Equality of documents and of trees. Numbers and booleans are equal by exact value, so that 1, 1.0 and
true are equal, and objects are equal whatever the order of their fields. NaN inside a document or a
tree is equal to itself; only NaN as the whole of both is not.
-/

namespace DynamicScope

namespace Json

mutual

def same : Json → Json → Bool
  | .scalar a, .scalar b => a.same b
  | .array a, .array b => sameItems a b
  | .object a, .object b => a.length = b.length && sameFields a b
  | _, _ => false

def sameItems : List Json → List Json → Bool
  | [], [] => true
  | a :: as, b :: bs => same a b && sameItems as bs
  | _, _ => false

def sameFields : List (Text × Json) → List (Text × Json) → Bool
  | [], _ => true
  | (key, value) :: fields, other =>
    (match field? other key with
      | some v => same value v
      | none => false) && sameFields fields other

end

end Json

namespace Ast

mutual

/-- Equality of trees that are parts of something. -/
def same : Ast → Ast → Bool
  | .scalar a, .scalar b => a.same b
  | .list a, .list b => sameItems a b
  | .program a, .program b => same a b
  | .block a, .block b => same a b
  | .variableDeclaration a₁ a₂, .variableDeclaration b₁ b₂ => same a₁ b₁ && same a₂ b₂
  | .functionDeclaration a₁ a₂ a₃, .functionDeclaration b₁ b₂ b₃ =>
    same a₁ b₁ && same a₂ b₂ && same a₃ b₃
  | .assignment a₁ a₂, .assignment b₁ b₂ => same a₁ b₁ && same a₂ b₂
  | .printStatement a, .printStatement b => same a b
  | .whileStatement a₁ a₂, .whileStatement b₁ b₂ => same a₁ b₁ && same a₂ b₂
  | .numeral a, .numeral b => a.same b
  | .booleanLiteral a, .booleanLiteral b => a = b
  | .identifier a, .identifier b => a.same b
  | .unary p a, .unary q b => p.same q && same a b
  | .binary p a₁ a₂, .binary q b₁ b₂ => p.same q && same a₁ b₁ && same a₂ b₂
  | .conditional a₁ a₂ a₃, .conditional b₁ b₂ b₃ => same a₁ b₁ && same a₂ b₂ && same a₃ b₃
  | .arrayLiteral a, .arrayLiteral b => same a b
  | .subscript a₁ a₂, .subscript b₁ b₂ => same a₁ b₁ && same a₂ b₂
  | .call a₁ a₂, .call b₁ b₂ => same a₁ b₁ && same a₂ b₂
  | _, _ => false

def sameItems : List Ast → List Ast → Bool
  | [], [] => true
  | a :: as, b :: bs => same a b && sameItems as bs
  | _, _ => false

end

/-- Equality of whole trees. -/
def equal (a b : Ast) : Bool :=
  match a, b with
  | .scalar (.number m), .scalar (.number n) => m.equal n
  | a, b => a.same b

end Ast

end DynamicScope
