import DynamicScope.Failure

/-!
Trees as JSON documents. A node is an object with the field `type` and one field for each part.
Decoding takes scalars and arrays as they are and checks nothing but what it needs: the type of an
object, then its fields, one after the other, each decoded before the next is looked up.
-/

namespace DynamicScope

inductive DecodeError
  /-- An object whose `type` is no node type; none when the field is missing. -/
  | unknownType (type : Option Json)
  | missingField (name : String)

namespace DecodeError

def message : DecodeError → String
  | .unknownType type =>
    let shown := type.getD .null
    if shown.isShort then s!"Unknown AST node type: {shown.plain}"
    else Failure.oversizedInteger.message
  | .missingField name => Text.quotedString name

end DecodeError

namespace Ast

def rawField (fields : List (Text × Json)) (name : String) : Except DecodeError Json :=
  match Json.field? fields name with
  | some value => .ok value
  | none => .error (.missingField name)

/-- A field that is a part of the tree, given with the outcome of its own decoding. -/
def childField (children : List (Text × Except DecodeError Ast)) (name : String) :
    Except DecodeError Ast :=
  match children.lookup (.proper name) with
  | some child => child
  | none => .error (.missingField name)

def typeName? : Option Json → Option String
  | some (.scalar (.string t)) => t.string?
  | _ => none

def assemble (type : Option Json) (raw : String → Except DecodeError Json)
    (child : String → Except DecodeError Ast) : Except DecodeError Ast := do
  match typeName? type with
  | some "Program" => return .program (← child "block")
  | some "Block" => return .block (← child "statements")
  | some "VariableDeclaration" =>
    return .variableDeclaration (← child "id") (← child "expression")
  | some "FunctionDeclaration" =>
    return .functionDeclaration (← child "id") (← child "parameters") (← child "expression")
  | some "Assignment" =>
    return .assignment (← child "id") (← child "expression")
  | some "PrintStatement" => return .printStatement (← child "expression")
  | some "WhileStatement" =>
    return .whileStatement (← child "expression") (← child "block")
  | some "Numeral" => return .numeral (← raw "value")
  | some "BooleanLiteral" => return .booleanLiteral (← raw "value").isTrue
  | some "Identifier" => return .identifier (← raw "name")
  | some "UnaryExpression" =>
    return .unary (← raw "operator") (← child "expression")
  | some "BinaryExpression" =>
    return .binary (← raw "operator") (← child "left") (← child "right")
  | some "ConditionalExpression" =>
    return .conditional (← child "test") (← child "consequent") (← child "alternate")
  | some "ArrayLiteral" => return .arrayLiteral (← child "elements")
  | some "SubscriptExpression" =>
    return .subscript (← child "array") (← child "subscript")
  | some "Call" => return .call (← child "callee") (← child "args")
  | _ => throw (.unknownType type)

mutual

def decode : Json → Except DecodeError Ast
  | .scalar s => .ok (.scalar s)
  | .array items => do return .list (← decodeItems items)
  | .object fields =>
    assemble (Json.field? fields "type") (rawField fields) (childField (decodeFields fields))

def decodeItems : List Json → Except DecodeError (List Ast)
  | [] => .ok []
  | item :: items => do
    let first ← decode item
    return first :: (← decodeItems items)

/-- Every field with the outcome of its decoding. -/
def decodeFields : List (Text × Json) → List (Text × Except DecodeError Ast)
  | [] => []
  | (name, value) :: fields => (name, decode value) :: decodeFields fields

end

theorem lookup_decodeFields (fields : List (Text × Json)) (name : Text) :
    (decodeFields fields).lookup name = (Json.field? fields name).map decode := by
  induction fields with
  | nil => rfl
  | cons field fields ih =>
    obtain ⟨key, value⟩ := field
    simp only [decodeFields, Json.field?, List.lookup_cons] at ih ⊢
    cases name == key with
    | true => rfl
    | false => exact ih

mutual

def encode : Ast → Json
  | .scalar s => .scalar s
  | .list items => .array (encodeItems items)
  | .program body => .object [("type", .string "Program"), ("block", encode body)]
  | .block statements => .object [("type", .string "Block"), ("statements", encode statements)]
  | .variableDeclaration id expression =>
    .object [("type", .string "VariableDeclaration"), ("id", encode id),
      ("expression", encode expression)]
  | .functionDeclaration id parameters expression =>
    .object [("type", .string "FunctionDeclaration"), ("id", encode id),
      ("parameters", encode parameters), ("expression", encode expression)]
  | .assignment id expression =>
    .object [("type", .string "Assignment"), ("id", encode id), ("expression", encode expression)]
  | .printStatement expression =>
    .object [("type", .string "PrintStatement"), ("expression", encode expression)]
  | .whileStatement expression body =>
    .object [("type", .string "WhileStatement"), ("expression", encode expression),
      ("block", encode body)]
  | .numeral value => .object [("type", .string "Numeral"), ("value", value)]
  | .booleanLiteral value => .object [("type", .string "BooleanLiteral"), ("value", .bool value)]
  | .identifier name => .object [("type", .string "Identifier"), ("name", name)]
  | .unary operator expression =>
    .object [("type", .string "UnaryExpression"), ("operator", operator),
      ("expression", encode expression)]
  | .binary operator left right =>
    .object [("type", .string "BinaryExpression"), ("operator", operator), ("left", encode left),
      ("right", encode right)]
  | .conditional test consequent alternate =>
    .object [("type", .string "ConditionalExpression"), ("test", encode test),
      ("consequent", encode consequent), ("alternate", encode alternate)]
  | .arrayLiteral elements =>
    .object [("type", .string "ArrayLiteral"), ("elements", encode elements)]
  | .subscript array index =>
    .object [("type", .string "SubscriptExpression"), ("array", encode array),
      ("subscript", encode index)]
  | .call callee args =>
    .object [("type", .string "Call"), ("callee", encode callee), ("args", encode args)]

def encodeItems : List Ast → List Json
  | [] => []
  | item :: items => encode item :: encodeItems items

end

end Ast

end DynamicScope
