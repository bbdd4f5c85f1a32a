import DynamicScope.Proofs.Ast.RoundTrip
import DynamicScope.Proofs.Value.Operator

/-! Nodes as a class and a list of parts.
The sixteen classes of nodes differ in the names of their fields and in what the fields hold: another
tree, a document that is kept as it is, or a truth value. Seen this way they are one case: encoding
writes the parts behind the class, and assembling reads exactly the parts that a node has. -/

namespace DynamicScope

/-- What a field of a node is for. -/
inductive Slot
  | child
  | raw
  | truth
  deriving DecidableEq

def nodeSlots? : String → Option (List (String × Slot))
  | "Program" => some [("block", .child)]
  | "Block" => some [("statements", .child)]
  | "VariableDeclaration" => some [("id", .child), ("expression", .child)]
  | "FunctionDeclaration" => some [("id", .child), ("parameters", .child), ("expression", .child)]
  | "Assignment" => some [("id", .child), ("expression", .child)]
  | "PrintStatement" => some [("expression", .child)]
  | "WhileStatement" => some [("expression", .child), ("block", .child)]
  | "Numeral" => some [("value", .raw)]
  | "BooleanLiteral" => some [("value", .truth)]
  | "Identifier" => some [("name", .raw)]
  | "UnaryExpression" => some [("operator", .raw), ("expression", .child)]
  | "BinaryExpression" => some [("operator", .raw), ("left", .child), ("right", .child)]
  | "ConditionalExpression" =>
    some [("test", .child), ("consequent", .child), ("alternate", .child)]
  | "ArrayLiteral" => some [("elements", .child)]
  | "SubscriptExpression" => some [("array", .child), ("subscript", .child)]
  | "Call" => some [("callee", .child), ("args", .child)]
  | _ => none

inductive Part
  | child (tree : Ast)
  | raw (document : Json)
  | truth (b : Bool)

namespace Part

def slot : Part → Slot
  | .child _ => .child
  | .raw _ => .raw
  | .truth _ => .truth

def encode : Part → Json
  | .child tree => tree.encode
  | .raw document => document
  | .truth b => .bool b

/-- Whether the part is what a field comes to, given as it stands and as it decodes. -/
def IsRead (raw : Except DecodeError Json) (child : Except DecodeError Ast) : Part → Prop
  | .child tree => child = .ok tree
  | .raw document => raw = .ok document
  | .truth b => ∃ document, raw = .ok document ∧ document.isTrue = b

end Part

namespace Ast

/-- The class and the parts of a node, in their order; raw values in its place have none. -/
def node? : Ast → Option (String × List (String × Part))
  | .scalar _ => none
  | .list _ => none
  | .program body => some ("Program", [("block", .child body)])
  | .block statements => some ("Block", [("statements", .child statements)])
  | .variableDeclaration id expression =>
    some ("VariableDeclaration", [("id", .child id), ("expression", .child expression)])
  | .functionDeclaration id parameters expression =>
    some ("FunctionDeclaration", [("id", .child id), ("parameters", .child parameters),
      ("expression", .child expression)])
  | .assignment id expression =>
    some ("Assignment", [("id", .child id), ("expression", .child expression)])
  | .printStatement expression => some ("PrintStatement", [("expression", .child expression)])
  | .whileStatement expression body =>
    some ("WhileStatement", [("expression", .child expression), ("block", .child body)])
  | .numeral value => some ("Numeral", [("value", .raw value)])
  | .booleanLiteral value => some ("BooleanLiteral", [("value", .truth value)])
  | .identifier name => some ("Identifier", [("name", .raw name)])
  | .unary operator expression =>
    some ("UnaryExpression", [("operator", .raw operator), ("expression", .child expression)])
  | .binary operator left right =>
    some ("BinaryExpression", [("operator", .raw operator), ("left", .child left),
      ("right", .child right)])
  | .conditional test consequent alternate =>
    some ("ConditionalExpression", [("test", .child test), ("consequent", .child consequent),
      ("alternate", .child alternate)])
  | .arrayLiteral elements => some ("ArrayLiteral", [("elements", .child elements)])
  | .subscript array index =>
    some ("SubscriptExpression", [("array", .child array), ("subscript", .child index)])
  | .call callee args => some ("Call", [("callee", .child callee), ("args", .child args)])

variable {tree : Ast} {name : String} {parts : List (String × Part)}

theorem nodeSlots?_of_node? (h : tree.node? = some (name, parts)) :
    nodeSlots? name = some (parts.map fun part => (part.1, part.2.slot)) := by
  cases tree <;> cases h <;> rfl

theorem encode_of_node? (h : tree.node? = some (name, parts)) :
    tree.encode =
      .object (("type", .string name) ::
        parts.map fun part => (Text.proper part.1, part.2.encode)) := by
  cases tree <;> cases h <;> rw [encode] <;> rfl

theorem node?_of_assemble {type : Option Json} {raw : String → Except DecodeError Json}
    {child : String → Except DecodeError Ast} (h : assemble type raw child = .ok tree) :
    ∃ name parts, tree.node? = some (name, parts) ∧ typeName? type = some name ∧
      ∀ part ∈ parts, part.2.IsRead (raw part.1) (child part.1) := by
  unfold assemble at h
  split at h
  case h_17 => cases h
  case h_1 named | h_2 named | h_6 named | h_8 named | h_9 named | h_10 named | h_14 named =>
    obtain ⟨first, read, h⟩ := bind_eq_ok.mp h
    cases h
    exact ⟨_, _, rfl, named, by simp [Part.IsRead, read]⟩
  case h_3 named | h_5 named | h_7 named | h_11 named | h_15 named | h_16 named =>
    obtain ⟨first, read, h⟩ := bind_eq_ok.mp h
    obtain ⟨second, readSecond, h⟩ := bind_eq_ok.mp h
    cases h
    exact ⟨_, _, rfl, named, by simp [Part.IsRead, read, readSecond]⟩
  case h_4 named | h_12 named | h_13 named =>
    obtain ⟨first, read, h⟩ := bind_eq_ok.mp h
    obtain ⟨second, readSecond, h⟩ := bind_eq_ok.mp h
    obtain ⟨third, readThird, h⟩ := bind_eq_ok.mp h
    cases h
    exact ⟨_, _, rfl, named, by simp [Part.IsRead, read, readSecond, readThird]⟩

end Ast

end DynamicScope
