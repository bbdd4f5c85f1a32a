import DynamicScope.Ast.Codec

/-! Decoding undoes encoding, on every tree.
A node is written with its type in front, so decoding finds the same row of the sixteen and reads
back exactly the parts that were written. Raw parts are copied in both directions and never looked
into, so a numeral, a name or an operator may hold any document. -/

namespace DynamicScope

@[simp] theorem Text.proper_beq_proper (s t : String) :
    (Text.proper s == Text.proper t) = (s == t) := by
  rw [Bool.eq_iff_iff, beq_iff_eq, beq_iff_eq, Text.proper.injEq]

@[simp] theorem Json.isTrue_bool (b : Bool) : (Json.bool b).isTrue = b := rfl

namespace Ast

@[simp] theorem typeName?_string (s : String) :
    typeName? (some (.string (.proper s))) = some s := rfl

theorem childField_decodeFields (fields : List (Text × Json)) (name : String) :
    childField (decodeFields fields) name =
      match Json.field? fields name with
      | some part => decode part
      | none => .error (.missingField name) := by
  rw [childField, lookup_decodeFields]
  cases Json.field? fields name <;> rfl

theorem decode_object (fields : List (Text × Json)) :
    decode (.object fields) = assemble (Json.field? fields "type") (rawField fields) fun name =>
      match Json.field? fields name with
      | some part => decode part
      | none => .error (.missingField name) := by
  rw [decode]
  congr 1
  funext name
  exact childField_decodeFields fields name

mutual

theorem decode_encode (tree : Ast) : decode tree.encode = .ok tree := by
  cases tree with
  | scalar s => rfl
  | list items =>
    rw [encode, decode, decodeItems_encodeItems items]
    rfl
  | numeral value | booleanLiteral value | identifier value =>
    rw [encode, decode_object]
    simp [assemble, rawField, Json.field?, List.lookup_cons, bind, Except.bind, pure, Except.pure]
  | program part | block part | printStatement part | arrayLiteral part | unary operator part =>
    have back := decode_encode part
    rw [encode, decode_object]
    simp [assemble, rawField, Json.field?, List.lookup_cons, bind, Except.bind, pure, Except.pure,
      back]
  | variableDeclaration first second | assignment first second | whileStatement first second
  | subscript first second | call first second | binary operator first second =>
    have backFirst := decode_encode first
    have backSecond := decode_encode second
    rw [encode, decode_object]
    simp [assemble, rawField, Json.field?, List.lookup_cons, bind, Except.bind, pure, Except.pure,
      backFirst, backSecond]
  | functionDeclaration first second third | conditional first second third =>
    have backFirst := decode_encode first
    have backSecond := decode_encode second
    have backThird := decode_encode third
    rw [encode, decode_object]
    simp [assemble, Json.field?, List.lookup_cons, bind, Except.bind, pure, Except.pure,
      backFirst, backSecond, backThird]

theorem decodeItems_encodeItems (items : List Ast) :
    decodeItems (encodeItems items) = .ok items := by
  cases items with
  | nil => rfl
  | cons item items =>
    rw [encodeItems, decodeItems, decode_encode item, decodeItems_encodeItems items]
    rfl

end

/-- The document of a tree decodes, to this tree and to no other: the same classes, the same parts
in the same places and the same raw documents. -/
theorem decode_encode_eq_ok_iff (tree other : Ast) :
    decode tree.encode = .ok other ↔ tree = other := by
  rw [decode_encode, Except.ok.injEq]

end Ast

end DynamicScope
