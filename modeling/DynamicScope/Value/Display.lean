import DynamicScope.Value.Basic

/-!
The display text of a value. A function shows its parameter names; parameters that are malformed
trees have no names, and then the value has no text.
-/

namespace DynamicScope

namespace Ast

def name? : Ast → Except Failure Json
  | .identifier name => .ok name
  | tree => .error (.missingPart tree.className "name")

/-- The trees of a list; a string counts as the list of its characters. -/
def items? : Ast → Except Failure (List Ast)
  | .list items => .ok items
  | .scalar (.string t) => .ok (t.codes.map fun code => .scalar (.string (.ofCodes [code])))
  | tree => .error (.notAList tree.className)

def count? : Ast → Except Failure Nat
  | .list items => .ok items.length
  | .scalar (.string t) => .ok t.codes.length
  | tree => .error (.notCountable tree.className)

def parameterNames (parameters : Ast) : Except Failure (List Json) := do
  (← parameters.items?).mapM name?

end Ast

namespace Value

def nameTexts (position : Nat) : List Json → Except Failure (List Text)
  | [] => .ok []
  | .scalar (.string t) :: names => do return t :: (← nameTexts (position + 1) names)
  | name :: _ => .error (.parameterName position name.className)

def functionText (parameters : Ast) : Except Failure Text := do
  let names ← nameTexts 0 (← parameters.parameterNames)
  return .join ["<function (", .intercalate ", " names, ")>"]

def numberText : Number → Except Failure String
  | .double x => .ok (String.ofList x.display)
  | .integer n =>
    let digits := Nat.toDigits 10 n.natAbs
    if integerDigitLimit < digits.length then .error .oversizedInteger
    else .ok (String.ofList (Layout.writeSigned (n < 0) digits))

mutual

/-- The text of a value. -/
def toText : Value → Except Failure Text
  | .number n => do return .proper (← numberText n)
  | .boolean b => .ok (.proper (if b then "true" else "false"))
  | .array _ items => do return .join ["[", .intercalate ", " (← toTextAll items), "]"]
  | .builtin _ f => .ok (.proper s!"<builtin {f.name}>")
  | .function _ parameters _ => functionText parameters
  | .undefined => .ok "undefined"
  | .text s => .ok (.proper (Text.quotedString s))
  | .nothing => .ok "None"

def toTextAll : List Value → Except Failure (List Text)
  | [] => .ok []
  | item :: items => do
    let first ← toText item
    return first :: (← toTextAll items)

end

/-- The text of a value as it is written; a surrogate that stands alone cannot be. -/
def display (value : Value) : Except Failure String := do
  let text ← value.toText
  match text.surrogateRun? with
  | some run => .error (.unwritable run)
  | none => return text.toString

def displayAll (values : List Value) : Except Failure (List String) := values.mapM display

mutual

/-- The document that a value stands for, where functions and the undefined value have none. -/
def toJson : Value → Except Failure Json
  | .number n => .ok (.scalar (.number n))
  | .boolean b => .ok (.bool b)
  | .array _ items => do return .array (← toJsonAll items)
  | .text s => .ok (.string s)
  | .nothing => .ok .null
  | value => .error (.noDocument value.className)

def toJsonAll : List Value → Except Failure (List Json)
  | [] => .ok []
  | item :: items => do
    let first ← toJson item
    return first :: (← toJsonAll items)

end

end Value

end DynamicScope
