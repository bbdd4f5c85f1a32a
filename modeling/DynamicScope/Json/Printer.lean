import DynamicScope.Json.Basic

/-!
Writing a document, on one line or with one part a line. A text keeps all characters but the quote,
the backslash and the control characters, which are escaped.
-/

namespace DynamicScope

namespace Json

def escapeChar (c : Char) : List Char :=
  match c with
  | '"' => ['\\', '"']
  | '\\' => ['\\', '\\']
  | '\n' => ['\\', 'n']
  | '\r' => ['\\', 'r']
  | '\t' => ['\\', 't']
  | '\x08' => ['\\', 'b']
  | '\x0c' => ['\\', 'f']
  | c => if c.toNat < 0x20 then '\\' :: 'u' :: hexadecimal 4 c.toNat else [c]

def writeString (t : Text) : List Char := '"' :: (t.toString.toList.flatMap escapeChar ++ ['"'])

def writeScalar : Scalar → List Char
  | .null => "null".toList
  | .bool b => (if b then "true" else "false").toList
  | .number (.integer n) => integerText n
  | .number (.double x) => Layout.document.write x
  | .string t => writeString t

/-- How parts are set: on one line, or each on a line of its own with so many blanks a level. -/
inductive Setting
  | oneLine
  | lines (indent : Nat)

namespace Setting

def margin (setting : Setting) (level : Nat) : List Char :=
  match setting with
  | .oneLine => []
  | .lines indent => '\n' :: List.replicate (indent * level) ' '

def gap (setting : Setting) (level : Nat) : List Char :=
  match setting with
  | .oneLine => [' ']
  | .lines _ => setting.margin level

end Setting

mutual

/-- The text of a document whose parts are at the level after `level`. -/
def write (setting : Setting) (level : Nat) : Json → List Char
  | .scalar s => writeScalar s
  | .array [] => ['[', ']']
  | .array (item :: items) =>
    '[' :: (setting.margin (level + 1) ++ write setting (level + 1) item ++
      writeItems setting level items)
  | .object [] => ['\x7b', '\x7d']
  | .object ((key, value) :: fields) =>
    '\x7b' :: (setting.margin (level + 1) ++ writeString key ++ ':' :: ' ' ::
      write setting (level + 1) value ++ writeFields setting level fields)

def writeItems (setting : Setting) (level : Nat) : List Json → List Char
  | [] => setting.margin level ++ [']']
  | item :: items =>
    ',' :: (setting.gap (level + 1) ++ write setting (level + 1) item ++
      writeItems setting level items)

def writeFields (setting : Setting) (level : Nat) : List (Text × Json) → List Char
  | [] => setting.margin level ++ ['\x7d']
  | (key, value) :: fields =>
    ',' :: (setting.gap (level + 1) ++ writeString key ++ ':' :: ' ' ::
      write setting (level + 1) value ++ writeFields setting level fields)

end

def compact (document : Json) : String := String.ofList (document.write .oneLine 0)

def indented (document : Json) : String := String.ofList (document.write (.lines 2) 0)

end Json

end DynamicScope
