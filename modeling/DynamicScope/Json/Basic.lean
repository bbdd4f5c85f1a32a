import DynamicScope.Number.Basic
import DynamicScope.Text.Quoted

/-!
JSON documents. Integers are kept apart from reals, and the fields of an object keep their order.
A document has a truth value, a class name and a spelling in messages, and every scalar has a key:
scalars are equal when their keys are, so 1, 1.0 and true are.
-/

namespace DynamicScope

inductive Scalar
  | null
  | bool (b : Bool)
  | number (n : Number)
  | string (t : Text)
  deriving DecidableEq

inductive Json
  | scalar (s : Scalar)
  | array (items : List Json)
  | object (fields : List (Text × Json))

instance : Inhabited Json := ⟨.scalar .null⟩

namespace Scalar

def className : Scalar → String
  | .null => "NoneType"
  | .bool _ => "bool"
  | .number (.integer _) => "int"
  | .number (.double _) => "float"
  | .string _ => "str"

def isTrue : Scalar → Bool
  | .null => false
  | .bool b => b
  | .number n => !n.isZero
  | .string t => t ≠ .proper ""

def spelled : Scalar → List Char
  | .null => "None".toList
  | .bool b => (if b then "True" else "False").toList
  | .number (.integer n) => integerText n
  | .number (.double x) => Layout.message.write x
  | .string t => t.quoted

/-- Whether a scalar is no integer of more digits than are written. -/
def isShort : Scalar → Bool
  | .number (.integer n) => (Nat.toDigits 10 n.natAbs).length ≤ integerDigitLimit
  | _ => true

/-- What equal scalars have in common: a number or a boolean, which counts as one or zero, has its
place, and NaN is equal to itself. -/
inductive Key
  | null
  | number (place : Option Place)
  | text (t : Text)
  deriving DecidableEq

def key : Scalar → Key
  | .null => .null
  | .bool b => .number (Number.integer (if b then 1 else 0)).place?
  | .number n => .number n.place?
  | .string t => .text t

def same (a b : Scalar) : Bool := a.key = b.key

end Scalar

namespace Json

def null : Json := .scalar .null

def bool (b : Bool) : Json := .scalar (.bool b)

def string (t : Text) : Json := .scalar (.string t)

def field? (fields : List (Text × Json)) (key : Text) : Option Json := fields.lookup key

/-- The fields with one more: a repeated key keeps its first place and takes the last value. -/
def setField (fields : List (Text × Json)) (key : Text) (value : Json) :
    List (Text × Json) :=
  match fields with
  | [] => [(key, value)]
  | (k, v) :: rest => if k = key then (k, value) :: rest else (k, v) :: setField rest key value

@[elab_as_elim]
theorem inductionOnParts {P : Json → Prop} (scalar : ∀ s, P (.scalar s))
    (array : ∀ items, (∀ item ∈ items, P item) → P (.array items))
    (object : ∀ fields, (∀ field ∈ fields, P field.2) → P (.object fields)) : ∀ document, P document
  | .scalar s => scalar s
  | .array items => array items fun item listed =>
    have : sizeOf item < sizeOf items := List.sizeOf_lt_of_mem listed
    inductionOnParts scalar array object item
  | .object fields => object fields fun field listed =>
    have inside : sizeOf field < sizeOf fields := List.sizeOf_lt_of_mem listed
    have : sizeOf field.2 < sizeOf field := by
      obtain ⟨name, value⟩ := field
      simp only [Prod.mk.sizeOf_spec]
      omega
    inductionOnParts scalar array object field.2

def isTrue : Json → Bool
  | .scalar s => s.isTrue
  | .array items => !items.isEmpty
  | .object fields => !fields.isEmpty

def className : Json → String
  | .scalar s => s.className
  | .array _ => "list"
  | .object _ => "dict"

mutual

def spelled : Json → List Char
  | .scalar s => s.spelled
  | .array [] => ['[', ']']
  | .array (item :: items) => '[' :: (spelled item ++ spelledItems items)
  | .object [] => ['\x7b', '\x7d']
  | .object ((key, value) :: fields) =>
    '\x7b' :: (key.quoted ++ ':' :: ' ' :: (spelled value ++ spelledFields fields))

def spelledItems : List Json → List Char
  | [] => [']']
  | item :: items => ',' :: ' ' :: (spelled item ++ spelledItems items)

def spelledFields : List (Text × Json) → List Char
  | [] => ['\x7d']
  | (key, value) :: fields =>
    ',' :: ' ' :: (key.quoted ++ ':' :: ' ' :: (spelled value ++ spelledFields fields))

end

mutual

/-- Whether all integers in a document are short enough to be written. -/
def isShort : Json → Bool
  | .scalar s => s.isShort
  | .array items => isShortItems items
  | .object fields => isShortFields fields

def isShortItems : List Json → Bool
  | [] => true
  | item :: items => isShort item && isShortItems items

def isShortFields : List (Text × Json) → Bool
  | [] => true
  | (_, value) :: fields => isShort value && isShortFields fields

end

/-- The spelling of a document that stands for itself in a message: a string is not quoted. -/
def plain : Json → String
  | .scalar (.string t) => t.toString
  | document => String.ofList document.spelled

end Json

end DynamicScope
