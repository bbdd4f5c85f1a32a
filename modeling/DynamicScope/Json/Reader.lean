import DynamicScope.Json.Token

/-!
Reading a document from the tokens of a text. The reader keeps the arrays and objects that are still
open on a stack and takes one token at a time; the first token that does not fit decides the error.
-/

namespace DynamicScope

inductive ReadError
  | malformed
  | oversizedInteger
  deriving DecidableEq

/-- An array or object that is still open. Items are kept in reverse. -/
inductive OpenPart
  | array (items : List Json)
  | object (fields : List (Text × Json))
  | field (fields : List (Text × Json)) (key : Text)

inductive Due
  | value
  | valueOrClose
  | key
  | keyOrClose
  | colon (key : Text)
  | separator (complete : Json)

inductive JsonReader
  | reading (parts : List OpenPart) (due : Due)
  | failed (e : ReadError)

namespace JsonReader

def start : JsonReader := .reading [] .value

def malformed : JsonReader := .failed .malformed

def takeValue (parts : List OpenPart) : Token → JsonReader
  | .openArray => .reading (.array [] :: parts) .valueOrClose
  | .openObject => .reading (.object [] :: parts) .keyOrClose
  | .scalar s => .reading parts (.separator (.scalar s))
  | .oversized => .failed .oversizedInteger
  | _ => malformed

def takeKey (parts : List OpenPart) : Token → JsonReader
  | .scalar (.string key) => .reading parts (.colon key)
  | _ => malformed

def takeSeparator (complete : Json) : List OpenPart → Token → JsonReader
  | .array items :: parts, .comma => .reading (.array (complete :: items) :: parts) .value
  | .array items :: parts, .closeArray =>
    .reading parts (.separator (.array (complete :: items).reverse))
  | .field fields key :: parts, .comma =>
    .reading (.object (Json.setField fields key complete) :: parts) .key
  | .field fields key :: parts, .closeObject =>
    .reading parts (.separator (.object (Json.setField fields key complete)))
  | _, _ => malformed

def step : JsonReader → Token → JsonReader
  | .failed e, _ => .failed e
  | .reading parts .value, t => takeValue parts t
  | .reading (.array _ :: parts) .valueOrClose, .closeArray =>
    .reading parts (.separator (.array []))
  | .reading parts .valueOrClose, t => takeValue parts t
  | .reading (.object _ :: parts) .keyOrClose, .closeObject =>
    .reading parts (.separator (.object []))
  | .reading parts .keyOrClose, t => takeKey parts t
  | .reading parts .key, t => takeKey parts t
  | .reading (.object fields :: parts) (.colon key), .colon =>
    .reading (.field fields key :: parts) .value
  | .reading _ (.colon _), _ => malformed
  | .reading parts (.separator complete), t => takeSeparator complete parts t

def result : JsonReader → Except ReadError Json
  | .reading [] (.separator document) => .ok document
  | .reading _ _ => .error .malformed
  | .failed e => .error e

end JsonReader

def Json.read (text : List Char) : Except ReadError Json :=
  ((tokens text).foldl JsonReader.step JsonReader.start).result

def Json.parse (text : String) : Except ReadError Json := Json.read text.toList

end DynamicScope
