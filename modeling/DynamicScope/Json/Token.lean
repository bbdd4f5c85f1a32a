import DynamicScope.Json.Basic
import DynamicScope.Number.Reader

/-!
The tokens of a JSON text, found one character at a time. A word is a longest run of characters that
are neither blank nor structural nor a quote; it is a literal, a number, or not a token at all. Every
text has tokens: what cannot be read becomes a token that no document has.
-/

namespace DynamicScope

inductive Token
  | openArray
  | closeArray
  | openObject
  | closeObject
  | comma
  | colon
  | scalar (s : Scalar)
  /-- An integer of more digits than are read. -/
  | oversized
  | invalid
  deriving DecidableEq

namespace Token

def integer (negative : Bool) (digits : List Char) : Token :=
  if integerDigitLimit < digits.length then .oversized
  else
    let n := Reading.digitsValue digits
    .scalar (.number (.integer (if negative then -(n : Int) else n)))

def wholeDigits : List Char → List Char × List Char
  | '0' :: rest => (['0'], rest)
  | text => (text.takeWhile Char.isDigit, text.dropWhile Char.isDigit)

def fractionDigits (text : List Char) : List Char × List Char :=
  match text with
  | '.' :: rest =>
    if rest.head?.any Char.isDigit then (rest.takeWhile Char.isDigit, rest.dropWhile Char.isDigit)
    else ([], text)
  | _ => ([], text)

def exponentPart (text : List Char) : Option Int × List Char :=
  match text with
  | mark :: rest =>
    let (negative, digits) := Reading.takeSign rest
    if (mark = 'e' ∨ mark = 'E') ∧ digits.head?.any Char.isDigit then
      let n := Reading.digitsValue (digits.takeWhile Char.isDigit)
      (some (if negative then -(n : Int) else n), digits.dropWhile Char.isDigit)
    else (none, text)
  | [] => (none, [])

def followedBy (t : Token) (rest : List Char) : List Token :=
  if rest.isEmpty then [t] else [t, .invalid]

/-- The tokens of a number without its sign: an integer unless there is a fraction or exponent. -/
def ofUnsigned (negative : Bool) (text : List Char) : List Token :=
  let (whole, afterWhole) := wholeDigits text
  let (fraction, afterFraction) := fractionDigits afterWhole
  let (exponent, rest) := exponentPart afterFraction
  if whole.isEmpty then [.invalid]
  else if fraction.isEmpty && exponent.isNone then followedBy (integer negative whole) rest
  else
    let d : Decimal := ⟨Reading.digitsValue (whole ++ fraction), exponent.getD 0 - fraction.length⟩
    followedBy (.scalar (.number (.double (d.toDouble negative)))) rest

def literals : List (List Char × Scalar) :=
  [("null".toList, .null), ("true".toList, .bool true), ("false".toList, .bool false),
    ("NaN".toList, .number (.double .nan)),
    ("Infinity".toList, .number (.double (.infinity false))),
    ("-Infinity".toList, .number (.double (.infinity true)))]

def ofWord (word : List Char) : List Token :=
  match literals.lookup word with
  | some s => [.scalar s]
  | none => match word with
    | '-' :: rest => ofUnsigned true rest
    | text => ofUnsigned false text

def structural? : Char → Option Token
  | '[' => some .openArray
  | ']' => some .closeArray
  | '\x7b' => some .openObject
  | '\x7d' => some .closeObject
  | ',' => some .comma
  | ':' => some .colon
  | _ => none

def isSpace (c : Char) : Bool := c = ' ' || c = '\n' || c = '\r' || c = '\t'

end Token

/-- The code points that were read, in which a pair of surrogates is one character. -/
def joinSurrogates : List Nat → List Nat
  | [] => []
  | [code] => [code]
  | high :: low :: rest =>
    if 0xd800 ≤ high ∧ high < 0xdc00 ∧ 0xdc00 ≤ low ∧ low < 0xe000 then
      (0x10000 + (high - 0xd800) * 0x400 + (low - 0xdc00)) :: joinSurrogates rest
    else high :: joinSurrogates (low :: rest)

/-- What the lexer is in the middle of. Characters and code points are kept in reverse. -/
inductive LexMode
  | between
  | word (chars : List Char)
  | string (codes : List Nat)
  | escape (codes : List Nat)
  | code (codes : List Nat) (value : Nat) (missing : Nat)

/-- The tokens found so far, in reverse, and the mode. -/
structure Lexer where
  found : List Token
  mode : LexMode

namespace Lexer

def start : Lexer := ⟨[], .between⟩

def fail (l : Lexer) : Lexer := ⟨.invalid :: l.found, .between⟩

def simpleEscapes : List (Char × Nat) :=
  [('"', 0x22), ('\\', 0x5c), ('/', 0x2f), ('b', 8), ('f', 12), ('n', 10), ('r', 13), ('t', 9)]

def hexDigit? (c : Char) : Option Nat :=
  if c.isDigit then some (c.toNat - '0'.toNat)
  else if 'a' ≤ c ∧ c ≤ 'f' then some (c.toNat - 'a'.toNat + 10)
  else if 'A' ≤ c ∧ c ≤ 'F' then some (c.toNat - 'A'.toNat + 10)
  else none

def endWord (l : Lexer) : Lexer :=
  match l.mode with
  | .word chars => ⟨(Token.ofWord chars.reverse).reverse ++ l.found, .between⟩
  | _ => l

def feedBetween (l : Lexer) (c : Char) : Lexer :=
  if Token.isSpace c then l
  else match Token.structural? c with
    | some t => ⟨t :: l.found, .between⟩
    | none => if c = '"' then ⟨l.found, .string []⟩ else ⟨l.found, .word [c]⟩

def feedWord (l : Lexer) (chars : List Char) (c : Char) : Lexer :=
  if Token.isSpace c ∨ (Token.structural? c).isSome ∨ c = '"' then l.endWord.feedBetween c
  else ⟨l.found, .word (c :: chars)⟩

def feedString (l : Lexer) (codes : List Nat) (c : Char) : Lexer :=
  if c = '"' then
    ⟨.scalar (.string (Text.ofCodes (joinSurrogates codes.reverse))) :: l.found, .between⟩
  else if c = '\\' then ⟨l.found, .escape codes⟩
  else if c.toNat < 0x20 then l.fail
  else ⟨l.found, .string (c.toNat :: codes)⟩

def feedEscape (l : Lexer) (codes : List Nat) (c : Char) : Lexer :=
  match simpleEscapes.lookup c with
  | some code => ⟨l.found, .string (code :: codes)⟩
  | none => if c = 'u' then ⟨l.found, .code codes 0 4⟩ else l.fail

def feedCode (l : Lexer) (codes : List Nat) (value missing : Nat) (c : Char) : Lexer :=
  match hexDigit? c with
  | some d =>
    if missing ≤ 1 then ⟨l.found, .string ((16 * value + d) :: codes)⟩
    else ⟨l.found, .code codes (16 * value + d) (missing - 1)⟩
  | none => l.fail

def feed (l : Lexer) (c : Char) : Lexer :=
  match l.mode with
  | .between => l.feedBetween c
  | .word chars => l.feedWord chars c
  | .string codes => l.feedString codes c
  | .escape codes => l.feedEscape codes c
  | .code codes value missing => l.feedCode codes value missing c

/-- The tokens at the end of the text; an open string is none. -/
def finish (l : Lexer) : List Token :=
  let l := l.endWord
  match l.mode with
  | .between => l.found.reverse
  | _ => (Token.invalid :: l.found).reverse

end Lexer

def tokens (text : List Char) : List Token := (text.foldl Lexer.feed Lexer.start).finish

end DynamicScope
