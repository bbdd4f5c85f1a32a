import DynamicScope.Number.Basic
import DynamicScope.Text.Blank
import DynamicScope.Text.DecimalDigit

/-!
Reading a double from free text: blanks around it, an optional sign, digits of any script with
single underscores between them, an optional fraction and exponent, or a name of infinity or NaN.
-/

namespace DynamicScope.Reading

/-- The text with every digit of another script replaced by its ASCII digit. -/
def asciiDigits (text : List Char) : List Char :=
  text.map fun c => match decimalDigit? c with
    | some d => Nat.digitChar d
    | none => c

def underscoresInside : Bool → List Char → Bool
  | _, [] => true
  | afterDigit, '_' :: rest =>
    afterDigit && (rest.head?.any Char.isDigit) && underscoresInside false rest
  | _, c :: rest => underscoresInside c.isDigit rest

def takeSign : List Char → Bool × List Char
  | '-' :: rest => (true, rest)
  | '+' :: rest => (false, rest)
  | text => (false, text)

def digitsValue (digits : List Char) : Nat := Nat.ofDigitChars 10 digits 0

def exponent? : List Char → Option Int
  | [] => some 0
  | mark :: rest =>
    let (negative, digits) := takeSign rest
    if (mark = 'e' ∨ mark = 'E') ∧ digits ≠ [] ∧ digits.all Char.isDigit then
      some (if negative then -(digitsValue digits : Int) else digitsValue digits)
    else none

def takeFraction : List Char → List Char × List Char
  | '.' :: rest => (rest.takeWhile Char.isDigit, rest.dropWhile Char.isDigit)
  | rest => ([], rest)

/-- A decimal numeral with at least one digit before or after the point. -/
def decimal? (text : List Char) : Option Decimal := do
  let whole := text.takeWhile Char.isDigit
  let (fraction, rest) := takeFraction (text.dropWhile Char.isDigit)
  if whole = [] ∧ fraction = [] then none
  else
    let exponent ← exponent? rest
    some ⟨digitsValue (whole ++ fraction), exponent - fraction.length⟩

def unsigned? (negative : Bool) (text : List Char) : Option Double :=
  let name := text.map Char.toLower
  if name = "inf".toList ∨ name = "infinity".toList then some (.infinity negative)
  else if name = "nan".toList then some .nan
  else if underscoresInside false text then
    (decimal? (text.filter (· ≠ '_'))).map (Decimal.toDouble negative)
  else none

def trimBlanks (text : List Char) : List Char :=
  ((text.dropWhile isBlank).reverse.dropWhile isBlank).reverse

def double? (text : List Char) : Option Double :=
  let (negative, rest) := takeSign (asciiDigits (trimBlanks text))
  unsigned? negative rest

end DynamicScope.Reading
