import DynamicScope.Double.Decimal

/-!
The decimal text of a double: the shortest digits that read back, in positional notation for
exponents from -4 to 15 and in scientific notation beyond, always with a point or an exponent.
-/

namespace DynamicScope

/-- How a format writes doubles: where positional notation begins and ends, how many digits an
exponent has at least, and the names of the special values. -/
structure Layout where
  positionalFrom : Int
  positionalBelow : Int
  exponentWidth : Nat
  nan : String
  infinity : String

def Layout.message : Layout := ⟨-4, 16, 2, "nan", "inf"⟩

def Layout.document : Layout := { Layout.message with nan := "NaN", infinity := "Infinity" }

namespace Layout

def positional (digits : List Char) : Int → List Char
  | .negSucc k => '0' :: '.' :: (List.replicate k '0' ++ digits)
  | .ofNat k =>
    digits.take (k + 1) ++ List.replicate (k + 1 - digits.length) '0' ++
      '.' :: (if digits.length ≤ k + 1 then ['0'] else digits.drop (k + 1))

def padded (width n : Nat) : List Char :=
  let digits := Nat.toDigits 10 n
  List.replicate (width - digits.length) '0' ++ digits

def scientific (layout : Layout) (digits : List Char) (leading : Int) : List Char :=
  digits.take 1 ++ (if digits.length ≤ 1 then [] else '.' :: digits.drop 1) ++
    'e' :: (if leading < 0 then '-' else '+') :: padded layout.exponentWidth leading.natAbs

def trimZeros (digits : List Char) : List Char :=
  (digits.reverse.dropWhile (· = '0')).reverse

def writeDecimal (layout : Layout) (d : Decimal) : List Char :=
  let digits := Nat.toDigits 10 d.digits
  let leading := d.exponent + (digits.length - 1 : Nat)
  let significant := if d.digits = 0 then digits else trimZeros digits
  if layout.positionalFrom ≤ leading ∧ leading < layout.positionalBelow then
    positional significant leading
  else layout.scientific significant leading

def writeMagnitude (layout : Layout) (units : Nat) : List Char :=
  layout.writeDecimal (if units = 0 then ⟨0, 0⟩ else Double.shortest units)

def writeSigned (negative : Bool) (text : List Char) : List Char :=
  if negative then '-' :: text else text

def write (layout : Layout) : Double → List Char
  | .nan => layout.nan.toList
  | .infinity negative => writeSigned negative layout.infinity.toList
  | .finite negative units _ => writeSigned negative (layout.writeMagnitude units)

end Layout

def integerText (n : Int) : List Char := Layout.writeSigned (n < 0) (Nat.toDigits 10 n.natAbs)

/-- The text of a printed double: integers below 10^21 in size have no point. -/
def Double.display (x : Double) : List Char :=
  match x.toInt? with
  | some n => if n.natAbs < 1000000000000000000000 then integerText n else Layout.document.write x
  | none => Layout.document.write x

end DynamicScope
