import DynamicScope.Text.Basic
import DynamicScope.Text.Printable

/-!
Quoted texts in messages: between single quotes, or between double quotes when the text has a single
quote and no double one. The quote, the backslash and characters that are not printable are escaped,
and so are surrogates that stand alone.
-/

namespace DynamicScope

def hexadecimal (width n : Nat) : List Char :=
  let digits := Nat.toDigits 16 n
  List.replicate (width - digits.length) '0' ++ digits

namespace Quoted

def escapeCode (code : Nat) : List Char :=
  if code < 0x100 then '\\' :: 'x' :: hexadecimal 2 code
  else if code < 0x10000 then '\\' :: 'u' :: hexadecimal 4 code
  else '\\' :: 'U' :: hexadecimal 8 code

def escapeChar (quote c : Char) : List Char :=
  if c = quote ∨ c = '\\' then ['\\', c]
  else match c with
    | '\n' => ['\\', 'n']
    | '\r' => ['\\', 'r']
    | '\t' => ['\\', 't']
    | c => if isPrintable c then [c] else escapeCode c.toNat

def escape (quote : Char) (code : Nat) : List Char :=
  if isSurrogate code then escapeCode code else escapeChar quote (Char.ofNat code)

/-- The quote to write the code points with. -/
def quoteFor (codes : List Nat) : Char :=
  if codes.contains '\''.toNat && !codes.contains '"'.toNat then '"' else '\''

end Quoted

def Text.quoted (t : Text) : List Char :=
  let quote := Quoted.quoteFor t.codes
  quote :: (t.codes.flatMap (Quoted.escape quote) ++ [quote])

def Text.quotedString (t : Text) : String := String.ofList t.quoted

end DynamicScope
