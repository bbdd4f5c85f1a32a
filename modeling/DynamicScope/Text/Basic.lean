/-!
Texts of documents. A JSON string can hold a surrogate that stands alone, which no `String` can; such
a text is kept by its code points, every other one as a string. Writing the code points of a text
gives the text again, so two texts are equal exactly when their code points are.
-/

namespace DynamicScope

def isSurrogate (code : Nat) : Bool := 0xd800 ≤ code && code < 0xe000

inductive Text
  | proper (s : String)
  /-- A text with surrogates, by its code points. -/
  | broken (codes : List Nat)
  deriving DecidableEq

namespace Text

instance : Coe String Text := ⟨.proper⟩

instance : Inhabited Text := ⟨.proper ""⟩

def codes : Text → List Nat
  | .proper s => s.toList.map Char.toNat
  | .broken codes => codes

def ofCodes (codes : List Nat) : Text :=
  if codes.any isSurrogate then .broken codes else .proper (String.ofList (codes.map Char.ofNat))

def string? : Text → Option String
  | .proper s => some s
  | .broken _ => none

/-- The text with the replacement character for every surrogate. -/
def toString : Text → String
  | .proper s => s
  | .broken codes =>
    String.ofList (codes.map fun code => if isSurrogate code then '\ufffd' else Char.ofNat code)

def append : Text → Text → Text
  | .proper s, .proper t => .proper (s ++ t)
  | s, t => ofCodes (s.codes ++ t.codes)

def join (texts : List Text) : Text := texts.foldr append (.proper "")

def intercalate (separator : Text) : List Text → Text
  | [] => .proper ""
  | first :: rest => join (first :: rest.flatMap fun t => [separator, t])

def less (s t : Text) : Bool := s.codes.lex t.codes

theorem isSurrogate_toNat (c : Char) : isSurrogate c.toNat = false := by
  have valid : c.toNat < 0xd800 ∨ 0xdfff < c.toNat ∧ c.toNat < 0x110000 := c.valid
  simp only [isSurrogate, Bool.and_eq_false_iff, decide_eq_false_iff_not]
  omega

@[simp] theorem ofCodes_codes_proper (s : String) : ofCodes (codes (.proper s)) = .proper s := by
  have none : (s.toList.map Char.toNat).any isSurrogate = false := by
    simp [isSurrogate_toNat]
  simp [ofCodes, codes, none, Function.comp_def]

/-- Where the first surrogates of a text stand: the first one's code, its place, and the place after
the last one that follows it immediately. -/
structure SurrogateRun where
  code : Nat
  start : Nat
  stop : Nat
  deriving DecidableEq

def surrogateRun? (t : Text) : Option SurrogateRun :=
  let before := t.codes.takeWhile fun code => !isSurrogate code
  match t.codes.dropWhile fun code => !isSurrogate code with
  | [] => none
  | code :: rest =>
    some ⟨code, before.length, before.length + 1 + (rest.takeWhile isSurrogate).length⟩

end Text

end DynamicScope
