import DynamicScope.Ast.Codec
import DynamicScope.Proofs.Double.Closest
import DynamicScope.Proofs.Json.ReadBack
import DynamicScope.Run.Evaluate

/-! Numerals by the number written.
A number literal of a document stands for a rational number. It is read as a double if it has a fraction
or an exponent, and else as an integer, which becomes a double when the numeral is evaluated. Both ways
lead to the double nearest to the number. But only a real may be beyond the double range: an integer
that is too large for a double makes the evaluation fail, or even the reading. -/

namespace DynamicScope

namespace Reading

theorem pow_le_digitsValue {c : Char} {rest : List Char} (digit : c.isDigit = true)
    (nonzero : c ≠ '0') : 10 ^ rest.length ≤ digitsValue (c :: rest) := by
  have least : '0'.toNat ≤ c.toNat := (Char.isDigit_iff_toNat.mp digit).1
  have other : c.toNat ≠ '0'.toNat := fun same => nonzero (Char.toNat_inj.mp same)
  have positive : 0 < c.toNat - '0'.toNat := by omega
  rw [digitsValue, Nat.ofDigitChars_cons, Nat.ofDigitChars_eq_ofDigitChars_zero, Nat.mul_zero,
    Nat.zero_add]
  exact Nat.le_trans (Nat.le_mul_of_pos_right _ positive) (Nat.le_add_right ..)

end Reading

open Reading

/-- The exponent of a number literal: its mark, its sign, if there is one, and its digits. -/
structure NumberExponent where
  mark : Char
  sign : Option Bool
  digits : List Char
  isMark : mark = 'e' ∨ mark = 'E'
  all : Digits digits
  nonempty : digits ≠ []

namespace NumberExponent

def text (e : NumberExponent) : List Char :=
  e.mark :: match e.sign with
    | some true => '-' :: e.digits
    | some false => '+' :: e.digits
    | none => e.digits

def value (e : NumberExponent) : Int :=
  if e.sign = some true then -(digitsValue e.digits : Int) else digitsValue e.digits

end NumberExponent

/-- A number literal: a sign or none, the digits of a whole number, the digits after the point, if there
is one, and an exponent or none. -/
structure NumberLiteral where
  negative : Bool
  whole : List Char
  fraction : List Char
  exponent : Option NumberExponent
  isWhole : Whole whole
  isFraction : Digits fraction

namespace NumberLiteral

variable (l : NumberLiteral)

def magnitude : List Char :=
  l.whole ++ ((if l.fraction = [] then [] else '.' :: l.fraction) ++
    l.exponent.elim [] NumberExponent.text)

def text : List Char := Layout.writeSigned l.negative l.magnitude

def IsInteger : Prop := l.fraction = [] ∧ l.exponent = none

def decimal : Decimal :=
  ⟨digitsValue (l.whole ++ l.fraction), l.exponent.elim 0 NumberExponent.value - l.fraction.length⟩

def value : ℚ := (Double.signed l.negative l.decimal.digits : ℤ) * 10 ^ l.decimal.exponent

/-- Whether the literal spells an integer that is too large for a double. -/
def Overflows : Prop := l.IsInteger ∧ Double.overflowThreshold ≤ |l.value|

/-! ### Reading -/

def token : Token :=
  if l.fraction.isEmpty && l.exponent.isNone then Token.integer l.negative l.whole
  else .scalar (.number (.double (l.decimal.toDouble l.negative)))

theorem takeSign_exponent (e : NumberExponent) :
    e.text = e.mark :: e.text.tail ∧
      takeSign e.text.tail = (decide (e.sign = some true), e.digits) := by
  obtain ⟨mark, sign, digits, -, all, nonempty⟩ := e
  refine ⟨rfl, ?_⟩
  match sign with
  | some true => rfl
  | some false => rfl
  | none =>
    cases digits with
    | nil => exact absurd rfl nonempty
    | cons c digits =>
      have digit := all c List.mem_cons_self
      change takeSign (c :: digits) = (false, c :: digits)
      unfold takeSign
      split
      · rename_i same
        cases same
        cases digit
      · rename_i same
        cases same
        cases digit
      · rfl

theorem ofUnsigned_magnitude : Token.ofUnsigned l.negative l.magnitude = [l.token] := by
  obtain ⟨negative, whole, fraction, exponent, isWhole, isFraction⟩ := l
  cases exponent with
  | none =>
    by_cases none : fraction = []
    · subst none
      simpa [magnitude, token] using Token.ofUnsigned_whole negative isWhole
    · simpa [magnitude, token, none, decimal] using
        Token.ofUnsigned_point negative isWhole isFraction none
  | some e =>
    obtain ⟨marked, sign⟩ := takeSign_exponent e
    have read := Token.ofUnsigned_exponent negative isWhole isFraction e.isMark sign e.all e.nonempty
    rw [← marked] at read
    simpa [magnitude, token, decimal, NumberExponent.value] using read

theorem exists_magnitude : ∃ c rest, l.magnitude = c :: rest ∧ c.isDigit = true := by
  obtain ⟨c, rest, same⟩ := List.exists_cons_of_ne_nil l.isWhole.ne_nil
  refine ⟨c, _, by rw [magnitude, same, List.cons_append], l.isWhole.all c ?_⟩
  rw [same]
  exact List.mem_cons_self

theorem ofWord_text : Token.ofWord l.text = [l.token] := by
  obtain ⟨c, rest, same, digit⟩ := l.exists_magnitude
  rw [text, Token.ofWord_writeSigned l.negative same digit, ofUnsigned_magnitude]

theorem inWords_exponent (e : NumberExponent) : InWords e.text := by
  have digits : InWords e.digits := inWords_digits e.all
  have mark : InWord e.mark := by
    rcases e.isMark with same | same <;> rw [same] <;> decide
  refine List.forall_mem_cons.mpr ⟨mark, ?_⟩
  split
  · exact List.forall_mem_cons.mpr ⟨by decide, digits⟩
  · exact List.forall_mem_cons.mpr ⟨by decide, digits⟩
  · exact digits

theorem inWords_text : InWords l.text := by
  refine inWords_writeSigned (List.forall_mem_append.mpr
    ⟨inWords_digits l.isWhole.all, List.forall_mem_append.mpr ⟨?_, ?_⟩⟩)
  · split
    · exact fun c listed => absurd listed List.not_mem_nil
    · exact List.forall_mem_cons.mpr ⟨by decide, inWords_digits l.isFraction⟩
  · cases l.exponent with
    | none => exact fun c listed => absurd listed List.not_mem_nil
    | some e => exact inWords_exponent e

def opening : List Char := "\x7b\"type\": \"Numeral\", \"value\": ".toList

def opened : List Token :=
  [.colon, .scalar (.string "value"), .comma, .scalar (.string "Numeral"), .colon,
    .scalar (.string "type"), .openObject]

theorem foldl_opening : opening.foldl Lexer.feed Lexer.start = ⟨opened, .between⟩ := rfl

def numeralText : List Char := opening ++ (l.text ++ ['\x7d'])

theorem tokens_numeralText :
    tokens l.numeralText = opened.reverse ++ [l.token, .closeObject] := by
  have nonempty : l.text ≠ [] := by
    obtain ⟨c, rest, same, -⟩ := l.exists_magnitude
    rw [text, same]
    cases l.negative <;> nofun
  have settled := Lexer.settled_word l.inWords_text nonempty opened
  rw [ofWord_text] at settled
  have closed := Lexer.feed_structural_of_settled settled (c := '\x7d') rfl
  rw [tokens, numeralText, List.foldl_append, foldl_opening, List.foldl_append, List.foldl_cons,
    closed]
  rfl

theorem read_numeralText {s : Scalar} (h : l.token = .scalar s) :
    Json.read l.numeralText = .ok (.object [("type", .string "Numeral"), ("value", .scalar s)]) := by
  rw [Json.read, tokens_numeralText, h]
  rfl

theorem read_numeralText_oversized (h : l.token = .oversized) :
    Json.read l.numeralText = .error .oversizedInteger := by
  rw [Json.read, tokens_numeralText, h]
  rfl

theorem decode_numeral (document : Json) :
    Ast.decode (.object [("type", .string "Numeral"), ("value", document)]) =
      .ok (.numeral document) := by
  rfl

/-! ### Values -/

theorem isInteger_iff : (l.fraction.isEmpty && l.exponent.isNone) = true ↔ l.IsInteger := by
  rw [Bool.and_eq_true, List.isEmpty_iff, Option.isNone_iff_eq_none, IsInteger]

def integer : Int := Double.signed l.negative (digitsValue l.whole)

theorem value_of_isInteger {l : NumberLiteral} (h : l.IsInteger) : l.value = l.integer := by
  obtain ⟨noFraction, noExponent⟩ := h
  rw [value, decimal, noFraction, noExponent, List.append_nil, integer]
  simp

theorem overflows_iff {l : NumberLiteral} (h : l.IsInteger) :
    l.Overflows ↔ Double.overflowThreshold ≤ l.integer.natAbs := by
  have size : |l.value| = (l.integer.natAbs : ℚ) := by
    rw [value_of_isInteger h, Nat.cast_natAbs, Int.cast_abs]
  rw [Overflows, size, Nat.cast_le, and_iff_right h]

theorem overflowThreshold_le :
    ∃ digits ≤ integerDigitLimit, Double.overflowThreshold ≤ 10 ^ digits :=
  ⟨400, by decide, by decide +kernel⟩

theorem overflows_of_length {l : NumberLiteral} (h : l.IsInteger)
    (long : integerDigitLimit < l.whole.length) : l.Overflows := by
  obtain ⟨digits, few, large⟩ := overflowThreshold_le
  rw [overflows_iff h, integer, Double.natAbs_signed]
  refine Nat.le_trans large ?_
  rcases l.isWhole.leading with zero | ⟨c, rest, same, nonzero⟩
  · rw [zero] at long
    exact absurd long (by decide)
  · have digit : c.isDigit = true := l.isWhole.all c (same ▸ List.mem_cons_self)
    rw [same, List.length_cons] at long
    rw [same]
    exact Nat.le_trans (Nat.pow_le_pow_right (by decide) (by omega))
      (pow_le_digitsValue digit nonzero)

/-! ### Evaluation -/

/-- Whether the numeral is read, and comes to this wherever it is evaluated. -/
def Evaluates (outcome : Except NumberError Double) : Prop :=
  ∃ document tree, Json.read l.numeralText = .ok document ∧ Ast.decode document = .ok tree ∧
    ∀ (setup : Setup) (calls : Nat) (env : EnvRef) (w : World),
      (setup.evaluate calls env tree).run w = match outcome with
        | .ok x => .ok (.double x) w
        | .error e => .error (.number e) w

theorem evaluates_of_token {l : NumberLiteral} {n : Number} (h : l.token = .scalar (.number n)) :
    l.Evaluates n.toDouble := by
  refine ⟨_, _, l.read_numeralText h, decode_numeral _, fun setup calls env w => ?_⟩
  have evaluated : (setup.evaluate calls env (.numeral (.scalar (.number n)))).run w =
      (do return .double (← Machine.lift (Value.liftNumber n.toDouble)) : Machine Value).run w := by
    cases calls <;> rfl
  rw [evaluated]
  cases n.toDouble <;> rfl

theorem token_of_isInteger {l : NumberLiteral} (h : l.IsInteger) : l.token =
    if integerDigitLimit < l.whole.length then .oversized
    else .scalar (.number (.integer l.integer)) := by
  rw [token, if_pos (l.isInteger_iff.mpr h)]
  rfl

theorem exists_nearest {l : NumberLiteral} (within : ¬ l.Overflows) :
    ∃ x, l.Evaluates (.ok x) ∧ Double.Nearest l.value x := by
  by_cases h : l.IsInteger
  · have short : ¬ integerDigitLimit < l.whole.length :=
      fun long => within (overflows_of_length h long)
    have token := token_of_isInteger h
    rw [if_neg short] at token
    have fits : Double.ofInt? l.integer ≠ none :=
      mt Double.ofInt?_eq_none_iff.mp (mt (overflows_iff h).mpr within)
    obtain ⟨x, found⟩ := Option.ne_none_iff_exists'.mp fits
    have evaluated := evaluates_of_token token
    rw [Number.toDouble, found] at evaluated
    exact ⟨x, evaluated, value_of_isInteger h ▸ Double.nearest_ofInt? found⟩
  · have token : l.token = .scalar (.number (.double (l.decimal.toDouble l.negative))) :=
      if_neg (mt l.isInteger_iff.mp h)
    exact ⟨_, evaluates_of_token token, Double.nearest_toDouble l.decimal l.negative⟩

theorem evaluates_of_overflows {l : NumberLiteral} (h : l.Overflows)
    (short : ¬ integerDigitLimit < l.whole.length) : l.Evaluates (.error .integerTooLarge) := by
  have token := token_of_isInteger h.1
  rw [if_neg short] at token
  have evaluated := evaluates_of_token token
  rwa [Number.toDouble, Double.ofInt?_eq_none_iff.mpr ((overflows_iff h.1).mp h)] at evaluated

/-- The numeral of a literal comes to the double nearest to the number written, infinite beyond the
double range, however it is spelled: every literal of the same number comes to the same double, but for
the sign of a zero. The exception are integers that are too large for a double, which make the
evaluation fail, or with too many digits even the reading. -/
theorem evaluates_nearest :
    (¬ l.Overflows → ∃ x, l.Evaluates (.ok x) ∧ Double.Nearest l.value x ∧
      ∀ l' : NumberLiteral, l'.value = l.value → ¬ l'.Overflows →
        ∃ x', l'.Evaluates (.ok x') ∧ (x = x' ∨ x.isZero = true ∧ x'.isZero = true)) ∧
    (l.Overflows →
      (l.whole.length ≤ integerDigitLimit → l.Evaluates (.error .integerTooLarge)) ∧
      (integerDigitLimit < l.whole.length → Json.read l.numeralText = .error .oversizedInteger)) := by
  refine ⟨fun within => ?_, fun large => ⟨fun few => ?_, fun many => ?_⟩⟩
  · obtain ⟨x, evaluated, nearest⟩ := exists_nearest within
    refine ⟨x, evaluated, nearest, fun l' same within' => ?_⟩
    obtain ⟨x', evaluated', nearest'⟩ := exists_nearest within'
    exact ⟨x', evaluated', nearest.unique (same ▸ nearest')⟩
  · exact evaluates_of_overflows large (Nat.not_lt_of_le few)
  · have token := token_of_isInteger large.1
    rw [if_pos many] at token
    exact l.read_numeralText_oversized token

def powerOfTen (zeros : Nat) : NumberLiteral :=
  ⟨false, ['1'] ++ List.replicate zeros '0', [], none,
    Whole.append (Whole.singleton rfl).all (by decide) (digits_replicate zeros), nofun⟩

theorem text_powerOfTen (zeros : Nat) :
    (powerOfTen zeros).text = '1' :: List.replicate zeros '0' :=
  congrArg _ (List.append_nil _)

theorem integer_powerOfTen (zeros : Nat) : (powerOfTen zeros).integer = (10 ^ zeros : Nat) := by
  have digits : digitsValue (['1'] ++ List.replicate zeros '0') = 10 ^ zeros := by
    rw [digitsValue_append_zeros]
    exact Nat.one_mul _
  exact congrArg _ digits

/-- A one with 400 zeros is too large, where the same number as a real is infinite. -/
theorem evaluates_powerOfTen : (powerOfTen 400).text = '1' :: List.replicate 400 '0' ∧
    (powerOfTen 400).Evaluates (.error .integerTooLarge) ∧
    ∃ l : NumberLiteral, l.text = "1e400".toList ∧ l.value = (powerOfTen 400).value ∧
      l.Evaluates (.ok (.infinity false)) := by
  let l : NumberLiteral := ⟨false, ['1'], [],
    some ⟨'e', none, ['4', '0', '0'], .inl rfl, (whole_toDigits 400).all, nofun⟩,
    Whole.singleton rfl, nofun⟩
  have isInteger : (powerOfTen 400).IsInteger := ⟨rfl, rfl⟩
  have large : (powerOfTen 400).Overflows := by
    rw [overflows_iff isInteger, integer_powerOfTen, Int.natAbs_natCast]
    decide +kernel
  have short : ¬ integerDigitLimit < (powerOfTen 400).whole.length := by decide +kernel
  have infinite : l.token = .scalar (.number (.double (.infinity false))) := by decide +kernel
  refine ⟨text_powerOfTen 400, evaluates_of_overflows large short, l, rfl, ?_,
    evaluates_of_token infinite⟩
  rw [value_of_isInteger isInteger, integer_powerOfTen]
  have digits : l.decimal = ⟨1, (400 : Nat)⟩ := by decide +kernel
  have one : Double.signed l.negative 1 = 1 := rfl
  rw [value, digits, zpow_natCast, one, Int.cast_one, one_mul, Int.cast_natCast, Nat.cast_pow,
    Nat.cast_ofNat]

end NumberLiteral

end DynamicScope
