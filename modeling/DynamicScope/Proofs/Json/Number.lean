import DynamicScope.Json.Token
import DynamicScope.Proofs.Double.Rounding

/-! Numbers are read back as they were written.
A written number is one word, and the token of that word is the number: an integer has all of its
digits, and a double has the digits of its shortest numeral, set with a point or with an exponent.
-/

namespace DynamicScope

/-! ### Digits -/

namespace Reading

theorem digitsValue_append_zeros (digits : List Char) (zeros : Nat) :
    digitsValue (digits ++ List.replicate zeros '0') = digitsValue digits * 10 ^ zeros := by
  rw [digitsValue, Nat.ofDigitChars_append, Nat.ofDigitChars_replicate_zero, Nat.mul_comm]
  rfl

theorem digitsValue_zeros_append (zeros : Nat) (digits : List Char) :
    digitsValue (List.replicate zeros '0' ++ digits) = digitsValue digits := by
  rw [digitsValue, Nat.ofDigitChars_append, Nat.ofDigitChars_replicate_zero, Nat.mul_zero]
  rfl

theorem digitsValue_toDigits (n : Nat) : digitsValue (Nat.toDigits 10 n) = n :=
  Nat.ofDigitChars_ten_toDigits

end Reading

open Reading

abbrev Digits (text : List Char) : Prop := ∀ c ∈ text, c.isDigit = true

def NoDigit (text : List Char) : Prop := ∀ c rest, text = c :: rest → c.isDigit = false

theorem noDigit_nil : NoDigit [] := nofun

theorem noDigit_cons {c : Char} (h : c.isDigit = false) (rest : List Char) :
    NoDigit (c :: rest) := by
  rintro _ _ same
  cases same
  exact h

theorem digits_append {first second : List Char} (h : Digits first) (h' : Digits second) :
    Digits (first ++ second) := fun c listed => (List.mem_append.mp listed).elim (h c) (h' c)

theorem digits_replicate (zeros : Nat) : Digits (List.replicate zeros '0') := by
  intro c listed
  rw [List.eq_of_mem_replicate listed]
  rfl

theorem digits_toDigits (n : Nat) : Digits (Nat.toDigits 10 n) :=
  fun _ listed => Nat.isDigit_of_mem_toDigits (by decide) (by decide) listed

theorem takeWhile_digits {digits rest : List Char} (h : Digits digits) (stop : NoDigit rest) :
    (digits ++ rest).takeWhile Char.isDigit = digits := by
  rw [List.takeWhile_append_of_pos h]
  cases rest with
  | nil => rw [List.takeWhile_nil, List.append_nil]
  | cons c rest => rw [List.takeWhile_cons_of_neg (by simp [stop c rest rfl]), List.append_nil]

theorem dropWhile_digits {digits rest : List Char} (h : Digits digits) (stop : NoDigit rest) :
    (digits ++ rest).dropWhile Char.isDigit = rest := by
  rw [List.dropWhile_append_of_pos h]
  cases rest with
  | nil => rfl
  | cons c rest => exact List.dropWhile_cons_of_neg (by simp [stop c rest rfl])

/-- Digits of a whole number: a single zero, or digits of which the first is another. -/
structure Whole (digits : List Char) : Prop where
  all : Digits digits
  leading : digits = ['0'] ∨ ∃ c rest, digits = c :: rest ∧ c ≠ '0'

namespace Whole

theorem ne_nil {digits : List Char} (h : Whole digits) : digits ≠ [] := by
  rintro rfl
  rcases h.leading with same | ⟨c, rest, same, -⟩ <;> cases same

theorem singleton {c : Char} (h : c.isDigit = true) : Whole [c] := by
  refine ⟨fun d listed => ?_, ?_⟩
  · rw [List.mem_singleton.mp listed]
    exact h
  · by_cases zero : c = '0'
    · exact .inl (by rw [zero])
    · exact .inr ⟨c, [], rfl, zero⟩

theorem append {c : Char} {rest more : List Char} (h : Digits (c :: rest)) (nonzero : c ≠ '0')
    (h' : Digits more) : Whole (c :: rest ++ more) :=
  ⟨digits_append h h', .inr ⟨c, rest ++ more, rfl, nonzero⟩⟩

end Whole

theorem digitChar_ne_zero : ∀ {n : Nat}, n < 10 → n ≠ 0 → n.digitChar ≠ '0' := by decide

theorem whole_toDigits (n : Nat) : Whole (Nat.toDigits 10 n) := by
  refine ⟨digits_toDigits n, ?_⟩
  induction n using Nat.strongRecOn with
  | ind n ih =>
    by_cases small : n < 10
    · rw [Nat.toDigits_of_lt_base small]
      by_cases zero : n = 0
      · exact .inl (by rw [zero]; rfl)
      · exact .inr ⟨_, [], rfl, digitChar_ne_zero small zero⟩
    · rw [Nat.toDigits_of_base_le (by decide) (Nat.le_of_not_lt small)]
      rcases ih (n / 10) (by omega) with single | ⟨c, rest, same, nonzero⟩
      · have value := digitsValue_toDigits (n / 10)
        rw [single] at value
        have : n / 10 = 0 := value.symm
        omega
      · exact .inr ⟨c, rest ++ _, by rw [same]; rfl, nonzero⟩

/-! ### The token of a number -/

namespace Token

theorem wholeDigits_append {whole rest : List Char} (h : Whole whole) (stop : NoDigit rest) :
    wholeDigits (whole ++ rest) = (whole, rest) := by
  rcases h.leading with rfl | ⟨c, digits, rfl, nonzero⟩
  · rfl
  · rw [wholeDigits]
    · rw [takeWhile_digits h.all stop, dropWhile_digits h.all stop]
    · rintro rest' same
      cases same
      exact nonzero rfl

theorem fractionDigits_point {fraction rest : List Char} (h : Digits fraction)
    (nonempty : fraction ≠ []) (stop : NoDigit rest) :
    fractionDigits ('.' :: (fraction ++ rest)) = (fraction, rest) := by
  rw [fractionDigits, if_pos]
  · rw [takeWhile_digits h stop, dropWhile_digits h stop]
  · cases fraction with
    | nil => exact absurd rfl nonempty
    | cons c fraction => exact h c List.mem_cons_self

theorem fractionDigits_none {text : List Char} (h : ∀ rest, text ≠ '.' :: rest) :
    fractionDigits text = ([], text) := by
  unfold fractionDigits
  split
  · exact absurd rfl (h _)
  · rfl

theorem exponentPart_mark {mark : Char} {text digits : List Char} {below : Bool}
    (isMark : mark = 'e' ∨ mark = 'E') (sign : takeSign text = (below, digits))
    (h : Digits digits) (nonempty : digits ≠ []) :
    exponentPart (mark :: text) =
      (some (if below then -(digitsValue digits : Int) else digitsValue digits), []) := by
  have head : digits.head?.any Char.isDigit = true := by
    cases digits with
    | nil => exact absurd rfl nonempty
    | cons c digits => exact h c List.mem_cons_self
  have all : digits.takeWhile Char.isDigit = digits := by
    simpa using takeWhile_digits h noDigit_nil
  have none : digits.dropWhile Char.isDigit = [] := by
    simpa using dropWhile_digits h noDigit_nil
  rw [exponentPart, sign]
  simp [isMark, head, all, none]

variable (negative : Bool)

theorem ofUnsigned_whole {whole : List Char} (h : Whole whole) :
    ofUnsigned negative whole = [integer negative whole] := by
  have split := wholeDigits_append h noDigit_nil
  rw [List.append_nil] at split
  have none : fractionDigits [] = ([], []) := rfl
  rw [ofUnsigned, split]
  simp only [none, exponentPart]
  rw [if_neg (by simp [h.ne_nil])]
  rfl

theorem ofUnsigned_point {whole fraction : List Char} (h : Whole whole) (h' : Digits fraction)
    (nonempty : fraction ≠ []) :
    ofUnsigned negative (whole ++ '.' :: fraction) = [.scalar (.number (.double
      (Decimal.toDouble negative ⟨digitsValue (whole ++ fraction), -fraction.length⟩)))] := by
  have split := fractionDigits_point h' nonempty noDigit_nil
  rw [List.append_nil] at split
  rw [ofUnsigned, wholeDigits_append h (noDigit_cons rfl _)]
  simp only [split, exponentPart]
  rw [if_neg (by simp [h.ne_nil]), if_neg (by simp [nonempty])]
  simp [followedBy]

theorem ofUnsigned_exponent {whole fraction text digits : List Char} {mark : Char} {below : Bool}
    (h : Whole whole) (h' : Digits fraction) (isMark : mark = 'e' ∨ mark = 'E')
    (sign : takeSign text = (below, digits)) (exponent : Digits digits) (nonempty : digits ≠ []) :
    ofUnsigned negative (whole ++ ((if fraction = [] then [] else '.' :: fraction) ++
        mark :: text)) =
      [.scalar (.number (.double (Decimal.toDouble negative ⟨digitsValue (whole ++ fraction),
        (if below then -(digitsValue digits : Int) else digitsValue digits) -
          fraction.length⟩)))] := by
  have marked : NoDigit (mark :: text) := by
    rcases isMark with rfl | rfl <;> exact noDigit_cons rfl _
  have noPoint (rest : List Char) : mark :: text ≠ '.' :: rest := by
    rcases isMark with rfl | rfl <;> nofun
  have parts : fractionDigits ((if fraction = [] then [] else '.' :: fraction) ++ mark :: text) =
      (fraction, mark :: text) := by
    by_cases none : fraction = []
    · rw [if_pos none, none]
      exact fractionDigits_none noPoint
    · rw [if_neg none]
      exact fractionDigits_point h' none marked
  have stop : NoDigit ((if fraction = [] then [] else '.' :: fraction) ++ mark :: text) := by
    by_cases none : fraction = []
    · rw [if_pos none]
      exact marked
    · rw [if_neg none]
      exact noDigit_cons rfl _
  rw [ofUnsigned, wholeDigits_append h stop]
  simp only [parts, exponentPart_mark isMark sign exponent nonempty]
  rw [if_neg (by simp [h.ne_nil]), if_neg (by simp)]
  rfl

theorem ofWord_writeSigned {text : List Char} {c : Char} {rest : List Char}
    (same : text = c :: rest) (digit : c.isDigit = true) :
    ofWord (Layout.writeSigned negative text) = ofUnsigned negative text := by
  subst same
  have apart (d : Char) (other : d.isDigit = false) : (c == d) = false := by
    refine beq_false_of_ne ?_
    rintro rfl
    rw [digit] at other
    cases other
  have none : literals.lookup (Layout.writeSigned negative (c :: rest)) = none := by
    cases negative <;>
      simp [literals, List.lookup_cons, Layout.writeSigned, apart 'n' rfl, apart 't' rfl, apart 'f' rfl,
        apart 'N' rfl, apart 'I' rfl, apart '-' rfl]
  unfold ofWord
  rw [none]
  cases negative with
  | true => rfl
  | false =>
    have plain : Layout.writeSigned false (c :: rest) = c :: rest := rfl
    rw [plain]
    dsimp only
    split
    · rename_i same
      cases same
      cases digit
    · rfl

end Token

/-! ### Written numbers -/

namespace Layout

theorem trimZeros_append (digits : List Char) :
    ∃ zeros, digits = trimZeros digits ++ List.replicate zeros '0' := by
  let p : Char → Bool := fun c => c = '0'
  have zeros : digits.reverse.takeWhile p =
      List.replicate (digits.reverse.takeWhile p).length '0' :=
    List.eq_replicate_of_mem fun c listed => by
      simpa [p] using List.all_eq_true.mp List.all_takeWhile c listed
  have parts : digits.reverse.takeWhile p ++ digits.reverse.dropWhile p = digits.reverse :=
    List.takeWhile_append_dropWhile
  refine ⟨(digits.reverse.takeWhile p).length, ?_⟩
  calc
    digits = (digits.reverse.takeWhile p ++ digits.reverse.dropWhile p).reverse := by
      rw [parts, List.reverse_reverse]
    _ = trimZeros digits ++ (digits.reverse.takeWhile p).reverse := List.reverse_append
    _ = _ := by rw [zeros, List.reverse_replicate, List.length_replicate]

theorem trimZeros_toDigits {n : Nat} (nonzero : n ≠ 0) :
    ∃ c rest zeros, trimZeros (Nat.toDigits 10 n) = c :: rest ∧ c ≠ '0' ∧ Digits (c :: rest) ∧
      n = digitsValue (c :: rest) * 10 ^ zeros ∧
      (Nat.toDigits 10 n).length = rest.length + 1 + zeros := by
  obtain ⟨zeros, whole⟩ := trimZeros_append (Nat.toDigits 10 n)
  have value := digitsValue_toDigits n
  have digits := digits_toDigits n
  rcases (whole_toDigits n).leading with zero | ⟨c, rest, leading, other⟩
  · rw [zero] at value
    exact absurd value.symm nonzero
  cases trimmed : trimZeros (Nat.toDigits 10 n) with
  | nil =>
    rw [trimmed, leading] at whole
    cases zeros with
    | zero => cases whole
    | succ zeros =>
      cases whole
      exact absurd rfl other
  | cons c' rest' =>
    rw [trimmed] at whole
    have same : c' = c := by
      rw [leading] at whole
      exact (List.cons.inj whole).1.symm
    subst same
    refine ⟨c', rest', zeros, rfl, other, fun d listed => ?_, ?_, ?_⟩
    · rw [whole] at digits
      exact digits d (List.mem_append_left _ listed)
    · rw [whole, digitsValue_append_zeros] at value
      exact value.symm
    · rw [whole, List.length_append, List.length_replicate]
      rfl

variable (negative : Bool) {c : Char} {rest : List Char}

theorem ofUnsigned_positional (h : Digits (c :: rest)) (nonzero : c ≠ '0') (leading : Int) :
    Token.ofUnsigned negative (positional (c :: rest) leading) =
      [.scalar (.number (.double (Decimal.toDouble negative
        ⟨digitsValue (c :: rest), leading - rest.length⟩)))] := by
  cases leading with
  | negSucc k =>
    have point := Token.ofUnsigned_point negative (Whole.singleton (c := '0') rfl)
      (digits_append (digits_replicate k) h) (by simp)
    have zeros : ['0'] ++ (List.replicate k '0' ++ c :: rest) =
        List.replicate (k + 1) '0' ++ c :: rest := rfl
    rw [zeros, digitsValue_zeros_append] at point
    refine point.trans ?_
    have exponent : -((List.replicate k '0' ++ c :: rest).length : Int) =
        Int.negSucc k - rest.length := by
      simp only [List.length_append, List.length_replicate, List.length_cons]
      omega
    rw [exponent]
  | ofNat k =>
    by_cases short : (c :: rest).length ≤ k + 1
    · have point := Token.ofUnsigned_point negative
        (Whole.append h nonzero (digits_replicate (k + 1 - (c :: rest).length)))
        (Whole.singleton (c := '0') rfl).all (List.cons_ne_nil _ _)
      have text : positional (c :: rest) (.ofNat k) =
          (c :: rest ++ List.replicate (k + 1 - (c :: rest).length) '0') ++ '.' :: ['0'] := by
        rw [positional, List.take_of_length_le short, if_pos short]
      have zeros : c :: rest ++ List.replicate (k + 1 - (c :: rest).length) '0' ++ ['0'] =
          c :: rest ++ List.replicate (k + 1 - (c :: rest).length + 1) '0' := by
        rw [List.append_assoc, List.replicate_succ']
      rw [zeros, digitsValue_append_zeros, Decimal.toDouble_mul_pow] at point
      rw [text, point]
      have exponent : -(['0'].length : Int) + (k + 1 - (c :: rest).length + 1 : Nat) =
          Int.ofNat k - rest.length := by
        simp only [List.length_cons, List.length_nil, Int.ofNat_eq_natCast] at short ⊢
        omega
      rw [exponent]
    · have parts := List.take_append_drop (k + 1) (c :: rest)
      have long : k + 1 < (c :: rest).length := Nat.lt_of_not_le short
      have whole : Whole ((c :: rest).take (k + 1)) :=
        ⟨fun d listed => h d (List.mem_of_mem_take listed), .inr ⟨c, rest.take k, rfl, nonzero⟩⟩
      have fraction : Digits ((c :: rest).drop (k + 1)) :=
        fun d listed => h d (List.mem_of_mem_drop listed)
      have point := Token.ofUnsigned_point negative whole fraction
        (List.ne_nil_of_length_pos (by rw [List.length_drop]; omega))
      have text : positional (c :: rest) (.ofNat k) =
          (c :: rest).take (k + 1) ++ '.' :: (c :: rest).drop (k + 1) := by
        rw [positional, if_neg short, Nat.sub_eq_zero_of_le (Nat.le_of_lt long),
          List.replicate_zero, List.append_nil]
      rw [text, point, parts]
      have exponent : -(((c :: rest).drop (k + 1)).length : Int) = Int.ofNat k - rest.length := by
        rw [List.length_drop]
        simp only [List.length_cons, Int.ofNat_eq_natCast] at long ⊢
        omega
      rw [exponent]

theorem digits_padded (width n : Nat) :
    Digits (padded width n) ∧ padded width n ≠ [] ∧ digitsValue (padded width n) = n := by
  refine ⟨digits_append (digits_replicate _) (digits_toDigits n), ?_, ?_⟩
  · exact List.append_ne_nil_of_right_ne_nil _ Nat.toDigits_ne_nil
  · rw [padded, digitsValue_zeros_append, digitsValue_toDigits]

theorem ofUnsigned_scientific (layout : Layout) (h : Digits (c :: rest)) (leading : Int) :
    Token.ofUnsigned negative (layout.scientific (c :: rest) leading) =
      [.scalar (.number (.double (Decimal.toDouble negative
        ⟨digitsValue (c :: rest), leading - rest.length⟩)))] := by
  obtain ⟨all, nonempty, value⟩ := digits_padded layout.exponentWidth leading.natAbs
  have sign : takeSign ((if decide (leading < 0) then '-' else '+') ::
      padded layout.exponentWidth leading.natAbs) =
        (decide (leading < 0), padded layout.exponentWidth leading.natAbs) := by
    cases decide (leading < 0) <;> rfl
  have exponent := Token.ofUnsigned_exponent negative (Whole.singleton (h c List.mem_cons_self))
    (fun d listed => h d (List.mem_cons_of_mem _ listed) : Digits rest) (.inl rfl) sign all nonempty
  have text : layout.scientific (c :: rest) leading =
      [c] ++ ((if rest = [] then [] else '.' :: rest) ++
        'e' :: (if decide (leading < 0) then '-' else '+') ::
          padded layout.exponentWidth leading.natAbs) := by
    rw [scientific, List.append_assoc]
    cases rest <;> simp
  rw [text, exponent, value]
  have signed : (if decide (leading < 0) then -(leading.natAbs : Int) else leading.natAbs) =
      leading := by
    by_cases below : leading < 0
    · rw [if_pos (decide_eq_true below)]
      omega
    · rw [if_neg (by simp [below])]
      omega
  rw [signed]
  rfl

theorem ofUnsigned_writeDecimal (layout : Layout) {d : Decimal} (nonzero : d.digits ≠ 0) :
    Token.ofUnsigned negative (layout.writeDecimal d) =
      [.scalar (.number (.double (d.toDouble negative)))] := by
  obtain ⟨c, rest, zeros, trimmed, first, digits, value, length⟩ := trimZeros_toDigits nonzero
  have same : d.toDouble negative = Decimal.toDouble negative ⟨digitsValue (c :: rest),
      d.exponent + ((Nat.toDigits 10 d.digits).length - 1 : Nat) - rest.length⟩ := by
    have exponent : d.exponent + ((Nat.toDigits 10 d.digits).length - 1 : Nat) - rest.length =
        d.exponent + zeros := by omega
    rw [exponent, ← Decimal.toDouble_mul_pow, ← value]
  rw [writeDecimal, if_neg nonzero, trimmed, same]
  split
  · exact ofUnsigned_positional negative digits first _
  · exact ofUnsigned_scientific negative layout digits _

theorem ofUnsigned_writeMagnitude {units : Nat} (rep : Representable units) :
    Token.ofUnsigned negative (document.writeMagnitude units) =
      [.scalar (.number (.double (.finite negative units rep)))] := by
  by_cases zero : units = 0
  · subst zero
    exact Token.ofUnsigned_point negative (Whole.singleton (c := '0') rfl)
      (Whole.singleton (c := '0') rfl).all (List.cons_ne_nil _ _)
  · have read := Double.toDouble_shortest negative rep
    have digits : (Double.shortest units).digits ≠ 0 := by
      intro none
      rw [Decimal.toDouble, if_pos none] at read
      injection read with _ same
      exact zero same.symm
    rw [writeMagnitude, if_neg zero, ofUnsigned_writeDecimal negative document digits, read]

end Layout

namespace Token

theorem ofUnsigned_of_noDigit (negative : Bool) {text : List Char} (h : NoDigit text) :
    ofUnsigned negative text = [.invalid] := by
  have whole : wholeDigits text = ([], text) := by
    cases text with
    | nil => rfl
    | cons c rest =>
      have none : ¬ c.isDigit = true := by simp [h c rest rfl]
      rw [wholeDigits]
      · rw [List.takeWhile_cons_of_neg none, List.dropWhile_cons_of_neg none]
      · rintro _ same
        cases same
        exact none rfl
  rw [ofUnsigned, whole]
  rfl

theorem ofWord_of_ofUnsigned (negative : Bool) {text : List Char} {s : Scalar}
    (h : ofUnsigned negative text = [.scalar s]) :
    ofWord (Layout.writeSigned negative text) = [.scalar s] := by
  by_cases digit : ∃ c rest, text = c :: rest ∧ c.isDigit = true
  · obtain ⟨c, rest, same, digit⟩ := digit
    rw [ofWord_writeSigned negative same digit, h]
  · have none : NoDigit text := fun c rest same =>
      Bool.eq_false_iff.mpr fun yes => digit ⟨c, rest, same, yes⟩
    rw [ofUnsigned_of_noDigit negative none] at h
    cases h

theorem ofWord_write (x : Double) :
    ofWord (Layout.document.write x) = [.scalar (.number (.double x))] := by
  cases x with
  | nan => rfl
  | infinity negative => cases negative <;> rfl
  | finite negative units rep =>
    exact ofWord_of_ofUnsigned negative (Layout.ofUnsigned_writeMagnitude negative rep)

theorem ofWord_integerText {n : Int}
    (short : (Nat.toDigits 10 n.natAbs).length ≤ integerDigitLimit) :
    ofWord (integerText n) = [.scalar (.number (.integer n))] := by
  have signed : (if decide (n < 0) then -(n.natAbs : Int) else n.natAbs) = n := by
    by_cases below : n < 0
    · rw [if_pos (decide_eq_true below)]
      omega
    · rw [if_neg (by simp [below])]
      omega
  refine ofWord_of_ofUnsigned _ ?_
  rw [ofUnsigned_whole _ (whole_toDigits _), integer, if_neg (Nat.not_lt_of_le short)]
  simp only [digitsValue_toDigits, signed]

end Token

end DynamicScope
