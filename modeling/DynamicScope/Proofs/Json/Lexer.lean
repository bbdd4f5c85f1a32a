import DynamicScope.Json.Printer
import DynamicScope.Json.Reader
import DynamicScope.Proofs.Json.Number

/-! The tokens of a written document.
A written document has the tokens that its parts call for, however it is set. A number or a literal
is only a token once the character after it is seen, so what is followed is the lexer as it would be
if the word ended here. -/

namespace DynamicScope

/-! ### Words -/

def InWord (c : Char) : Prop :=
  Token.isSpace c = false ∧ Token.structural? c = none ∧ c ≠ '"'

instance : DecidablePred InWord := fun _ => inferInstanceAs (Decidable (_ ∧ _ ∧ _))

theorem inWord_of_isDigit {c : Char} (h : c.isDigit = true) : InWord c := by
  have apart (d : Char) (other : d.isDigit = false) : c ≠ d := by
    rintro rfl
    rw [h] at other
    cases other
  refine ⟨?_, ?_, apart '"' rfl⟩
  · simp [Token.isSpace, apart ' ' rfl, apart '\n' rfl, apart '\r' rfl, apart '\t' rfl]
  · unfold Token.structural?
    split <;> first | rfl | cases h

/-- Words that the lexer takes as one. -/
abbrev InWords (text : List Char) : Prop := ∀ c ∈ text, InWord c

theorem inWords_of_all {text : List Char} (h : text.all fun c => decide (InWord c)) :
    InWords text := fun c listed => of_decide_eq_true (List.all_eq_true.mp h c listed)

theorem inWords_digits {text : List Char} (h : Digits text) : InWords text :=
  fun c listed => inWord_of_isDigit (h c listed)

theorem inWords_writeSigned {negative : Bool} {text : List Char} (h : InWords text) :
    InWords (Layout.writeSigned negative text) := by
  cases negative with
  | false => exact h
  | true => exact List.forall_mem_cons.mpr ⟨by decide, h⟩

namespace Layout

theorem inWords_positional {digits : List Char} (h : Digits digits) (leading : Int) :
    InWords (positional digits leading) := by
  have zeros (k : Nat) : InWords (List.replicate k '0') := inWords_digits (digits_replicate k)
  cases leading with
  | negSucc k =>
    simp only [positional, List.forall_mem_cons, List.forall_mem_append]
    exact ⟨by decide, by decide, zeros k, inWords_digits h⟩
  | ofNat k =>
    simp only [positional, List.forall_mem_cons, List.forall_mem_append]
    refine ⟨⟨fun c listed => inWords_digits h c (List.mem_of_mem_take listed), zeros _⟩,
      by decide, ?_⟩
    split
    · exact zeros 1
    · exact fun c listed => inWords_digits h c (List.mem_of_mem_drop listed)

theorem inWords_scientific (layout : Layout) {digits : List Char} (h : Digits digits)
    (leading : Int) : InWords (layout.scientific digits leading) := by
  simp only [scientific, List.forall_mem_cons, List.forall_mem_append]
  refine ⟨⟨fun c listed => inWords_digits h c (List.mem_of_mem_take listed), ?_⟩, by decide, ?_,
    inWords_digits (digits_padded _ _).1⟩
  · split
    · exact fun c listed => absurd listed List.not_mem_nil
    · exact List.forall_mem_cons.mpr
        ⟨by decide, fun c listed => inWords_digits h c (List.mem_of_mem_drop listed)⟩
  · split <;> decide

theorem inWords_writeDecimal (layout : Layout) (d : Decimal) : InWords (layout.writeDecimal d) := by
  have all : Digits (if d.digits = 0 then Nat.toDigits 10 d.digits
      else trimZeros (Nat.toDigits 10 d.digits)) := by
    split
    · exact digits_toDigits _
    · intro c listed
      obtain ⟨zeros, whole⟩ := trimZeros_append (Nat.toDigits 10 d.digits)
      refine digits_toDigits d.digits c ?_
      rw [whole]
      exact List.mem_append_left _ listed
  rw [writeDecimal]
  split
  · exact inWords_positional all _
  · exact inWords_scientific layout all _

theorem inWords_write (x : Double) : InWords (document.write x) := by
  cases x with
  | nan => exact inWords_of_all rfl
  | infinity negative => cases negative <;> exact inWords_of_all rfl
  | finite negative units rep => exact inWords_writeSigned (inWords_writeDecimal document _)

end Layout

theorem inWords_integerText (n : Int) : InWords (integerText n) :=
  inWords_writeSigned (inWords_digits (digits_toDigits _))

/-! ### The lexer between tokens -/

namespace Lexer

open Token

/-- Whether the lexer has found these tokens, in reverse, if the word it may be in ends here. -/
def Settled (l : Lexer) (found : List Token) : Prop := l.endWord = ⟨found, .between⟩

theorem settled_between (found : List Token) : Settled ⟨found, .between⟩ found := rfl

theorem feed_of_settled {l : Lexer} {found : List Token} {c : Char} (h : l.Settled found)
    (breaks : ¬ InWord c) : l.feed c = (⟨found, .between⟩ : Lexer).feed c := by
  obtain ⟨tokens, mode⟩ := l
  cases mode with
  | between =>
    cases h
    rfl
  | word chars =>
    have ends : isSpace c ∨ (structural? c).isSome ∨ c = '"' := by
      refine Decidable.byContradiction fun none => breaks ?_
      simpa [InWord] using none
    have fed : (⟨tokens, .word chars⟩ : Lexer).feed c =
        (⟨tokens, .word chars⟩ : Lexer).endWord.feedBetween c := if_pos ends
    rw [fed, h]
    rfl
  | string codes => cases h
  | escape codes => cases h
  | code codes value missing => cases h

theorem foldl_of_settled {l : Lexer} {found : List Token} {c : Char} {text : List Char}
    (h : l.Settled found) (breaks : ¬ InWord c) :
    (c :: text).foldl feed l = (c :: text).foldl feed ⟨found, .between⟩ := by
  rw [List.foldl_cons, List.foldl_cons, feed_of_settled h breaks]

theorem foldl_word {text : List Char} (h : InWords text) (found : List Token) (chars : List Char) :
    text.foldl feed ⟨found, .word chars⟩ = ⟨found, .word (text.reverse ++ chars)⟩ := by
  induction text generalizing chars with
  | nil => rfl
  | cons c text ih =>
    obtain ⟨⟨space, structural, quote⟩, others⟩ := List.forall_mem_cons.mp h
    have fed : (⟨found, .word chars⟩ : Lexer).feed c = ⟨found, .word (c :: chars)⟩ :=
      if_neg (by simp [space, structural, quote])
    rw [List.foldl_cons, fed, ih others, List.reverse_cons, List.append_assoc]
    rfl

theorem settled_word {text : List Char} (h : InWords text) (nonempty : text ≠ [])
    (found : List Token) :
    Settled (text.foldl feed ⟨found, .between⟩) ((ofWord text).reverse ++ found) := by
  cases text with
  | nil => exact absurd rfl nonempty
  | cons c text =>
    obtain ⟨⟨space, structural, quote⟩, others⟩ := List.forall_mem_cons.mp h
    have fed : (⟨found, .between⟩ : Lexer).feed c = ⟨found, .word [c]⟩ := by
      simp [feed, feedBetween, space, structural, quote]
    rw [List.foldl_cons, fed, foldl_word others, Settled, endWord]
    simp

theorem feed_structural {c : Char} {t : Token} (h : structural? c = some t) (found : List Token) :
    (⟨found, .between⟩ : Lexer).feed c = ⟨t :: found, .between⟩ := by
  have space : isSpace c = false := by
    unfold structural? at h
    split at h <;> first | rfl | cases h
  simp [feed, feedBetween, space, h]

theorem foldl_spaces {text : List Char} (h : ∀ c ∈ text, isSpace c = true) (found : List Token) :
    text.foldl feed ⟨found, .between⟩ = ⟨found, .between⟩ := by
  induction text with
  | nil => rfl
  | cons c text ih =>
    obtain ⟨space, others⟩ := List.forall_mem_cons.mp h
    have fed : (⟨found, .between⟩ : Lexer).feed c = ⟨found, .between⟩ := if_pos space
    rw [List.foldl_cons, fed, ih others]

/-! ### Strings -/

theorem hexDigit?_digitChar : ∀ {d : Nat}, d < 16 → hexDigit? d.digitChar = some d := by decide

theorem hexadecimal_control : ∀ {n : Nat}, n < 32 →
    hexadecimal 4 n = ['0', '0', (n / 16).digitChar, (n % 16).digitChar] := by decide

theorem foldl_control {n : Nat} (h : n < 32) (found : List Token) (codes : List Nat) :
    ('\\' :: 'u' :: hexadecimal 4 n).foldl feed ⟨found, .string codes⟩ =
      ⟨found, .string (n :: codes)⟩ := by
  have high := hexDigit?_digitChar (show n / 16 < 16 by omega)
  have low := hexDigit?_digitChar (show n % 16 < 16 by omega)
  have zero : hexDigit? '0' = some 0 := rfl
  have value : 16 * (n / 16) + n % 16 = n := by omega
  have escape : simpleEscapes.lookup 'u' = none := rfl
  rw [hexadecimal_control h]
  simp [feed, feedString, feedEscape, feedCode, escape, zero, high, low, value]

theorem foldl_escapeChar (c : Char) (found : List Token) (codes : List Nat) :
    (Json.escapeChar c).foldl feed ⟨found, .string codes⟩ =
      ⟨found, .string (c.toNat :: codes)⟩ := by
  unfold Json.escapeChar
  split
  · rfl
  · rfl
  · rfl
  · rfl
  · rfl
  · rfl
  · rfl
  · rename_i quote backslash _ _ _ _ _
    split
    · rename_i control
      exact foldl_control control found codes
    · rename_i printable
      have fed : (⟨found, .string codes⟩ : Lexer).feed c = ⟨found, .string (c.toNat :: codes)⟩ := by
        simp only [feed, feedString, if_neg quote, if_neg backslash, if_neg printable]
      exact fed

theorem foldl_escaped (chars : List Char) (found : List Token) (codes : List Nat) :
    (chars.flatMap Json.escapeChar).foldl feed ⟨found, .string codes⟩ =
      ⟨found, .string ((chars.map Char.toNat).reverse ++ codes)⟩ := by
  induction chars generalizing codes with
  | nil => rfl
  | cons c chars ih =>
    rw [List.flatMap_cons, List.foldl_append, foldl_escapeChar, ih, List.map_cons,
      List.reverse_cons, List.append_assoc]
    rfl

theorem joinSurrogates_chars (chars : List Char) :
    joinSurrogates (chars.map Char.toNat) = chars.map Char.toNat := by
  match chars with
  | [] => rfl
  | [c] => rfl
  | c :: d :: chars =>
    have apart : ¬ (0xd800 ≤ c.toNat ∧ c.toNat < 0xdc00 ∧ 0xdc00 ≤ d.toNat ∧ d.toNat < 0xe000) := by
      have high := Text.isSurrogate_toNat c
      simp only [isSurrogate, Bool.and_eq_false_iff, decide_eq_false_iff_not] at high
      omega
    have rest := joinSurrogates_chars (d :: chars)
    simp only [List.map_cons] at rest ⊢
    rw [joinSurrogates, if_neg apart, rest]

theorem foldl_writeString (s : String) (found : List Token) :
    (Json.writeString (.proper s)).foldl feed ⟨found, .between⟩ =
      ⟨.scalar (.string (.proper s)) :: found, .between⟩ := by
  have opened : (⟨found, .between⟩ : Lexer).feed '"' = ⟨found, .string []⟩ := rfl
  have codes := Text.ofCodes_codes_proper s
  rw [Text.codes] at codes
  rw [Json.writeString, List.foldl_cons, opened, List.foldl_append, foldl_escaped, List.append_nil,
    Text.toString]
  change (⟨.scalar (.string (Text.ofCodes (joinSurrogates
    (s.toList.map Char.toNat).reverse.reverse))) :: found, .between⟩ : Lexer) = _
  rw [List.reverse_reverse, joinSurrogates_chars, codes]

end Lexer

end DynamicScope
