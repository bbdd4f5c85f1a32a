import DynamicScope.Json.Reader
import DynamicScope.Proofs.Json.Number

/-! What holds of every part of a document.
A document that was read has no key twice in an object, and no integer of more digits than are read
again. -/

namespace DynamicScope

namespace Json

mutual

/-- Whether one property holds of all scalars and keys in a document, and another of the keys of
each object in it. -/
def Every (p : Scalar → Prop) (q : List Text → Prop) : Json → Prop
  | .scalar s => p s
  | .array items => EveryItem p q items
  | .object fields => q (fields.map Prod.fst) ∧ EveryField p q fields

def EveryItem (p : Scalar → Prop) (q : List Text → Prop) : List Json → Prop
  | [] => True
  | item :: items => item.Every p q ∧ EveryItem p q items

def EveryField (p : Scalar → Prop) (q : List Text → Prop) : List (Text × Json) → Prop
  | [] => True
  | (key, value) :: fields => p (.string key) ∧ value.Every p q ∧ EveryField p q fields

end

variable {p p' : Scalar → Prop} {q q' : List Text → Prop}

theorem everyItem_iff {items : List Json} :
    EveryItem p q items ↔ ∀ item ∈ items, item.Every p q := by
  induction items with
  | nil => simp [EveryItem]
  | cons item items ih => rw [EveryItem, ih, List.forall_mem_cons]

theorem everyField_iff {fields : List (Text × Json)} :
    EveryField p q fields ↔ ∀ field ∈ fields, p (.string field.1) ∧ field.2.Every p q := by
  induction fields with
  | nil => simp [EveryField]
  | cons field fields ih =>
    obtain ⟨key, value⟩ := field
    rw [EveryField, ih, List.forall_mem_cons, and_assoc]

mutual

theorem Every.mono (scalar : ∀ s, p s → p' s) (keys : ∀ names, q names → q' names) :
    (document : Json) → document.Every p q → document.Every p' q'
  | .scalar s, h => scalar s h
  | .array items, h => everyItem_mono scalar keys items h
  | .object fields, h => ⟨keys _ h.1, everyField_mono scalar keys fields h.2⟩

theorem everyItem_mono (scalar : ∀ s, p s → p' s) (keys : ∀ names, q names → q' names) :
    (items : List Json) → EveryItem p q items → EveryItem p' q' items
  | [], _ => trivial
  | item :: items, h => ⟨Every.mono scalar keys item h.1, everyItem_mono scalar keys items h.2⟩

theorem everyField_mono (scalar : ∀ s, p s → p' s) (keys : ∀ names, q names → q' names) :
    (fields : List (Text × Json)) → EveryField p q fields → EveryField p' q' fields
  | [], _ => trivial
  | (_, value) :: fields, h =>
    ⟨scalar _ h.1, Every.mono scalar keys value h.2.1, everyField_mono scalar keys fields h.2.2⟩

end

mutual

theorem Every.and : (document : Json) → document.Every p q → document.Every p' q' →
    document.Every (fun s => p s ∧ p' s) q
  | .scalar _, first, second => ⟨first, second⟩
  | .array items, first, second => everyItem_and items first second
  | .object fields, first, second => ⟨first.1, everyField_and fields first.2 second.2⟩

theorem everyItem_and : (items : List Json) → EveryItem p q items → EveryItem p' q' items →
    EveryItem (fun s => p s ∧ p' s) q items
  | [], _, _ => trivial
  | item :: items, first, second =>
    ⟨Every.and item first.1 second.1, everyItem_and items first.2 second.2⟩

theorem everyField_and : (fields : List (Text × Json)) → EveryField p q fields →
    EveryField p' q' fields → EveryField (fun s => p s ∧ p' s) q fields
  | [], _, _ => trivial
  | (_, value) :: fields, first, second =>
    ⟨⟨first.1, second.1⟩, Every.and value first.2.1 second.2.1,
      everyField_and fields first.2.2 second.2.2⟩

end

end Json

def Scalar.Short (s : Scalar) : Prop := s.isShort = true

namespace Json

mutual

theorem isShort_of_every : (document : Json) → document.Every Scalar.Short q →
    document.isShort = true
  | .scalar _, h => h
  | .array items, h => isShortItems_of_every items h
  | .object fields, h => isShortFields_of_every fields h.2

theorem isShortItems_of_every : (items : List Json) → EveryItem Scalar.Short q items →
    isShortItems items = true
  | [], _ => rfl
  | item :: items, h => by
    rw [isShortItems, isShort_of_every item h.1, isShortItems_of_every items h.2]
    rfl

theorem isShortFields_of_every : (fields : List (Text × Json)) →
    EveryField Scalar.Short q fields → isShortFields fields = true
  | [], _ => rfl
  | (_, value) :: fields, h => by
    rw [isShortFields, isShort_of_every value h.2.1, isShortFields_of_every fields h.2.2]
    rfl

end

end Json

/-! ### Tokens -/

namespace Token

/-- Whether a token is no oversized integer in disguise. -/
def Short : Token → Prop
  | .scalar s => s.Short
  | _ => True

theorem digitsValue_lt {digits : List Char} (h : Digits digits) :
    Reading.digitsValue digits < 10 ^ digits.length := by
  induction digits with
  | nil => exact Nat.one_pos
  | cons c digits ih =>
    obtain ⟨digit, others⟩ := List.forall_mem_cons.mp h
    have small : c.toNat - '0'.toNat ≤ 9 := by
      simp only [Char.isDigit, Bool.and_eq_true, decide_eq_true_eq] at digit
      have top : c.toNat ≤ 57 := digit.2
      have zero : '0'.toNat = 48 := rfl
      omega
    have rest := ih others
    rw [Reading.digitsValue] at rest ⊢
    rw [Nat.ofDigitChars_cons, Nat.ofDigitChars_eq_ofDigitChars_zero, List.length_cons,
      Nat.pow_succ, Nat.mul_zero, Nat.zero_add]
    have scaled := Nat.mul_le_mul_left (10 ^ digits.length) small
    omega

theorem digits_wholeDigits (text : List Char) : Digits (wholeDigits text).1 := by
  unfold wholeDigits
  split
  · exact (Whole.singleton (c := '0') rfl).all
  · exact fun c listed => List.all_eq_true.mp List.all_takeWhile c listed

theorem short_integer {digits : List Char} (h : Digits digits) (nonempty : digits ≠ [])
    (negative : Bool) : (integer negative digits).Short := by
  unfold integer
  split
  · trivial
  · rename_i fits
    have positive : 0 < digits.length := List.length_pos_iff.mpr nonempty
    have short := (Nat.length_toDigits_le_iff (by decide) positive).mpr (digitsValue_lt h)
    have size : ((if negative then -(Reading.digitsValue digits : Int)
        else Reading.digitsValue digits) : Int).natAbs = Reading.digitsValue digits := by
      cases negative <;> simp
    refine decide_eq_true ?_
    rw [size]
    exact Nat.le_trans short (Nat.le_of_not_lt fits)

theorem short_followedBy {t : Token} (h : t.Short) (rest : List Char) :
    ∀ t' ∈ followedBy t rest, t'.Short := by
  unfold followedBy
  split
  · simpa using h
  · simpa [Short] using h

theorem short_ofUnsigned (negative : Bool) (text : List Char) :
    ∀ t ∈ ofUnsigned negative text, t.Short := by
  have digits := digits_wholeDigits text
  unfold ofUnsigned
  dsimp only
  split
  · simp [Short]
  · rename_i nonempty
    split
    · exact short_followedBy (short_integer digits (by simpa using nonempty) negative) _
    · exact short_followedBy (show (Token.scalar (.number (.double _))).Short from rfl) _

theorem short_ofWord (word : List Char) : ∀ t ∈ ofWord word, t.Short := by
  unfold ofWord
  split
  · rename_i s found
    obtain ⟨before, after, same, -⟩ := List.lookup_eq_some_iff.mp found
    have listed : (word, s) ∈ literals := by
      rw [same]
      exact List.mem_append_right _ List.mem_cons_self
    have all : ∀ literal ∈ literals, literal.2.Short := by
      simp [literals, Scalar.Short, Scalar.isShort]
    exact List.forall_mem_singleton.mpr (all _ listed)
  · split
    · exact short_ofUnsigned true _
    · exact short_ofUnsigned false _

end Token

namespace Lexer

/-- Whether all tokens found so far are short. -/
def Short (l : Lexer) : Prop := ∀ t ∈ l.found, t.Short

theorem short_push {found : List Token} (h : ∀ t ∈ found, t.Short) {t : Token} (short : t.Short) :
    ∀ t' ∈ t :: found, t'.Short := List.forall_mem_cons.mpr ⟨short, h⟩

theorem short_endWord {l : Lexer} (h : l.Short) : l.endWord.Short := by
  unfold endWord
  split
  · intro t listed
    rcases List.mem_append.mp listed with new | old
    · exact Token.short_ofWord _ t (List.mem_reverse.mp new)
    · exact h t old
  · exact h

theorem short_feedBetween {l : Lexer} (h : l.Short) (c : Char) : (l.feedBetween c).Short := by
  unfold feedBetween
  split
  · exact h
  · split
    · rename_i t structural
      refine short_push h ?_
      unfold Token.structural? at structural
      split at structural <;> cases structural <;> trivial
    · split <;> exact h

theorem short_feed {l : Lexer} (h : l.Short) (c : Char) : (l.feed c).Short := by
  unfold feed
  split
  · exact short_feedBetween h c
  · unfold feedWord
    split
    · exact short_feedBetween (short_endWord h) c
    · exact h
  · unfold feedString
    split
    · exact short_push h rfl
    · split
      · exact h
      · split
        · exact short_push h trivial
        · exact h
  · unfold feedEscape
    split
    · exact h
    · split
      · exact h
      · exact short_push h trivial
  · unfold feedCode
    split
    · split <;> exact h
    · exact short_push h trivial

theorem short_finish {l : Lexer} (h : l.Short) : ∀ t ∈ l.finish, t.Short := by
  have ended := short_endWord h
  unfold finish
  dsimp only
  split
  · exact fun t listed => ended t (List.mem_reverse.mp listed)
  · exact fun t listed => short_push ended (show Token.invalid.Short from trivial) t
      (List.mem_reverse.mp listed)

end Lexer

theorem short_tokens (text : List Char) : ∀ t ∈ tokens text, t.Short := by
  have fed (l : Lexer) (h : l.Short) : (text.foldl Lexer.feed l).Short := by
    induction text generalizing l with
    | nil => exact h
    | cons c text ih => exact ih _ (Lexer.short_feed h c)
  have start : Lexer.start.Short := fun t listed => absurd listed List.not_mem_nil
  exact Lexer.short_finish (fed Lexer.start start)

/-! ### The reader -/

namespace Json

theorem keys_setField (fields : List (Text × Json)) (key : Text) (value : Json) :
    (setField fields key value).map Prod.fst =
      if key ∈ fields.map Prod.fst then fields.map Prod.fst else fields.map Prod.fst ++ [key] := by
  induction fields with
  | nil => rfl
  | cons field fields ih =>
    obtain ⟨k, v⟩ := field
    by_cases same : k = key
    · simp [setField, same]
    · rw [setField, if_neg same, List.map_cons, ih]
      by_cases listed : key ∈ fields.map Prod.fst
      · rw [if_pos listed, List.map_cons, if_pos (List.mem_cons_of_mem _ listed)]
      · have new : key ∉ List.map Prod.fst ((k, v) :: fields) :=
          fun found => (List.mem_cons.mp found).elim (fun same' => same same'.symm) listed
        rw [if_neg listed, if_neg new]
        rfl

theorem nodup_setField {fields : List (Text × Json)} (h : (fields.map Prod.fst).Nodup) (key : Text)
    (value : Json) : ((setField fields key value).map Prod.fst).Nodup := by
  rw [keys_setField]
  split
  · exact h
  · rename_i new
    refine List.nodup_append.mpr ⟨h, List.nodup_cons.mpr ⟨List.not_mem_nil, List.nodup_nil⟩, ?_⟩
    rintro k listed k' single rfl
    exact new (List.mem_singleton.mp single ▸ listed)

theorem everyField_setField {fields : List (Text × Json)} (h : EveryField p q fields) {key : Text}
    (named : p (.string key)) {value : Json} (held : value.Every p q) :
    EveryField p q (setField fields key value) := by
  induction fields with
  | nil => exact ⟨named, held, trivial⟩
  | cons field fields ih =>
    obtain ⟨k, v⟩ := field
    obtain ⟨first, second, rest⟩ := h
    rw [setField]
    split
    · exact ⟨first, held, rest⟩
    · exact ⟨first, second, ih rest⟩

theorem setField_of_new {fields : List (Text × Json)} {key : Text}
    (new : key ∉ fields.map Prod.fst) (value : Json) :
    setField fields key value = fields ++ [(key, value)] := by
  induction fields with
  | nil => rfl
  | cons field fields ih =>
    obtain ⟨k, v⟩ := field
    obtain ⟨apart, absent⟩ := not_or.mp (mt List.mem_cons.mpr new)
    rw [setField, if_neg (Ne.symm apart), ih absent, List.cons_append]

end Json

open Json (EveryItem EveryField)

def OpenPart.Every (p : Scalar → Prop) : OpenPart → Prop
  | .array items => EveryItem p List.Nodup items
  | .object fields => (fields.map Prod.fst).Nodup ∧ EveryField p List.Nodup fields
  | .field fields key =>
    (fields.map Prod.fst).Nodup ∧ EveryField p List.Nodup fields ∧ p (.string key)

def Due.Every (p : Scalar → Prop) : Due → Prop
  | .colon name => p (.string name)
  | .separator complete => complete.Every p List.Nodup
  | _ => True

namespace JsonReader

def Every (p : Scalar → Prop) : JsonReader → Prop
  | .reading parts due => (∀ part ∈ parts, part.Every p) ∧ due.Every p
  | .failed _ => True

variable {p : Scalar → Prop} {parts : List OpenPart} {t : Token}

theorem every_takeValue (h : ∀ part ∈ parts, part.Every p) (all : ∀ s, t = .scalar s → p s) :
    (takeValue parts t).Every p := by
  unfold takeValue
  split
  · exact ⟨List.forall_mem_cons.mpr ⟨trivial, h⟩, trivial⟩
  · exact ⟨List.forall_mem_cons.mpr ⟨⟨List.nodup_nil, trivial⟩, h⟩, trivial⟩
  · exact ⟨h, all _ rfl⟩
  · trivial
  · trivial

theorem every_takeKey (h : ∀ part ∈ parts, part.Every p) (all : ∀ s, t = .scalar s → p s) :
    (takeKey parts t).Every p := by
  unfold takeKey
  split
  · exact ⟨h, all _ rfl⟩
  · trivial

theorem every_takeSeparator {complete : Json} (held : complete.Every p List.Nodup)
    (h : ∀ part ∈ parts, part.Every p) : (takeSeparator complete parts t).Every p := by
  unfold takeSeparator
  split
  · obtain ⟨items, rest⟩ := List.forall_mem_cons.mp h
    exact ⟨List.forall_mem_cons.mpr ⟨⟨held, items⟩, rest⟩, trivial⟩
  · obtain ⟨items, rest⟩ := List.forall_mem_cons.mp h
    refine ⟨rest, Json.everyItem_iff.mpr fun item listed => ?_⟩
    rcases List.mem_cons.mp (List.mem_reverse.mp listed) with rfl | listed
    · exact held
    · exact Json.everyItem_iff.mp items item listed
  · obtain ⟨⟨distinct, fields, key⟩, rest⟩ := List.forall_mem_cons.mp h
    exact ⟨List.forall_mem_cons.mpr ⟨⟨Json.nodup_setField distinct _ _,
      Json.everyField_setField fields key held⟩, rest⟩, trivial⟩
  · obtain ⟨⟨distinct, fields, key⟩, rest⟩ := List.forall_mem_cons.mp h
    exact ⟨rest, Json.nodup_setField distinct _ _, Json.everyField_setField fields key held⟩
  · trivial

theorem every_step {r : JsonReader} (h : r.Every p) (all : ∀ s, t = .scalar s → p s) :
    (r.step t).Every p := by
  unfold step
  split
  · trivial
  · exact every_takeValue h.1 all
  · exact ⟨(List.forall_mem_cons.mp h.1).2, trivial⟩
  · exact every_takeValue h.1 all
  · exact ⟨(List.forall_mem_cons.mp h.1).2, List.nodup_nil, trivial⟩
  · exact every_takeKey h.1 all
  · exact every_takeKey h.1 all
  · obtain ⟨⟨distinct, fields⟩, rest⟩ := List.forall_mem_cons.mp h.1
    exact ⟨List.forall_mem_cons.mpr ⟨⟨distinct, fields, h.2⟩, rest⟩, trivial⟩
  · trivial
  · exact every_takeSeparator h.2 h.1

theorem every_foldl {tokens : List Token} (all : ∀ s, .scalar s ∈ tokens → p s) {r : JsonReader}
    (h : r.Every p) : (tokens.foldl step r).Every p := by
  induction tokens generalizing r with
  | nil => exact h
  | cons t tokens ih =>
    refine ih (fun s listed => all s (List.mem_cons_of_mem _ listed)) (every_step h ?_)
    rintro s rfl
    exact all s List.mem_cons_self

end JsonReader

namespace Json

theorem every_read {p : Scalar → Prop} {text : List Char} {document : Json}
    (all : ∀ s, .scalar s ∈ tokens text → p s) (h : read text = .ok document) :
    document.Every p List.Nodup := by
  have start : JsonReader.start.Every p :=
    ⟨fun part listed => absurd listed List.not_mem_nil, trivial⟩
  have held := JsonReader.every_foldl all start
  unfold read JsonReader.result at h
  split at h
  · rename_i final
    cases h
    rw [final] at held
    exact held.2
  · cases h
  · cases h

theorem short_read {text : List Char} {document : Json} (h : read text = .ok document) :
    document.Every Scalar.Short List.Nodup :=
  every_read (fun s listed => short_tokens text (.scalar s) listed) h

end Json

end DynamicScope
