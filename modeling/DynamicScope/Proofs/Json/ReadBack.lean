import DynamicScope.Proofs.Json.Every
import DynamicScope.Proofs.Json.Lexer

/-! Reading what was written.
A written document has the tokens of its parts, and the reader takes these tokens to the document
again: an object has no key twice, so every field is new when it is set. -/

namespace DynamicScope

/-- Whether a scalar is no text with surrogates. -/
def Scalar.Proper : Scalar → Prop
  | .string t => ∃ s : String, t = .proper s
  | _ => True

abbrev Scalar.Readable (s : Scalar) : Prop := s.Short ∧ s.Proper

namespace Json

mutual

def tokenList : Json → List Token
  | .scalar s => [.scalar s]
  | .array [] => [.openArray, .closeArray]
  | .array (item :: items) => .openArray :: (item.tokenList ++ itemTokens items)
  | .object [] => [.openObject, .closeObject]
  | .object ((key, value) :: fields) =>
    .openObject :: .scalar (.string key) :: .colon :: (value.tokenList ++ fieldTokens fields)

def itemTokens : List Json → List Token
  | [] => [.closeArray]
  | item :: items => .comma :: (item.tokenList ++ itemTokens items)

def fieldTokens : List (Text × Json) → List Token
  | [] => [.closeObject]
  | (key, value) :: fields =>
    .comma :: .scalar (.string key) :: .colon :: (value.tokenList ++ fieldTokens fields)

end

end Json

/-! ### The tokens of a written document -/

namespace Lexer

open Token Json

variable {l : Lexer} {found : List Token}

theorem settled_writeScalar {s : Scalar} (h : s.Readable) (found : List Token) :
    Settled ((writeScalar s).foldl feed ⟨found, .between⟩) (.scalar s :: found) := by
  have word {text : List Char} (words : InWords text) (read : ofWord text = [.scalar s]) :
      Settled (text.foldl feed ⟨found, .between⟩) (.scalar s :: found) := by
    have nonempty : text ≠ [] := by
      rintro rfl
      cases read
    have settled := settled_word words nonempty found
    rwa [read] at settled
  cases s with
  | null => exact word (inWords_of_all rfl) rfl
  | bool b => cases b <;> exact word (inWords_of_all rfl) rfl
  | number n =>
    cases n with
    | integer n => exact word (inWords_integerText n) (ofWord_integerText (of_decide_eq_true h.1))
    | double x => exact word (Layout.inWords_write x) (ofWord_write x)
  | string t =>
    obtain ⟨s, rfl⟩ := h.2
    rw [writeScalar, foldl_writeString]
    exact settled_between _

theorem settled_spaces {spaces : List Char} (h : l.Settled found)
    (all : ∀ c ∈ spaces, isSpace c = true) : (spaces.foldl feed l).Settled found := by
  cases spaces with
  | nil => exact h
  | cons c spaces =>
    have breaks : ¬ InWord c := fun word =>
      Bool.false_ne_true (word.1.symm.trans (all c List.mem_cons_self))
    rw [foldl_of_settled h breaks, foldl_spaces all]
    exact settled_between _

theorem feed_structural_of_settled (h : l.Settled found) {c : Char} {t : Token}
    (structural : structural? c = some t) : l.feed c = ⟨t :: found, .between⟩ := by
  have breaks : ¬ InWord c := fun word => by
    rw [word.2.1] at structural
    cases structural
  rw [feed_of_settled h breaks, feed_structural structural]

theorem foldl_closing {spaces : List Char} (h : l.Settled found)
    (all : ∀ c ∈ spaces, isSpace c = true) {c : Char} {t : Token}
    (structural : structural? c = some t) :
    (spaces ++ [c]).foldl feed l = ⟨t :: found, .between⟩ := by
  rw [List.foldl_append]
  exact feed_structural_of_settled (settled_spaces h all) structural

theorem isSpace_margin (setting : Setting) (level : Nat) :
    ∀ c ∈ setting.margin level, isSpace c = true := by
  cases setting with
  | oneLine => exact fun c listed => absurd listed List.not_mem_nil
  | lines indent =>
    refine List.forall_mem_cons.mpr ⟨rfl, fun c listed => ?_⟩
    rw [List.eq_of_mem_replicate listed]
    rfl

theorem isSpace_gap (setting : Setting) (level : Nat) :
    ∀ c ∈ setting.gap level, isSpace c = true := by
  cases setting with
  | oneLine => exact List.forall_mem_singleton.mpr rfl
  | lines indent => exact isSpace_margin (.lines indent) level

variable {q : List Text → Prop} (setting : Setting)

theorem foldl_key {key : Text} (h : (Scalar.string key).Proper) (text : List Char)
    (found : List Token) :
    (writeString key ++ ':' :: ' ' :: text).foldl feed ⟨found, .between⟩ =
      text.foldl feed ⟨.colon :: .scalar (.string key) :: found, .between⟩ := by
  obtain ⟨s, rfl⟩ := h
  rw [List.foldl_append, foldl_writeString]
  rfl

mutual

theorem settled_write : (document : Json) → document.Every Scalar.Readable q → (level : Nat) →
    (found : List Token) → Settled ((document.write setting level).foldl feed ⟨found, .between⟩)
      (document.tokenList.reverse ++ found)
  | .scalar s, h, level, found => settled_writeScalar h found
  | .array [], _, _, _ => settled_between _
  | .array (item :: items), h, level, found => by
    have opened : (⟨found, .between⟩ : Lexer).feed '[' = ⟨.openArray :: found, .between⟩ := rfl
    have first := settled_write item h.1 (level + 1) (.openArray :: found)
    have all := foldl_writeItems items h.2 level first
    rw [write, List.foldl_cons, opened, List.foldl_append, List.foldl_append,
      foldl_spaces (isSpace_margin setting _), all]
    simp [tokenList, Settled, endWord]
  | .object [], _, _, _ => settled_between _
  | .object ((key, value) :: fields), h, level, found => by
    have opened : (⟨found, .between⟩ : Lexer).feed '\x7b' = ⟨.openObject :: found, .between⟩ := rfl
    obtain ⟨-, named, held, others⟩ := h
    have first := settled_write value held (level + 1)
      (.colon :: .scalar (.string key) :: .openObject :: found)
    have all := foldl_writeFields fields others level first
    rw [write, List.foldl_cons, opened, List.append_assoc, List.append_assoc, List.foldl_append,
      foldl_spaces (isSpace_margin setting _), List.cons_append, List.cons_append,
      foldl_key named.2, List.foldl_append, all]
    simp [tokenList, Settled, endWord]

theorem foldl_writeItems : (items : List Json) → EveryItem Scalar.Readable q items → (level : Nat) →
    {l : Lexer} → {found : List Token} → l.Settled found →
    (writeItems setting level items).foldl feed l = ⟨(itemTokens items).reverse ++ found, .between⟩
  | [], _, level, l, found, settled => foldl_closing settled (isSpace_margin setting level) rfl
  | item :: items, h, level, l, found, settled => by
    have comma : l.feed ',' = ⟨.comma :: found, .between⟩ := feed_structural_of_settled settled rfl
    have first := settled_write item h.1 (level + 1) (.comma :: found)
    have all := foldl_writeItems items h.2 level first
    rw [writeItems, List.foldl_cons, comma, List.foldl_append, List.foldl_append,
      foldl_spaces (isSpace_gap setting _), all]
    simp [itemTokens]

theorem foldl_writeFields : (fields : List (Text × Json)) → EveryField Scalar.Readable q fields →
    (level : Nat) → {l : Lexer} → {found : List Token} → l.Settled found →
    (writeFields setting level fields).foldl feed l =
      ⟨(fieldTokens fields).reverse ++ found, .between⟩
  | [], _, level, l, found, settled => foldl_closing settled (isSpace_margin setting level) rfl
  | (key, value) :: fields, h, level, l, found, settled => by
    have comma : l.feed ',' = ⟨.comma :: found, .between⟩ := feed_structural_of_settled settled rfl
    obtain ⟨named, held, others⟩ := h
    have first := settled_write value held (level + 1)
      (.colon :: .scalar (.string key) :: .comma :: found)
    have all := foldl_writeFields fields others level first
    rw [writeFields, List.foldl_cons, comma, List.append_assoc, List.append_assoc,
      List.foldl_append, foldl_spaces (isSpace_gap setting _), List.cons_append, List.cons_append,
      foldl_key named.2,
      List.foldl_append, all]
    simp [fieldTokens]

end

theorem tokens_of_settled {text spaces : List Char}
    (h : (text.foldl feed start).Settled found) (all : ∀ c ∈ spaces, isSpace c = true) :
    tokens (text ++ spaces) = found.reverse := by
  have settled := settled_spaces h all
  rw [Settled] at settled
  rw [tokens, List.foldl_append, finish, settled]

end Lexer

/-! ### The reader on the tokens of a document -/

namespace JsonReader

open Json

variable {p : Scalar → Prop} {parts : List OpenPart}

theorem step_valueOrClose {t : Token} (opens : t ≠ .closeArray) (parts : List OpenPart) :
    step (.reading parts .valueOrClose) t = takeValue parts t := by
  rw [step]
  rintro part rest ⟨rfl, -⟩ rfl
  exact opens rfl

theorem foldl_valueOrClose (document : Json) (parts : List OpenPart) :
    document.tokenList.foldl step (.reading parts .valueOrClose) =
      document.tokenList.foldl step (.reading parts .value) := by
  have first {t : Token} (rest : List Token) (opens : t ≠ .closeArray) :
      (t :: rest).foldl step (.reading parts .valueOrClose) =
        (t :: rest).foldl step (.reading parts .value) :=
    congrArg (rest.foldl step) (step_valueOrClose opens parts)
  unfold tokenList
  split <;> exact first _ nofun

theorem setField_of_nodup {done fields : List (Text × Json)} {key : Text} {value : Json}
    (distinct : ((done ++ (key, value) :: fields).map Prod.fst).Nodup) :
    setField done key value = done ++ [(key, value)] := by
  rw [List.map_append, List.map_cons] at distinct
  obtain ⟨-, -, apart⟩ := List.nodup_append.mp distinct
  exact setField_of_new (fun listed => apart key listed key List.mem_cons_self rfl) value

mutual

theorem foldl_tokenList : (document : Json) → document.Every p List.Nodup →
    (parts : List OpenPart) → document.tokenList.foldl step (.reading parts .value) =
      .reading parts (.separator document)
  | .scalar _, _, _ => rfl
  | .array [], _, _ => rfl
  | .array (item :: items), h, parts => by
    have opened : step (.reading parts .value) .openArray =
        .reading (.array [] :: parts) .valueOrClose := rfl
    rw [tokenList, List.foldl_cons, opened, List.foldl_append, foldl_valueOrClose,
      foldl_tokenList item h.1, foldl_itemTokens items h.2]
    rfl
  | .object [], _, _ => rfl
  | .object ((key, value) :: fields), h, parts => by
    obtain ⟨distinct, named, held, others⟩ := h
    have opened (tokens : List Token) :
        (.openObject :: .scalar (.string key) :: .colon :: tokens).foldl step
            (.reading parts .value) =
          tokens.foldl step (.reading (.field [] key :: parts) .value) := rfl
    rw [tokenList, opened, List.foldl_append, foldl_tokenList value held,
      foldl_fieldTokens fields others parts [] key value distinct, List.nil_append]

theorem foldl_itemTokens : (items : List Json) → EveryItem p List.Nodup items →
    (parts : List OpenPart) → (done : List Json) → (complete : Json) →
    (itemTokens items).foldl step (.reading (.array done :: parts) (.separator complete)) =
      .reading parts (.separator (.array (done.reverse ++ complete :: items)))
  | [], _, parts, done, complete => by
    have closed : step (.reading (.array done :: parts) (.separator complete)) .closeArray =
        .reading parts (.separator (.array (complete :: done).reverse)) := rfl
    rw [itemTokens, List.foldl_cons, closed, List.reverse_cons, List.foldl_nil]
  | item :: items, h, parts, done, complete => by
    have comma : step (.reading (.array done :: parts) (.separator complete)) .comma =
        .reading (.array (complete :: done) :: parts) .value := rfl
    rw [itemTokens, List.foldl_cons, comma, List.foldl_append, foldl_tokenList item h.1,
      foldl_itemTokens items h.2, List.reverse_cons, List.append_assoc]
    rfl

theorem foldl_fieldTokens : (fields : List (Text × Json)) → EveryField p List.Nodup fields →
    (parts : List OpenPart) → (done : List (Text × Json)) → (key : Text) → (complete : Json) →
    ((done ++ (key, complete) :: fields).map Prod.fst).Nodup →
    (fieldTokens fields).foldl step (.reading (.field done key :: parts) (.separator complete)) =
      .reading parts (.separator (.object (done ++ (key, complete) :: fields)))
  | [], _, parts, done, key, complete, distinct => by
    have set := setField_of_nodup distinct
    have closed : step (.reading (.field done key :: parts) (.separator complete)) .closeObject =
        .reading parts (.separator (.object (setField done key complete))) := rfl
    rw [fieldTokens, List.foldl_cons, closed, set, List.foldl_nil]
  | (name, value) :: fields, h, parts, done, key, complete, distinct => by
    obtain ⟨named, held, others⟩ := h
    have set := setField_of_nodup distinct
    have comma (tokens : List Token) :
        (.comma :: .scalar (.string name) :: .colon :: tokens).foldl step
            (.reading (.field done key :: parts) (.separator complete)) =
          tokens.foldl step
            (.reading (.field (setField done key complete) name :: parts) .value) := rfl
    rw [← List.singleton_append, ← List.append_assoc] at distinct
    rw [fieldTokens, comma, set, List.foldl_append, foldl_tokenList value held,
      foldl_fieldTokens fields others parts _ name value distinct, List.append_assoc,
      List.singleton_append]

end

end JsonReader

namespace Json

theorem read_write {document : Json} (h : document.Every Scalar.Readable List.Nodup)
    (setting : Setting) {spaces : List Char} (all : ∀ c ∈ spaces, Token.isSpace c = true) :
    read (document.write setting 0 ++ spaces) = .ok document := by
  have settled := Lexer.settled_write setting document h 0 []
  rw [List.append_nil] at settled
  rw [read, Lexer.tokens_of_settled settled all, List.reverse_reverse, JsonReader.start,
    JsonReader.foldl_tokenList document h]
  rfl

end Json

end DynamicScope
