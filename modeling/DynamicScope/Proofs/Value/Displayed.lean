import DynamicScope.Proofs.Json.ReadBack
import DynamicScope.Proofs.Number.Nearest
import DynamicScope.Proofs.Number.Value
import DynamicScope.Proofs.Value.Truth
import DynamicScope.Proofs.Value.Written
import Mathlib.Data.Nat.Digits.Defs

/-! Data and their display texts.
The display text of data is set like a document on one line, but for the undefined value, which is a
word that no document has. So the text is read back as documents are, once that word is taken for a
literal, and what is read determines the data: every double is shown by a number that no other double
has, and the two zeros by one. -/

namespace DynamicScope

namespace Double

/-- The number by which a double is shown. -/
def shown (x : Double) : Number :=
  match x.toInt? with
  | some n => if n.natAbs < 1000000000000000000000 then .integer n else .double x
  | none => .double x

theorem shown_cases (x : Double) :
    (∃ n, x.toInt? = some n ∧ n.natAbs < 1000000000000000000000 ∧ x.shown = .integer n ∧
      x.display = integerText n) ∨
    (x.shown = .double x ∧ x.display = Layout.document.write x) := by
  unfold shown display
  cases whole : x.toInt? with
  | none => exact .inr ⟨rfl, rfl⟩
  | some n =>
    by_cases small : n.natAbs < 1000000000000000000000
    · exact .inl ⟨n, rfl, small, if_pos small, if_pos small⟩
    · exact .inr ⟨if_neg small, if_neg small⟩

theorem eq_or_isZero_of_toInt? {x y : Double} {n : Int} (hx : x.toInt? = some n)
    (hy : y.toInt? = some n) : x = y ∨ x.isZero = true ∧ y.isZero = true := by
  cases x with
  | nan | infinity => cases hx
  | finite negative units rep =>
    cases y with
    | nan | infinity => cases hy
    | finite negative' units' rep' =>
      have same := (toInt?_finite_iff.mp hx).trans (toInt?_finite_iff.mp hy).symm
      have size : units = units' := by
        cases negative <;> cases negative' <;> simp [signed] at same <;> omega
      subst size
      by_cases zero : units = 0
      · subst zero
        exact .inr ⟨rfl, rfl⟩
      · obtain ⟨rfl, -⟩ :=
          signed_inj (fun none => absurd none zero) (fun none => absurd none zero) same
        exact .inl rfl

theorem shown_zero (negative : Bool) : (zero negative).shown = .integer 0 := by
  have whole : (zero negative).toInt? = some 0 := by
    rw [zero, toInt?, if_pos (Nat.zero_mod _), Nat.zero_div]
    cases negative <;> rfl
  rw [shown, whole]
  rfl

theorem shown_eq_iff {x y : Double} :
    x.shown = y.shown ↔ x = y ∨ x.isZero = true ∧ y.isZero = true := by
  constructor
  · intro same
    rcases shown_cases x with ⟨n, whole, -, left, -⟩ | ⟨left, -⟩ <;>
      rcases shown_cases y with ⟨m, whole', -, right, -⟩ | ⟨right, -⟩ <;>
      rw [left, right] at same <;> cases same
    · exact eq_or_isZero_of_toInt? whole whole'
    · exact .inl rfl
  · rintro (rfl | ⟨zero, zero'⟩)
    · rfl
    · obtain ⟨negative, rfl⟩ := isZero_iff.mp zero
      obtain ⟨negative', rfl⟩ := isZero_iff.mp zero'
      rw [shown_zero, shown_zero]

theorem display_eq {x y : Double} (h : x.shown = y.shown) : x.display = y.display := by
  rcases shown_cases x with ⟨n, -, -, left, text⟩ | ⟨left, text⟩ <;>
    rcases shown_cases y with ⟨m, -, -, right, text'⟩ | ⟨right, text'⟩ <;>
    rw [left, right] at h <;> cases h
  all_goals exact text.trans text'.symm

theorem display_word (x : Double) :
    InWords x.display ∧ Token.ofWord x.display = [.scalar (.number x.shown)] := by
  rcases shown_cases x with ⟨n, -, small, shown, text⟩ | ⟨shown, text⟩
  · rw [shown, text]
    have digits := Nat.toDigits_length 10 n.natAbs 21 (by decide) small
    exact ⟨inWords_integerText n, Token.ofWord_integerText (Nat.le_trans digits (by decide))⟩
  · rw [shown, text]
    exact ⟨Layout.inWords_write x, Token.ofWord_write x⟩

end Double

namespace Value

/-! ### Data and their structure -/

/-- Values that consist of doubles, booleans and the undefined value, in arrays of any depth. -/
inductive IsData : Value → Prop
  | double (x : Double) : IsData (.number (.double x))
  | boolean (b : Bool) : IsData (.boolean b)
  | array (i : Nat) {items : List Value} (h : ∀ item ∈ items, item.IsData) : IsData (.array i items)
  | undefined : IsData .undefined

/-- Data of one structure with the same elements, where the two zeros count as one and it does not
matter which arrays they are. -/
inductive Matches : Value → Value → Prop
  | double {x y : Double} (h : x = y ∨ x.isZero = true ∧ y.isZero = true) :
    Matches (.number (.double x)) (.number (.double y))
  | boolean (b : Bool) : Matches (.boolean b) (.boolean b)
  | array (i j : Nat) {items others : List Value} (h : List.Forall₂ Matches items others) :
    Matches (.array i items) (.array j others)
  | undefined : Matches .undefined .undefined

mutual

/-- The document that is shown by the text of data, with null for the undefined value. -/
def outline : Value → Json
  | .number (.double x) => .scalar (.number x.shown)
  | .boolean b => .scalar (.bool b)
  | .array _ items => .array (outlines items)
  | _ => .scalar .null

def outlines : List Value → List Json
  | [] => []
  | item :: items => item.outline :: outlines items

end

variable {v w : Value}

theorem outlines_eq_iff {items others : List Value}
    (h : ∀ item ∈ items, ∀ {w}, w.IsData → (item.outline = w.outline ↔ item.Matches w))
    (data : ∀ other ∈ others, other.IsData) :
    outlines items = outlines others ↔ List.Forall₂ Matches items others := by
  induction items generalizing others with
  | nil => cases others <;> simp [outlines]
  | cons item items ih =>
    cases others with
    | nil => simp [outlines]
    | cons other others =>
      obtain ⟨first, rest⟩ := List.forall_mem_cons.mp h
      obtain ⟨first', rest'⟩ := List.forall_mem_cons.mp data
      rw [outlines, outlines, List.cons.injEq, first first', ih rest rest', List.forall₂_cons]

theorem IsData.outline_eq_iff (hv : v.IsData) :
    ∀ {w}, w.IsData → (v.outline = w.outline ↔ v.Matches w) := by
  induction hv with
  | double x =>
    rintro _ (y | _ | _ | _)
    · simp only [outline, Json.scalar.injEq, Scalar.number.injEq, Double.shown_eq_iff]
      exact ⟨.double, fun | .double h => h⟩
    all_goals exact ⟨nofun, nofun⟩
  | boolean b =>
    rintro _ (_ | b' | _ | _)
    on_goal 2 =>
      simp only [outline, Json.scalar.injEq, Scalar.bool.injEq]
      exact ⟨fun | rfl => .boolean b, fun | .boolean _ => rfl⟩
    all_goals exact ⟨nofun, nofun⟩
  | @array i items h ih =>
    rintro _ (_ | _ | ⟨j, listed⟩ | _)
    on_goal 3 =>
      rw [outline, outline, Json.array.injEq, outlines_eq_iff ih listed]
      exact ⟨.array i j, fun | .array _ _ h => h⟩
    all_goals exact ⟨nofun, nofun⟩
  | undefined =>
    rintro _ (_ | _ | _ | _)
    on_goal 4 => exact ⟨fun _ => .undefined, fun _ => rfl⟩
    all_goals exact ⟨nofun, nofun⟩

/-! ### The tokens of a display text -/

def revealed : Token → Token
  | .invalid => .scalar .null
  | t => t

def trailing (texts : List String) : List Char :=
  texts.flatMap (fun text => ',' :: ' ' :: text.toList) ++ [']']

theorem toList_intercalate (first : String) (texts : List String) :
    (", ".intercalate (first :: texts)).toList ++ [']'] = first.toList ++ trailing texts := by
  induction texts generalizing first with
  | nil => simp [trailing]
  | cons second texts ih =>
    have rest := ih second
    simp only [String.toList_intercalate, List.map_cons] at rest ⊢
    rw [List.intercalate_cons_cons, List.append_assoc, List.append_assoc, rest]
    simp [trailing]

theorem bracketed (texts : List String) :
    Text.join ["[", .intercalate ", " (texts.map .proper), "]"] =
      .proper ("[" ++ (", ".intercalate texts ++ ("]" ++ ""))) := by
  rw [Text.intercalate_proper]
  rfl

open Lexer

/-- A value has a display text, from which the lexer gets tokens that stand for the outline. -/
def Shown (v : Value) : Prop :=
  ∃ (text : String) (tokens : List Token), v.toText = .ok (.proper text) ∧
    tokens.map revealed = v.outline.tokenList ∧
    ∀ found, Settled (text.toList.foldl feed ⟨found, .between⟩) (tokens.reverse ++ found)

theorem shown_word {word : String} {t : Token} (displayed : v.toText = .ok (.proper word))
    (words : InWords word.toList) (nonempty : word.toList ≠ [])
    (token : Token.ofWord word.toList = [t]) (outlined : [revealed t] = v.outline.tokenList) :
    v.Shown := by
  refine ⟨word, [t], displayed, outlined, fun found => ?_⟩
  have settled := settled_word words nonempty found
  rwa [token] at settled

theorem exists_trailing {items : List Value} (h : ∀ item ∈ items, item.Shown) :
    ∃ (texts : List String) (tokens : List Token), toTextAll items = .ok (texts.map .proper) ∧
      tokens.map revealed = Json.itemTokens (outlines items) ∧
      ∀ {l : Lexer} {found}, l.Settled found →
        (trailing texts).foldl feed l = ⟨tokens.reverse ++ found, .between⟩ := by
  induction items with
  | nil =>
    exact ⟨[], [.closeArray], rfl, rfl, fun settled => feed_structural_of_settled settled rfl⟩
  | cons item items ih =>
    obtain ⟨first, others⟩ := List.forall_mem_cons.mp h
    obtain ⟨text, tokens, displayed, outlined, lexed⟩ := first
    obtain ⟨texts, tokens', displayed', outlined', lexed'⟩ := ih others
    refine ⟨text :: texts, .comma :: (tokens ++ tokens'), ?_, ?_, fun {l found} settled => ?_⟩
    · rw [toTextAll, displayed, displayed']
      rfl
    · rw [List.map_cons, List.map_append, outlined, outlined']
      rfl
    · have comma : l.feed ',' = ⟨.comma :: found, .between⟩ :=
        feed_structural_of_settled settled rfl
      have blank : (⟨.comma :: found, .between⟩ : Lexer).feed ' ' =
        ⟨.comma :: found, .between⟩ := rfl
      have separated : trailing (text :: texts) = ',' :: ' ' :: (text.toList ++ trailing texts) := by
        simp [trailing]
      rw [separated, List.foldl_cons, comma, List.foldl_cons, blank, List.foldl_append,
        lexed' (lexed (.comma :: found))]
      simp

theorem IsData.shown (hv : v.IsData) : v.Shown := by
  induction hv with
  | double x =>
    obtain ⟨words, token⟩ := x.display_word
    rw [← String.toList_ofList (l := x.display)] at words token
    refine shown_word rfl words ?_ token rfl
    intro none
    rw [none] at token
    cases token
  | boolean b => cases b <;> exact shown_word rfl (inWords_of_all rfl) nofun rfl rfl
  | undefined => exact shown_word rfl (inWords_of_all rfl) nofun rfl rfl
  | @array i items h ih =>
    have opened (found : List Token) :
      (⟨found, .between⟩ : Lexer).feed '[' = ⟨.openArray :: found, .between⟩ := rfl
    cases items with
    | nil => exact ⟨"[]", [.openArray, .closeArray], rfl, rfl, fun found => settled_between _⟩
    | cons item items =>
      obtain ⟨first, others⟩ := List.forall_mem_cons.mp ih
      obtain ⟨text, tokens, displayed, outlined, lexed⟩ := first
      obtain ⟨texts, tokens', displayed', outlined', lexed'⟩ := exists_trailing others
      refine ⟨"[" ++ (", ".intercalate (text :: texts) ++ ("]" ++ "")),
        .openArray :: (tokens ++ tokens'), ?_, ?_, fun found => ?_⟩
      · rw [toText, toTextAll, displayed, displayed', ← bracketed]
        rfl
      · rw [List.map_cons, List.map_append, outlined, outlined']
        rfl
      · have set : ("[" ++ (", ".intercalate (text :: texts) ++ ("]" ++ ""))).toList =
            '[' :: (text.toList ++ trailing texts) := by
          rw [← toList_intercalate]
          simp
        rw [set, List.foldl_cons, opened, List.foldl_append, lexed' (lexed (.openArray :: found)),
          Settled]
        simp [endWord]

/-! ### Reading display texts -/

theorem every_outline (hv : v.IsData) : v.outline.Every (fun _ => True) List.Nodup := by
  induction hv with
  | double | boolean | undefined => trivial
  | @array i items h ih =>
    change Json.EveryItem _ _ (outlines items)
    clear h
    induction items with
    | nil => trivial
    | cons item items others =>
      obtain ⟨first, rest⟩ := List.forall_mem_cons.mp ih
      exact ⟨first, others rest⟩

theorem IsData.exists_display (hv : v.IsData) : ∃ text, v.display = .ok text ∧
    (((tokens text.toList).map revealed).foldl JsonReader.step JsonReader.start).result =
      .ok v.outline := by
  obtain ⟨text, found, displayed, outlined, lexed⟩ := hv.shown
  have settled := lexed []
  rw [List.append_nil] at settled
  have all : tokens text.toList = found := by
    have last := tokens_of_settled settled (List.forall_mem_nil fun c => Token.isSpace c = true)
    rwa [List.append_nil, List.reverse_reverse] at last
  refine ⟨text, display_of_toText displayed, ?_⟩
  rw [all, outlined, JsonReader.start, JsonReader.foldl_tokenList _ (every_outline hv)]
  rfl

theorem toTextAll_eq {items others : List Value}
    (h : ∀ item ∈ items, ∀ {w}, item.Matches w → item.toText = w.toText)
    (same : List.Forall₂ Matches items others) : toTextAll items = toTextAll others := by
  induction same with
  | nil => rfl
  | cons first _ ih =>
    obtain ⟨head, rest⟩ := List.forall_mem_cons.mp h
    rw [toTextAll, toTextAll, head first, ih rest]

theorem IsData.toText_eq (hv : v.IsData) : ∀ {w}, v.Matches w → v.toText = w.toText := by
  induction hv with
  | double x =>
    rintro _ (same | _)
    rw [toText, toText, numberText, numberText, Double.display_eq (Double.shown_eq_iff.mpr same)]
  | array i h ih =>
    rintro _ (_ | _ | ⟨_, j, same⟩)
    rw [toText, toText, toTextAll_eq ih same]
  | boolean | undefined =>
    rintro _ ⟨⟩
    rfl

/-- All data have display texts, and two of them have the same text exactly if they are of one
structure with the same elements. -/
theorem display_faithful (hv : v.IsData) (hw : w.IsData) :
    ∃ text text', v.display = .ok text ∧ w.display = .ok text' ∧ (text = text' ↔ v.Matches w) := by
  obtain ⟨text, displayed, read⟩ := hv.exists_display
  obtain ⟨text', displayed', read'⟩ := hw.exists_display
  refine ⟨text, text', displayed, displayed', fun same => ?_, fun same => ?_⟩
  · rw [same, read', Except.ok.injEq] at read
    exact (hv.outline_eq_iff hw).mp read.symm
  · rw [display, hv.toText_eq same, ← display, displayed'] at displayed
    exact (Except.ok.inj displayed).symm

theorem display_faithful_nested :
    (array 0 [array 1 [], double (.zero true), undefined]).display =
      (array 2 [array 3 [], double (.zero false), undefined]).display ∧
    (array 0 [array 1 [double (.ofInt 999999999999999868928)]]).display ≠
      (array 0 [array 1 [double (.ofInt 1000000000000000000000)]]).display := by
  have data (i j : Nat) (x : Double) : (array i [array j [], double x, undefined]).IsData :=
    .array i (by simp [IsData.array, double, IsData.double, IsData.undefined])
  have nested (x : Double) : (array 0 [array 1 [double x]]).IsData :=
    .array 0 (by simp [IsData.array, double, IsData.double])
  constructor
  · obtain ⟨text, text', displayed, displayed', faithful⟩ :=
      display_faithful (data 0 1 (.zero true)) (data 2 3 (.zero false))
    have zeros : (double (.zero true)).Matches (double (.zero false)) :=
      .double (.inr ⟨Double.isZero_iff.mpr ⟨true, rfl⟩, Double.isZero_iff.mpr ⟨false, rfl⟩⟩)
    have same := faithful.mpr
      (.array 0 2 (.cons (.array 1 3 .nil) (.cons zeros (.cons .undefined .nil))))
    rw [displayed, displayed', same]
  · obtain ⟨text, text', displayed, displayed', faithful⟩ := display_faithful
      (nested (.ofInt 999999999999999868928)) (nested (.ofInt 1000000000000000000000))
    have inner {x y : Double} : (array 0 [array 1 [double x]]).Matches (array 0 [array 1 [double y]]) →
        x = y ∨ x.isZero = true ∧ y.isZero = true
      | .array _ _ (.cons (.array _ _ (.cons (.double h) _)) _) => h
    rw [displayed, displayed', ne_eq, Except.ok.injEq, faithful]
    intro same
    exact absurd (inner same) (by decide +kernel)

end Value

end DynamicScope
