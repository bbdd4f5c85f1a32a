import Mathlib.Data.List.TakeWhile
import DynamicScope.Proofs.Value.Operator
import DynamicScope.Value.Display

/-! Texts that can be written.
A text can be written if no surrogate stands alone in it, and then, unless it is kept by its code points
without need, it is a string. The texts of values are put together from parts, so they are not; writing
such a text writes what it is. -/

namespace DynamicScope

namespace Text

/-- Whether a text is a string, so that no surrogate stands alone in it. -/
def IsProper (t : Text) : Prop := ∃ s, t = .proper s

theorem isProper (s : String) : (proper s).IsProper := ⟨s, rfl⟩

theorem IsProper.append {s t : Text} (first : s.IsProper) (second : t.IsProper) :
    (s.append t).IsProper := by
  obtain ⟨s, rfl⟩ := first
  obtain ⟨t, rfl⟩ := second
  exact ⟨s ++ t, rfl⟩

theorem isProper_join {texts : List Text} (h : ∀ t ∈ texts, t.IsProper) :
    (join texts).IsProper := by
  induction texts with
  | nil => exact isProper ""
  | cons t texts ih =>
    obtain ⟨first, others⟩ := List.forall_mem_cons.mp h
    exact first.append (ih others)

theorem isProper_intercalate {separator : Text} {texts : List Text} (proper : separator.IsProper)
    (h : ∀ t ∈ texts, t.IsProper) : (intercalate separator texts).IsProper := by
  cases texts with
  | nil => exact isProper ""
  | cons first rest =>
    obtain ⟨head, tail⟩ := List.forall_mem_cons.mp h
    refine isProper_join (List.forall_mem_cons.mpr ⟨head, fun t listed => ?_⟩)
    obtain ⟨other, there, found⟩ := List.mem_flatMap.mp listed
    rcases List.mem_cons.mp found with rfl | found
    · exact proper
    · exact List.mem_singleton.mp found ▸ tail other there

theorem join_proper (texts : List String) :
    join (texts.map proper) = .proper (String.join texts) := by
  induction texts with
  | nil => rfl
  | cons s texts ih =>
    rw [List.map_cons, String.join_cons, ← show (proper s).append (.proper (String.join texts)) =
      .proper (s ++ String.join texts) from rfl, ← ih]
    rfl

theorem join_separated (separator first : String) (rest : List String) :
    String.join (first :: rest.flatMap fun s => [separator, s]) =
      separator.intercalate (first :: rest) := by
  induction rest generalizing first with
  | nil => simp [String.join_cons]
  | cons second rest ih =>
    rw [String.intercalate_cons_cons, ← ih, List.flatMap_cons, String.join_cons]
    simp [String.join_cons, String.append_assoc]

theorem intercalate_proper (separator : String) (texts : List String) :
    intercalate separator (texts.map proper) = .proper (separator.intercalate texts) := by
  cases texts with
  | nil => rfl
  | cons first rest =>
    have separated : (rest.map proper).flatMap (fun t => [.proper separator, t]) =
        (rest.flatMap fun s => [separator, s]).map proper := by
      simp [List.flatMap_map, List.map_flatMap]
    rw [List.map_cons, intercalate, separated, ← List.map_cons, join_proper, join_separated]

theorem surrogateRun?_eq_none_iff {t : Text} :
    t.surrogateRun? = none ↔ ∀ code ∈ t.codes, isSurrogate code = false := by
  have none_left : t.codes.dropWhile (fun code => !isSurrogate code) = [] ↔
      ∀ code ∈ t.codes, isSurrogate code = false := by
    simp [List.dropWhile_eq_nil_iff]
  rw [← none_left, surrogateRun?]
  split
  · exact iff_of_true rfl ‹_›
  · exact iff_of_false nofun fun none => by simp_all

theorem surrogateRun?_proper (s : String) : surrogateRun? (.proper s) = none := by
  refine surrogateRun?_eq_none_iff.mpr fun code listed => ?_
  obtain ⟨c, -, rfl⟩ := List.mem_map.mp listed
  exact isSurrogate_toNat c

theorem surrogateRun?_ofCodes {codes : List Nat} (h : (ofCodes codes).surrogateRun? = none) :
    (∀ code ∈ codes, isSurrogate code = false) ∧ (ofCodes codes).IsProper := by
  unfold ofCodes at h ⊢
  split at h
  · rename_i broken
    obtain ⟨code, listed, surrogate⟩ := List.any_eq_true.mp broken
    exact absurd surrogate (Bool.not_eq_true _ ▸ surrogateRun?_eq_none_iff.mp h code listed)
  · rename_i whole
    rw [if_neg whole]
    refine ⟨fun code listed => ?_, isProper _⟩
    exact Bool.not_eq_true _ ▸ fun surrogate => whole (List.any_eq_true.mpr ⟨code, listed, surrogate⟩)

/-- What is put together can be written if its parts can, and is then a string. -/
theorem surrogateRun?_append {s t : Text} (h : (s.append t).surrogateRun? = none) :
    s.surrogateRun? = none ∧ t.surrogateRun? = none ∧ (s.append t).IsProper := by
  by_cases both : s.IsProper ∧ t.IsProper
  · obtain ⟨⟨s, rfl⟩, ⟨t, rfl⟩⟩ := both
    exact ⟨surrogateRun?_proper s, surrogateRun?_proper t, isProper _⟩
  · have made : s.append t = ofCodes (s.codes ++ t.codes) := by
      cases s <;> cases t <;> first | rfl | exact absurd ⟨isProper _, isProper _⟩ both
    rw [made] at h ⊢
    obtain ⟨whole, proper⟩ := surrogateRun?_ofCodes h
    exact ⟨surrogateRun?_eq_none_iff.mpr fun code listed => whole code (List.mem_append_left _ listed),
      surrogateRun?_eq_none_iff.mpr fun code listed => whole code (List.mem_append_right _ listed),
      proper⟩

theorem surrogateRun?_join {texts : List Text} (h : (join texts).surrogateRun? = none) :
    (∀ t ∈ texts, t.surrogateRun? = none) ∧ (join texts).IsProper := by
  induction texts with
  | nil => exact ⟨nofun, isProper ""⟩
  | cons t texts ih =>
    obtain ⟨first, rest, proper⟩ := surrogateRun?_append h
    exact ⟨List.forall_mem_cons.mpr ⟨first, (ih rest).1⟩, proper⟩

end Text

namespace Value

theorem display_of_toText {v : Value} {s : String} (h : v.toText = .ok (.proper s)) :
    v.display = .ok s := by
  have written := Text.surrogateRun?_proper s
  rw [display, h]
  simp only [bind, Except.bind, written]
  rfl

theorem isProper_of_toText {v : Value} {t : Text} (h : v.toText = .ok t)
    (whole : t.surrogateRun? = none) : t.IsProper := by
  have joined {texts : List Text} (same : Text.join texts = t) : t.IsProper := by
    subst same
    exact (Text.surrogateRun?_join whole).2
  cases v with
  | number n =>
    obtain ⟨s, -, same⟩ := bind_eq_ok.mp h
    cases same
    exact Text.isProper s
  | array i items =>
    obtain ⟨texts, -, same⟩ := bind_eq_ok.mp h
    exact joined (Except.ok.inj same)
  | function i parameters body =>
    obtain ⟨names, -, named⟩ := bind_eq_ok.mp h
    obtain ⟨texts, -, same⟩ := bind_eq_ok.mp named
    exact joined (Except.ok.inj same)
  | _ =>
    cases h
    exact Text.isProper _

theorem display_of_written {v : Value} {t : Text} (h : v.toText = .ok t)
    (whole : t.surrogateRun? = none) : v.display.map Text.proper = .ok t := by
  obtain ⟨s, rfl⟩ := isProper_of_toText h whole
  rw [display_of_toText h]
  rfl

end Value

end DynamicScope
