import Mathlib.Data.List.Perm.Subperm
import DynamicScope.Ast.Equality
import DynamicScope.Proofs.Ast.Normal
import DynamicScope.Proofs.Json.Every
import DynamicScope.Proofs.Number.Value

/-! What documents stand for.
Numbers and booleans stand for their exact values, an array for what its items stand for, and an
object for what it has under each key, in whatever order. Two documents are equal exactly if they
stand for the same, provided that no object in them has a key twice; so equality is an equivalence. -/

namespace DynamicScope

inductive Meaning
  | null
  | number (value : WithBot (WithTop ℚ))
  | nan
  | text (t : Text)
  | array (items : List Meaning)
  | object (values : Text → Option Meaning)

namespace Scalar

/-- What a scalar stands for: a boolean counts as one or zero. -/
def meaning : Scalar → Meaning
  | .null => .null
  | .bool b => .number (((if b then 1 else 0 : Int) : ℚ) : WithTop ℚ)
  | .number n => n.value?.elim .nan .number
  | .string t => .text t

def Key.meaning : Key → Meaning
  | .null => .null
  | .number place => (place.map Place.value).elim .nan .number
  | .text t => .text t

theorem meaning_key (s : Scalar) : s.key.meaning = s.meaning := by
  cases s with
  | null | string => rfl
  | bool b =>
    have value := Number.value?_eq (.integer (if b then 1 else 0))
    rw [key, Key.meaning, ← value]
    rfl
  | number n => rw [key, Key.meaning, meaning, Number.value?_eq]

theorem Key.meaning_injective : Function.Injective Key.meaning := by
  have leaf {place place' : Option (WithBot (WithTop ℚ))}
      (same : place.elim Meaning.nan .number = place'.elim .nan .number) : place = place' := by
    cases place <;> cases place' <;> cases same <;> rfl
  intro a b same
  cases a with
  | number place =>
    cases b with
    | number place' =>
      exact congrArg Key.number (Option.map_injective Place.value_injective (leaf same))
    | _ => cases place <;> cases same
  | _ =>
    cases b with
    | number place => cases place <;> cases same
    | _ => cases same <;> rfl

theorem same_iff_meaning (a b : Scalar) : a.same b = true ↔ a.meaning = b.meaning := by
  rw [same, decide_eq_true_iff, ← meaning_key, ← meaning_key, Key.meaning_injective.eq_iff]

end Scalar

namespace Json

mutual

/-- What a document stands for. -/
def meaning : Json → Meaning
  | .scalar s => s.meaning
  | .array items => .array (itemMeanings items)
  | .object fields => .object fun key => (fieldMeanings fields).lookup key

def itemMeanings : List Json → List Meaning
  | [] => []
  | item :: items => item.meaning :: itemMeanings items

def fieldMeanings : List (Text × Json) → List (Text × Meaning)
  | [] => []
  | (key, value) :: fields => (key, value.meaning) :: fieldMeanings fields

end

theorem lookup_fieldMeanings (fields : List (Text × Json)) (key : Text) :
    (fieldMeanings fields).lookup key = (field? fields key).map meaning := by
  induction fields with
  | nil => rfl
  | cons field fields ih =>
    obtain ⟨k, value⟩ := field
    simp only [fieldMeanings, field?, List.lookup_cons] at ih ⊢
    cases key == k with
    | true => rfl
    | false => exact ih

theorem meaning_object (fields : List (Text × Json)) :
    (Json.object fields).meaning = .object fun key => (field? fields key).map meaning := by
  rw [meaning]
  exact congrArg Meaning.object (funext (lookup_fieldMeanings fields))

theorem sameFields_iff {fields other : List (Text × Json)} :
    sameFields fields other = true ↔
      ∀ field ∈ fields, ∃ value, field? other field.1 = some value ∧ field.2.same value = true := by
  induction fields with
  | nil => simp [sameFields]
  | cons field fields ih =>
    obtain ⟨key, value⟩ := field
    rw [sameFields, Bool.and_eq_true, ih, List.forall_mem_cons]
    refine and_congr_left fun _ => ?_
    cases field? other key <;> simp

theorem isSome_field? (fields : List (Text × Json)) (key : Text) :
    (field? fields key).isSome ↔ key ∈ fields.map Prod.fst := by
  rw [field?, List.lookup_isSome_iff, List.mem_map]
  exact exists_congr fun field => and_congr_right fun _ => beq_iff_eq.trans eq_comm

theorem same_object {fields fields' : List (Text × Json)} (distinct : (fields.map Prod.fst).Nodup)
    (distinct' : (fields'.map Prod.fst).Nodup) :
    (Json.object fields).same (.object fields') = true ↔
      ∀ key, Option.Rel (fun v v' => v.same v' = true) (field? fields key) (field? fields' key) := by
  rw [same, Bool.and_eq_true, decide_eq_true_iff, sameFields_iff]
  constructor
  · rintro ⟨length, found⟩ key
    have keys : fields.map Prod.fst ⊆ fields'.map Prod.fst := fun key listed => by
      obtain ⟨field, there, rfl⟩ := List.mem_map.mp listed
      obtain ⟨value, held, -⟩ := found field there
      rw [← isSome_field?, held]
      rfl
    -- There are as many keys in both, none of them twice, so the second object has no others.
    have perm := (distinct.subperm keys).perm_of_length_le (by simp [length])
    cases here : field? fields key with
    | some value =>
      obtain ⟨value', there, same⟩ := found _ ((field?_eq_some_iff distinct).mp here)
      rw [there]
      exact .some same
    | none =>
      have absent : key ∉ fields'.map Prod.fst := by
        rw [← perm.mem_iff, ← isSome_field?, here]
        exact Bool.false_ne_true
      rw [← isSome_field?, Option.not_isSome_iff_eq_none] at absent
      rw [absent]
      exact .none
  · intro related
    have keys : (fields.map Prod.fst).Perm (fields'.map Prod.fst) := by
      refine (List.perm_ext_iff_of_nodup distinct distinct').mpr fun key => ?_
      rw [← isSome_field?, ← isSome_field?]
      have held := related key
      generalize field? fields key = found at held
      generalize field? fields' key = found' at held
      cases held <;> rfl
    refine ⟨by simpa using keys.length_eq, fun field listed => ?_⟩
    have held := related field.1
    rw [(field?_eq_some_iff distinct).mpr listed] at held
    generalize field? fields' field.1 = found at held
    cases held with
    | some same => exact ⟨_, rfl, same⟩

variable {p : Scalar → Prop}

theorem meaning_scalar_ne (s : Scalar) :
    (∀ items, s.meaning ≠ .array items) ∧ ∀ values, s.meaning ≠ .object values := by
  cases s with
  | number n =>
    rw [Scalar.meaning]
    cases n.value? <;> exact ⟨nofun, nofun⟩
  | _ => exact ⟨nofun, nofun⟩

theorem same_items {items items' : List Json}
    (each : ∀ item ∈ items, ∀ item' ∈ items', item.same item' = true ↔ item.meaning = item'.meaning) :
    sameItems items items' = true ↔ itemMeanings items = itemMeanings items' := by
  induction items generalizing items' with
  | nil => cases items' <;> simp [sameItems, itemMeanings]
  | cons item items ih =>
    cases items' with
    | nil => simp [sameItems, itemMeanings]
    | cons item' items' =>
      have first := each item List.mem_cons_self item' List.mem_cons_self
      have rest := ih fun item listed item' listed' =>
        each item (List.mem_cons_of_mem _ listed) item' (List.mem_cons_of_mem _ listed')
      rw [sameItems, itemMeanings, itemMeanings, Bool.and_eq_true, first, rest, List.cons.injEq]

theorem same_iff_meaning {a b : Json} (ha : a.Every p List.Nodup) (hb : b.Every p List.Nodup) :
    a.same b = true ↔ a.meaning = b.meaning := by
  induction a using inductionOnParts generalizing b with
  | scalar s =>
    cases b with
    | scalar t => exact Scalar.same_iff_meaning s t
    | array items => exact iff_of_false Bool.false_ne_true ((meaning_scalar_ne s).1 _)
    | object fields => exact iff_of_false Bool.false_ne_true ((meaning_scalar_ne s).2 _)
  | array items ih =>
    cases b with
    | scalar t => exact iff_of_false Bool.false_ne_true ((meaning_scalar_ne t).1 _).symm
    | array items' =>
      have each := everyItem_iff.mp ha
      have each' := everyItem_iff.mp hb
      rw [same, meaning, meaning, Meaning.array.injEq]
      exact same_items fun item listed item' listed' =>
        ih item listed (each item listed) (each' item' listed')
    | object fields => exact iff_of_false Bool.false_ne_true nofun
  | object fields ih =>
    cases b with
    | scalar t => exact iff_of_false Bool.false_ne_true ((meaning_scalar_ne t).2 _).symm
    | array items => exact iff_of_false Bool.false_ne_true nofun
    | object fields' =>
      have each := everyField_iff.mp ha.2
      have each' := everyField_iff.mp hb.2
      rw [same_object ha.1 hb.1, meaning_object, meaning_object, Meaning.object.injEq, funext_iff]
      refine forall_congr' fun key => ?_
      cases found : field? fields key with
      | none => cases found' : field? fields' key <;> simp
      | some value =>
        cases found' : field? fields' key with
        | none => simp
        | some value' =>
          have listed := (field?_eq_some_iff ha.1).mp found
          have listed' := (field?_eq_some_iff hb.1).mp found'
          simp [ih _ listed (each _ listed).2 (each' _ listed').2]

end Json

end DynamicScope
