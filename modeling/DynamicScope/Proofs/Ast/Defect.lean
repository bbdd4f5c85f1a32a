import DynamicScope.Proofs.Ast.Normal
import Mathlib.Logic.Relation

/-! What decoding refuses.
Of a document only what stands in the place of a tree is looked at: the document, the items of an
array, and the children of a node. An object there has to be of one of the sixteen classes and has to
have the fields of its class. All that is wrong is listed in the order in which decoding looks at the
document, and decoding answers the first of it. -/

namespace DynamicScope

namespace Json

/-- The documents that stand in the places of trees directly below a document. -/
def places : Json → List Json
  | .scalar _ => []
  | .array items => items
  | .object fields =>
    match nodeClass? fields with
    | some (_, slots) => slots.filterMap fun slot =>
        if slot.2 = .child then field? fields slot.1 else none
    | none => []

def Reaches : Json → Json → Prop := Relation.ReflTransGen fun document part => part ∈ document.places

/-- Whether an object is of a class of nodes and has all fields of the class. -/
def Complete (fields : List (Text × Json)) : Prop :=
  ∃ name slots, field? fields "type" = some (.string (.proper name)) ∧
    nodeSlots? name = some slots ∧ ∀ slot ∈ slots, ∃ value, field? fields slot.1 = some value

/-- What is wrong with an object itself, whatever its parts are. -/
inductive Flaw (fields : List (Text × Json)) : DecodeError → Prop
  | type (unknown : ∀ name slots, field? fields "type" = some (.string (.proper name)) →
      nodeSlots? name ≠ some slots) : Flaw fields (.unknownType (field? fields "type"))
  | field {name : String} {slots : List (String × Slot)} {slot : String × Slot}
    (typed : field? fields "type" = some (.string (.proper name)))
    (known : nodeSlots? name = some slots) (listed : slot ∈ slots)
    (missing : field? fields slot.1 = none) : Flaw fields (.missingField slot.1)

mutual

/-- What is wrong with a document in the place of a tree, in the order of decoding: the type of an
object before its fields, and a field with all that is wrong in it before the next one. -/
def defects : Json → List DecodeError
  | .scalar _ => []
  | .array items => itemDefects items
  | .object fields =>
    match nodeClass? fields with
    | some (_, slots) => slots.flatMap fun slot =>
        match (fieldDefects fields).lookup slot.1 with
        | some inside => if slot.2 = .child then inside else []
        | none => [.missingField slot.1]
    | none => [.unknownType (field? fields "type")]

def itemDefects : List Json → List DecodeError
  | [] => []
  | item :: items => item.defects ++ itemDefects items

def fieldDefects : List (Text × Json) → List (Text × List DecodeError)
  | [] => []
  | (name, value) :: fields => (name, value.defects) :: fieldDefects fields

end

theorem itemDefects_eq_flatMap (items : List Json) : itemDefects items = items.flatMap defects := by
  induction items with
  | nil => rfl
  | cons item items ih => rw [itemDefects, ih, List.flatMap_cons]

theorem lookup_fieldDefects (fields : List (Text × Json)) (name : Text) :
    (fieldDefects fields).lookup name = (field? fields name).map defects := by
  induction fields with
  | nil => rfl
  | cons field fields ih =>
    obtain ⟨key, value⟩ := field
    simp only [fieldDefects, field?, List.lookup_cons] at ih ⊢
    cases name == key with
    | true => rfl
    | false => exact ih

def slotDefects (fields : List (Text × Json)) (slot : String × Slot) : List DecodeError :=
  match field? fields slot.1 with
  | some value => if slot.2 = .child then value.defects else []
  | none => [.missingField slot.1]

theorem defects_object (fields : List (Text × Json)) :
    (Json.object fields).defects = match nodeClass? fields with
      | some (_, slots) => slots.flatMap (slotDefects fields)
      | none => [.unknownType (field? fields "type")] := by
  rw [defects]
  split
  · congr 1
    funext slot
    rw [lookup_fieldDefects, slotDefects]
    cases field? fields slot.1 <;> rfl
  · rfl

theorem nodeClass?_eq_some_iff {fields : List (Text × Json)} {name : String}
    {slots : List (String × Slot)} : nodeClass? fields = some (name, slots) ↔
      field? fields "type" = some (.string (.proper name)) ∧ nodeSlots? name = some slots := by
  refine ⟨nodeSlots?_of_nodeClass?, fun ⟨typed, known⟩ => ?_⟩
  simp [nodeClass?, typed, known]

end Json

/-- Whether an outcome is a success and nothing is wrong, or the first of what is wrong. -/
def FirstOf {α : Type} : Except DecodeError α → List DecodeError → Prop
  | .ok _, defects => defects = []
  | .error e, defects => defects.head? = some e

namespace FirstOf

variable {α β : Type} {x : Except DecodeError α} {defects later : List DecodeError}

theorem bind {f : α → Except DecodeError β} (h : FirstOf x defects)
    (rest : ∀ a, FirstOf (f a) later) : FirstOf (x >>= f) (defects ++ later) := by
  cases x with
  | ok a =>
    obtain rfl : defects = [] := h
    exact rest a
  | error e =>
    change (defects ++ later).head? = some e
    rw [List.head?_append, h, Option.some_or]

theorem isOk_iff (h : FirstOf x defects) : (∃ a, x = .ok a) ↔ defects = [] := by
  cases x with
  | ok a => exact ⟨fun _ => h, fun _ => ⟨a, rfl⟩⟩
  | error e =>
    refine ⟨nofun, fun none => ?_⟩
    rw [FirstOf, none] at h
    cases h

theorem eq_error_iff (h : FirstOf x defects) (e : DecodeError) :
    x = .error e ↔ defects.head? = some e := by
  cases x with
  | ok a =>
    obtain rfl : defects = [] := h
    exact ⟨nofun, nofun⟩
  | error e' =>
    rw [h, Except.error.injEq, Option.some_inj]

end FirstOf

namespace Ast

open Json

theorem firstOf_assemble (type : Option Json) {raw : String → Except DecodeError Json}
    {child : String → Except DecodeError Ast} {wrong : String × Slot → List DecodeError}
    (raws : ∀ name slot, slot ≠ .child → FirstOf (raw name) (wrong (name, slot)))
    (children : ∀ name, FirstOf (child name) (wrong (name, .child))) :
    FirstOf (assemble type raw child) (match (typeName? type).bind nodeSlots? with
      | some slots => slots.flatMap wrong
      | none => [.unknownType type]) := by
  have done (tree : Ast) : FirstOf (.ok tree) [] := rfl
  have kept (name : String) := raws name .raw nofun
  have truth (name : String) := raws name .truth nofun
  unfold assemble
  split
  case h_17 =>
    rename_i unknown
    have none : (typeName? type).bind nodeSlots? = none := by
      cases named : typeName? type with
      | none => rfl
      | some name =>
        rw [Option.bind_some]
        unfold nodeSlots?
        split <;> simp_all
    rw [none]
    exact rfl
  all_goals
    rename_i named
    rw [named]
  case h_1 | h_2 | h_6 | h_14 => exact (children _).bind fun _ => done _
  case h_8 | h_10 => exact (kept _).bind fun _ => done _
  case h_9 => exact (truth _).bind fun _ => done _
  case h_3 | h_5 | h_7 | h_15 | h_16 =>
    exact (children _).bind fun _ => (children _).bind fun _ => done _
  case h_11 => exact (kept _).bind fun _ => (children _).bind fun _ => done _
  case h_4 | h_13 =>
    exact (children _).bind fun _ => (children _).bind fun _ => (children _).bind fun _ => done _
  case h_12 =>
    exact (kept _).bind fun _ => (children _).bind fun _ => (children _).bind fun _ => done _

theorem firstOf_rawField (fields : List (Text × Json)) (name : String) {slot : Slot}
    (kept : slot ≠ .child) : FirstOf (rawField fields name) (slotDefects fields (name, slot)) := by
  rw [rawField, slotDefects]
  cases field? fields name with
  | none => exact rfl
  | some value => exact if_neg kept

theorem nodeClass?_map_snd (fields : List (Text × Json)) :
    (nodeClass? fields).map Prod.snd = (typeName? (field? fields "type")).bind nodeSlots? := by
  rw [nodeClass?]
  cases typeName? (field? fields "type") with
  | none => rfl
  | some name => cases found : nodeSlots? name <;> simp [found]

mutual

theorem firstOf_decode (document : Json) : FirstOf (decode document) document.defects := by
  cases document with
  | scalar s => exact rfl
  | array items =>
    rw [decode, defects, ← List.append_nil (itemDefects items)]
    exact (firstOf_decodeItems items).bind fun _ => rfl
  | object fields =>
    have read := firstOf_assemble (field? fields "type")
      (fun name slot kept => firstOf_rawField fields name kept)
      (firstOf_childField fields)
    rw [decode, defects_object]
    rw [← nodeClass?_map_snd] at read
    cases class? : nodeClass? fields <;> rwa [class?] at read

theorem firstOf_decodeItems (items : List Json) : FirstOf (decodeItems items) (itemDefects items) := by
  cases items with
  | nil => exact rfl
  | cons item items =>
    rw [decodeItems, itemDefects, ← List.append_nil (itemDefects items)]
    exact (firstOf_decode item).bind fun _ => (firstOf_decodeItems items).bind fun _ => rfl

theorem firstOf_childField (fields : List (Text × Json)) (name : String) :
    FirstOf (childField (decodeFields fields) name) (slotDefects fields (name, .child)) := by
  cases fields with
  | nil => exact rfl
  | cons field fields =>
    obtain ⟨key, value⟩ := field
    have here := firstOf_decode value
    have later := firstOf_childField fields name
    rw [childField, slotDefects, field?] at later ⊢
    rw [decodeFields, List.lookup_cons, List.lookup_cons]
    cases Text.proper name == key with
    | true => exact here
    | false => exact later

end

end Ast

namespace Json

theorem mem_places_object {fields : List (Text × Json)} {name : String}
    {slots : List (String × Slot)} (node : nodeClass? fields = some (name, slots)) (part : Json) :
    part ∈ (Json.object fields).places ↔
      ∃ slot ∈ slots, slot.2 = .child ∧ field? fields slot.1 = some part := by
  simp only [places, node, List.mem_filterMap, Option.ite_none_right_eq_some]

@[elab_as_elim]
theorem inductionOnPlaces {P : Json → Prop}
    (step : ∀ document, (∀ part ∈ document.places, P part) → P document) (document : Json) :
    P document := by
  induction document using inductionOnParts with
  | scalar s => exact step _ fun _ listed => nomatch listed
  | array items ih => exact step _ ih
  | object fields ih =>
    refine step _ fun part listed => ?_
    cases node : nodeClass? fields with
    | none => simp [places, node] at listed
    | some class_ =>
      obtain ⟨slot, -, -, found⟩ := (mem_places_object node part).mp listed
      obtain ⟨before, after, rfl, -⟩ := List.lookup_eq_some_iff.mp found
      exact ih (_, part) (List.mem_append_right _ List.mem_cons_self)

theorem mem_defects_object (fields : List (Text × Json)) (e : DecodeError) :
    e ∈ (Json.object fields).defects ↔
      Flaw fields e ∨ ∃ part ∈ (Json.object fields).places, e ∈ part.defects := by
  rw [defects_object]
  cases node : nodeClass? fields with
  | none =>
    have unknown : ∀ name slots, field? fields "type" = some (.string (.proper name)) →
        nodeSlots? name ≠ some slots := fun name slots typed known => by
      rw [nodeClass?_eq_some_iff.mpr ⟨typed, known⟩] at node
      cases node
    have leaf : (Json.object fields).places = [] := by simp only [places, node]
    rw [leaf, List.mem_singleton]
    constructor
    · rintro rfl
      exact .inl (.type unknown)
    · rintro (flaw | ⟨part, listed, -⟩)
      · cases flaw with
        | type => rfl
        | field typed known => exact absurd known (unknown _ _ typed)
      · cases listed
  | some class_ =>
    obtain ⟨name, slots⟩ := class_
    obtain ⟨typed, known⟩ := nodeClass?_eq_some_iff.mp node
    simp only [List.mem_flatMap, mem_places_object node]
    constructor
    · rintro ⟨slot, listed, wrong⟩
      unfold slotDefects at wrong
      cases found : field? fields slot.1 with
      | none =>
        rw [found] at wrong
        obtain rfl := List.mem_singleton.mp wrong
        exact .inl (.field typed known listed found)
      | some value =>
        rw [found] at wrong
        dsimp only at wrong
        split at wrong
        · exact .inr ⟨value, ⟨slot, listed, ‹_›, found⟩, wrong⟩
        · cases wrong
    · rintro (flaw | ⟨part, ⟨slot, listed, child, found⟩, wrong⟩)
      · cases flaw with
        | type unknown => exact absurd known (unknown _ _ typed)
        | @field name' slots' slot typed' known' listed missing =>
          rw [typed] at typed'
          cases typed'
          rw [known] at known'
          cases known'
          exact ⟨slot, listed, by simp [slotDefects, missing]⟩
      · exact ⟨slot, listed, by simp [slotDefects, found, child, wrong]⟩

theorem mem_defects_step (document : Json) (e : DecodeError) :
    e ∈ document.defects ↔ (∃ fields, document = .object fields ∧ Flaw fields e) ∨
      ∃ part ∈ document.places, e ∈ part.defects := by
  cases document with
  | scalar s => simp [defects, places]
  | array items => simp [defects, places, itemDefects_eq_flatMap]
  | object fields => simp [mem_defects_object]

theorem mem_defects_iff (document : Json) (e : DecodeError) :
    e ∈ document.defects ↔ ∃ fields, document.Reaches (.object fields) ∧ Flaw fields e := by
  induction document using inductionOnPlaces with
  | step document ih =>
    rw [mem_defects_step]
    constructor
    · rintro (⟨fields, rfl, flaw⟩ | ⟨part, listed, wrong⟩)
      · exact ⟨fields, .refl, flaw⟩
      · obtain ⟨fields, path, flaw⟩ := (ih part listed).mp wrong
        exact ⟨fields, .head listed path, flaw⟩
    · rintro ⟨fields, path, flaw⟩
      rcases Relation.ReflTransGen.cases_head path with rfl | ⟨part, listed, rest⟩
      · exact .inl ⟨fields, rfl, flaw⟩
      · exact .inr ⟨part, listed, (ih part listed).mpr ⟨fields, rest, flaw⟩⟩

theorem complete_iff (fields : List (Text × Json)) : Complete fields ↔ ∀ e, ¬ Flaw fields e := by
  constructor
  · rintro ⟨name, slots, typed, known, held⟩ e flaw
    cases flaw with
    | type unknown => exact unknown _ _ typed known
    | field typed' known' listed missing =>
      rw [typed] at typed'
      cases typed'
      rw [known] at known'
      cases known'
      obtain ⟨value, found⟩ := held _ listed
      rw [missing] at found
      cases found
  · intro sound
    by_contra incomplete
    refine sound _ (.type fun name slots typed known => incomplete ⟨name, slots, typed, known, ?_⟩)
    intro slot listed
    by_contra absent
    refine sound _ (.field typed known listed ?_)
    exact Option.eq_none_iff_forall_ne_some.mpr fun value found => absent ⟨value, found⟩

theorem defects_eq_nil_iff (document : Json) :
    document.defects = [] ↔ ∀ fields, document.Reaches (.object fields) → Complete fields := by
  simp only [complete_iff, List.eq_nil_iff_forall_not_mem, mem_defects_iff]
  exact ⟨fun none fields path e flaw => none e ⟨fields, path, flaw⟩,
    fun sound e ⟨fields, path, flaw⟩ => sound fields path e flaw⟩

end Json

namespace Ast

open Json

/-- A document decodes exactly if every object that stands in the place of a tree is of a class of
nodes and has the fields of its class. Otherwise decoding answers the first of what is wrong, in the
order in which it looks at the document; and what is wrong is, object by object, an unknown type or a
missing field. -/
theorem decode_firstDefect (document : Json) :
    ((∃ tree, decode document = .ok tree) ↔
      ∀ fields, document.Reaches (.object fields) → Complete fields) ∧
    (∀ e, decode document = .error e ↔ document.defects.head? = some e) ∧
    ∀ e, e ∈ document.defects ↔ ∃ fields, document.Reaches (.object fields) ∧ Flaw fields e := by
  have first := firstOf_decode document
  refine ⟨?_, first.eq_error_iff, mem_defects_iff document⟩
  rw [first.isOk_iff, defects_eq_nil_iff]

/-- A call without arguments whose callee is of no class: the type of the callee is met first. -/
example : (Json.object [("type", .string "Call"), ("callee", .object [("type", .null)])]).defects =
    [.unknownType (some .null), .missingField "args"] := rfl

end Ast

end DynamicScope
