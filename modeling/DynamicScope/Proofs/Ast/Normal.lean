import DynamicScope.Proofs.Ast.Parts
import Mathlib.Data.List.Nodup

/-! What is left of a document that is decoded and encoded again.
Its nodes keep the fields of their class, in the order of the class and behind the type; other fields
are dropped, and the truth values become booleans. Raw documents stay as they are, also those that
look like nodes. So the document comes back, up to the order of fields, exactly if its nodes have no
fields to drop and their truth values are booleans. -/

namespace DynamicScope

namespace Json

def nodeClass? (fields : List (Text × Json)) : Option (String × List (String × Slot)) := do
  let name ← Ast.typeName? (field? fields "type")
  return (name, ← nodeSlots? name)

/-- What a field comes to, given as it stands and in its normal form. -/
def inSlot (raw normal : Option Json) : Slot → Json
  | .child => normal.getD null
  | .raw => raw.getD null
  | .truth => .bool (raw.getD null).isTrue

mutual

/-- The normal form of a document in the place of a tree. -/
def normal : Json → Json
  | .scalar s => .scalar s
  | .array items => .array (normalItems items)
  | .object fields =>
    match nodeClass? fields with
    | some (name, slots) =>
      .object (("type", .string name) :: slots.map fun slot =>
        (Text.proper slot.1, inSlot (field? fields slot.1) ((normalFields fields).lookup slot.1) slot.2))
    | none => .object fields

def normalItems : List Json → List Json
  | [] => []
  | item :: items => item.normal :: normalItems items

def normalFields : List (Text × Json) → List (Text × Json)
  | [] => []
  | (name, value) :: fields => (name, value.normal) :: normalFields fields

end

theorem lookup_normalFields (fields : List (Text × Json)) (name : Text) :
    (normalFields fields).lookup name = (field? fields name).map normal := by
  induction fields with
  | nil => rfl
  | cons field fields ih =>
    obtain ⟨key, value⟩ := field
    simp only [normalFields, field?, List.lookup_cons] at ih ⊢
    cases name == key with
    | true => rfl
    | false => exact ih

mutual

/-- Whether two documents are the same but for the order of the fields of their objects. -/
def Rearranged : Json → Json → Prop
  | .scalar s, document => document = .scalar s
  | .array items, document => ∃ items', document = .array items' ∧ RearrangedItems items items'
  | .object fields, document => ∃ fields' fields'', document = .object fields'' ∧
      fields'.Perm fields'' ∧ RearrangedFields fields fields'

def RearrangedItems : List Json → List Json → Prop
  | [], items' => items' = []
  | item :: items, items' => ∃ item' rest, items' = item' :: rest ∧ item.Rearranged item' ∧
      RearrangedItems items rest

def RearrangedFields : List (Text × Json) → List (Text × Json) → Prop
  | [], fields' => fields' = []
  | (name, value) :: fields, fields' => ∃ value' rest, fields' = (name, value') :: rest ∧
      value.Rearranged value' ∧ RearrangedFields fields rest

end

/-- A document whose nodes have no fields but those of their class, each once, and whose truth values
are booleans. -/
inductive Trim : Json → Prop
  | scalar (s : Scalar) : Trim (.scalar s)
  | array {items : List Json} (h : ∀ item ∈ items, Trim item) : Trim (.array items)
  | object {fields : List (Text × Json)} {name : String} {slots : List (String × Slot)}
    (node : nodeClass? fields = some (name, slots)) (distinct : (fields.map Prod.fst).Nodup)
    (known : ∀ field ∈ fields, field.1 = "type" ∨ ∃ slot ∈ slots, field.1 = slot.1)
    (children : ∀ slot ∈ slots, slot.2 = .child →
      ∀ part, field? fields slot.1 = some part → Trim part)
    (truths : ∀ slot ∈ slots, slot.2 = .truth →
      ∀ part, field? fields slot.1 = some part → ∃ b, part = .bool b) : Trim (.object fields)

end Json

namespace Ast

open Json

theorem nodeClass?_of_node? {tree : Ast} {name : String} {parts : List (String × Part)}
    {fields : List (Text × Json)} (node : tree.node? = some (name, parts))
    (typed : typeName? (field? fields "type") = some name) :
    nodeClass? fields = some (name, parts.map fun part => (part.1, part.2.slot)) := by
  rw [nodeClass?, typed]
  simp [nodeSlots?_of_node? node]

theorem field?_of_rawField {fields : List (Text × Json)} {name : String} {document : Json}
    (h : rawField fields name = .ok document) : field? fields name = some document := by
  unfold rawField at h
  split at h <;> cases h
  assumption

theorem exists_of_child {fields : List (Text × Json)} {name : String} {tree : Ast}
    (h : (match field? fields name with
      | some part => decode part
      | none => .error (.missingField name)) = .ok tree) :
    ∃ part, field? fields name = some part ∧ decode part = .ok tree := by
  split at h
  · exact ⟨_, by assumption, h⟩
  · cases h

mutual

theorem encode_eq_normal : (document : Json) → (tree : Ast) → decode document = .ok tree →
    tree.encode = document.normal
  | .scalar s, tree, h => by
    cases h
    rfl
  | .array items, tree, h => by
    rw [decode] at h
    obtain ⟨trees, read, h⟩ := bind_eq_ok.mp h
    cases h
    rw [encode, normal, encodeItems_eq_normalItems items trees read]
  | .object fields, tree, h => by
    rw [decode_object] at h
    obtain ⟨name, parts, node, typed, read⟩ := node?_of_assemble h
    simp only [encode_of_node? node, normal, nodeClass?_of_node? node typed, List.map_map]
    congr 2
    refine List.map_congr_left fun part listed => congrArg _ ?_
    have read := read part listed
    rw [lookup_normalFields]
    obtain ⟨field, part⟩ := part
    cases part with
    | child tree =>
      obtain ⟨document, found, decoded⟩ := exists_of_child read
      have same := encode_eq_normal_of_field? fields field document tree found decoded
      simp [Part.encode, Part.slot, inSlot, found, same]
    | raw document =>
      have found := field?_of_rawField read
      simp [Part.encode, Part.slot, inSlot, found]
    | truth b =>
      obtain ⟨document, read, same⟩ := read
      have found := field?_of_rawField read
      simp [Part.encode, Part.slot, inSlot, found, same]

theorem encodeItems_eq_normalItems : (items : List Json) → (trees : List Ast) →
    decodeItems items = .ok trees → encodeItems trees = normalItems items
  | [], trees, h => by
    cases h
    rfl
  | item :: items, trees, h => by
    rw [decodeItems] at h
    obtain ⟨first, read, h⟩ := bind_eq_ok.mp h
    obtain ⟨rest, readRest, h⟩ := bind_eq_ok.mp h
    cases h
    rw [encodeItems, normalItems, encode_eq_normal item first read,
      encodeItems_eq_normalItems items rest readRest]

theorem encode_eq_normal_of_field? : (fields : List (Text × Json)) → (name : Text) → (part : Json) →
    (tree : Ast) → field? fields name = some part → decode part = .ok tree →
    tree.encode = part.normal
  | [], name, part, tree, found, _ => by cases found
  | (key, value) :: fields, name, part, tree, found, h => by
    rw [field?, List.lookup_cons] at found
    split at found
    · cases found
      exact encode_eq_normal value tree h
    · exact encode_eq_normal_of_field? fields name part tree found h

end

end Ast

namespace Json

theorem field?_eq_some_iff {fields : List (Text × Json)} (distinct : (fields.map Prod.fst).Nodup)
    {name : Text} {value : Json} : field? fields name = some value ↔ (name, value) ∈ fields := by
  induction fields with
  | nil => simp [field?]
  | cons field fields ih =>
    obtain ⟨key, first⟩ := field
    obtain ⟨new, rest⟩ := List.nodup_cons.mp distinct
    rw [field?, List.lookup_cons]
    by_cases same : name = key
    · subst same
      have absent : (name, value) ∉ fields := fun listed =>
        new (List.mem_map.mpr ⟨_, listed, rfl⟩)
      simp [absent, eq_comm]
    · have apart : (name == key) = false := beq_false_of_ne same
      simpa [field?, apart, same] using ih rest

theorem selected_perm {fields : List (Text × Json)} {names : List Text}
    (distinct : (fields.map Prod.fst).Nodup) (selected : names.Nodup)
    (known : ∀ field ∈ fields, field.1 ∈ names)
    (found : ∀ name ∈ names, ∃ value, field? fields name = some value) :
    (names.map fun name => (name, (field? fields name).getD null)).Perm fields := by
  have distinct' : (names.map fun name => (name, (field? fields name).getD null)).Nodup :=
    List.Nodup.map (fun _ _ same => congrArg Prod.fst same) selected
  refine (List.perm_ext_iff_of_nodup distinct' (.of_map _ distinct)).mpr fun entry => ?_
  rw [List.mem_map]
  constructor
  · rintro ⟨name, listed, rfl⟩
    obtain ⟨value, there⟩ := found name listed
    rw [there]
    exact (field?_eq_some_iff distinct).mp there
  · intro listed
    have there := (field?_eq_some_iff distinct).mpr listed
    exact ⟨entry.1, known entry listed, by rw [there]; rfl⟩

mutual

theorem rearranged_refl : (document : Json) → document.Rearranged document
  | .scalar s => by rw [Rearranged]
  | .array items => by
    rw [Rearranged]
    exact ⟨items, rfl, rearrangedItems_refl items⟩
  | .object fields => by
    rw [Rearranged]
    exact ⟨fields, fields, rfl, .refl _, rearrangedFields_refl fields⟩

theorem rearrangedItems_refl : (items : List Json) → RearrangedItems items items
  | [] => rfl
  | item :: items => ⟨item, items, rfl, rearranged_refl item, rearrangedItems_refl items⟩

theorem rearrangedFields_refl : (fields : List (Text × Json)) → RearrangedFields fields fields
  | [] => rfl
  | (_, value) :: fields =>
    ⟨value, fields, rfl, rearranged_refl value, rearrangedFields_refl fields⟩

end

theorem rearranged_scalar {s : Scalar} {document : Json} :
    (Json.scalar s).Rearranged document ↔ document = .scalar s := by rw [Rearranged]

theorem RearrangedFields.names {fields fields' : List (Text × Json)}
    (h : RearrangedFields fields fields') : fields'.map Prod.fst = fields.map Prod.fst := by
  induction fields generalizing fields' with
  | nil =>
    rw [RearrangedFields] at h
    rw [h]
  | cons field fields ih =>
    obtain ⟨value', rest, rfl, -, h⟩ := h
    rw [List.map_cons, List.map_cons, ih h]

theorem RearrangedFields.exists_mem {fields fields' : List (Text × Json)}
    (h : RearrangedFields fields fields') {name : Text} {value : Json}
    (listed : (name, value) ∈ fields) :
    ∃ value', (name, value') ∈ fields' ∧ value.Rearranged value' := by
  induction fields generalizing fields' with
  | nil => cases listed
  | cons field fields ih =>
    obtain ⟨value', rest, rfl, first, h⟩ := h
    rcases List.mem_cons.mp listed with rfl | listed
    · exact ⟨value', List.mem_cons_self, first⟩
    · obtain ⟨value'', there, later⟩ := ih h listed
      exact ⟨value'', List.mem_cons_of_mem _ there, later⟩

theorem rearrangedFields_map {α : Type} {names : α → Text} {values values' : α → Json}
    (slots : List α) (h : ∀ slot ∈ slots, (values slot).Rearranged (values' slot)) :
    RearrangedFields (slots.map fun slot => (names slot, values slot))
      (slots.map fun slot => (names slot, values' slot)) := by
  induction slots with
  | nil => rfl
  | cons slot slots ih =>
    obtain ⟨first, rest⟩ := List.forall_mem_cons.mp h
    exact ⟨_, _, rfl, first, ih rest⟩

theorem nodup_of_nodeSlots? {name : String} {slots : List (String × Slot)}
    (h : nodeSlots? name = some slots) :
    ((Text.proper "type") :: slots.map fun slot => Text.proper slot.1).Nodup := by
  unfold nodeSlots? at h
  split at h <;> cases h <;> decide

theorem nodeSlots?_of_nodeClass? {fields : List (Text × Json)} {name : String}
    {slots : List (String × Slot)} (h : nodeClass? fields = some (name, slots)) :
    field? fields "type" = some (.string name) ∧ nodeSlots? name = some slots := by
  unfold nodeClass? at h
  obtain ⟨name', typed, h⟩ := Option.bind_eq_some_iff.mp h
  obtain ⟨slots', table, h⟩ := Option.bind_eq_some_iff.mp h
  cases h
  refine ⟨?_, table⟩
  unfold Ast.typeName? at typed
  split at typed
  · rename_i t found
    cases t <;> cases typed
    exact found
  · cases typed

theorem rearranged_object {fields : List (Text × Json)} {name : String}
    {slots : List (String × Slot)} (node : nodeClass? fields = some (name, slots))
    (h : (Json.object fields).normal.Rearranged (.object fields)) :
    (fields.map Prod.fst).Perm (Text.proper "type" :: slots.map fun slot => Text.proper slot.1) ∧
      ∀ slot ∈ slots, ∀ part, field? fields slot.1 = some part →
        (inSlot (some part) (some part.normal) slot.2).Rearranged part := by
  simp only [normal, node, Rearranged] at h
  obtain ⟨fields', fields'', same, perm, h⟩ := h
  cases same
  have names := (perm.map Prod.fst).symm
  rw [h.names, List.map_cons, List.map_map] at names
  refine ⟨names, fun slot listed part found => ?_⟩
  have distinct := names.nodup_iff.mpr (nodup_of_nodeSlots? (nodeSlots?_of_nodeClass? node).2)
  obtain ⟨part', there, same⟩ :=
    h.exists_mem (List.mem_cons_of_mem _ (List.mem_map_of_mem listed))
  rw [perm.mem_iff, ← field?_eq_some_iff distinct, found] at there
  cases there
  rwa [lookup_normalFields, found] at same

end Json

namespace Ast

open Json

mutual

theorem trim_of_rearranged : (document : Json) → (tree : Ast) → decode document = .ok tree →
    document.normal.Rearranged document → document.Trim
  | .scalar s, _, _, _ => .scalar s
  | .array items, tree, decoded, h => by
    rw [decode] at decoded
    obtain ⟨trees, read, -⟩ := bind_eq_ok.mp decoded
    rw [normal, Rearranged] at h
    obtain ⟨items', same, h⟩ := h
    cases same
    exact .array (trim_of_rearrangedItems items trees read h)
  | .object fields, tree, decoded, h => by
    rw [decode_object] at decoded
    obtain ⟨name, parts, node, typed, read⟩ := node?_of_assemble decoded
    have declared := nodeClass?_of_node? node typed
    obtain ⟨names, values⟩ := rearranged_object declared h
    have distinct := nodup_of_nodeSlots? (nodeSlots?_of_node? node)
    refine .object declared (names.nodup_iff.mpr distinct) (fun field listed => ?_) ?_ ?_
    · have known := names.mem_iff.mp (List.mem_map_of_mem listed)
      simpa [eq_comm] using known
    · intro slot listed sort part found
      have same := values slot listed part found
      rw [sort] at same
      obtain ⟨part', there, rfl⟩ := List.mem_map.mp listed
      obtain ⟨field, held⟩ := part'
      cases held with
      | raw _ | truth _ => cases sort
      | child tree' =>
        obtain ⟨part', found', decoded'⟩ := exists_of_child (read _ there)
        rw [found] at found'
        cases found'
        exact trim_of_field? fields _ part tree' found decoded' same
    · intro slot listed sort part found
      have same := values slot listed part found
      rw [sort] at same
      exact ⟨_, rearranged_scalar.mp same⟩

theorem trim_of_rearrangedItems : (items : List Json) → (trees : List Ast) →
    decodeItems items = .ok trees → RearrangedItems (normalItems items) items →
    ∀ item ∈ items, item.Trim
  | [], _, _, _ => by simp
  | item :: items, trees, decoded, h => by
    rw [decodeItems] at decoded
    obtain ⟨first, read, decoded⟩ := bind_eq_ok.mp decoded
    obtain ⟨rest, readRest, -⟩ := bind_eq_ok.mp decoded
    rw [normalItems, RearrangedItems] at h
    obtain ⟨item', items', same, head, tail⟩ := h
    cases same
    exact List.forall_mem_cons.mpr ⟨trim_of_rearranged item first read head,
      trim_of_rearrangedItems items rest readRest tail⟩

theorem trim_of_field? : (fields : List (Text × Json)) → (name : Text) → (part : Json) →
    (tree : Ast) → field? fields name = some part → decode part = .ok tree →
    part.normal.Rearranged part → part.Trim
  | [], name, part, tree, found, _, _ => by cases found
  | (key, value) :: fields, name, part, tree, found, decoded, h => by
    rw [field?, List.lookup_cons] at found
    split at found
    · cases found
      exact trim_of_rearranged value tree decoded h
    · exact trim_of_field? fields name part tree found decoded h

end

theorem exists_field {fields : List (Text × Json)} {name : String} {slots : List (String × Slot)}
    {tree : Ast} (node : nodeClass? fields = some (name, slots))
    (decoded : decode (.object fields) = .ok tree) :
    ∀ slot ∈ slots, ∃ part, field? fields slot.1 = some part ∧
      (slot.2 = .child → ∃ child, decode part = .ok child) := by
  rw [decode_object] at decoded
  obtain ⟨name', parts, node', typed, read⟩ := node?_of_assemble decoded
  rw [nodeClass?_of_node? node' typed] at node
  cases node
  intro slot listed
  obtain ⟨⟨field, part⟩, there, rfl⟩ := List.mem_map.mp listed
  have read := read _ there
  cases part with
  | child child =>
    obtain ⟨part, found, decoded⟩ := exists_of_child read
    exact ⟨part, found, fun _ => ⟨child, decoded⟩⟩
  | raw document => exact ⟨document, field?_of_rawField read, nofun⟩
  | truth b =>
    obtain ⟨document, read, -⟩ := read
    exact ⟨document, field?_of_rawField read, nofun⟩

theorem rearrangedItems_normal {items : List Json}
    (each : ∀ item ∈ items, ∀ tree, decode item = .ok tree → item.normal.Rearranged item)
    {trees : List Ast} (decoded : decodeItems items = .ok trees) :
    RearrangedItems (normalItems items) items := by
  induction items generalizing trees with
  | nil => rfl
  | cons item items ih =>
    rw [decodeItems] at decoded
    obtain ⟨first, read, decoded⟩ := bind_eq_ok.mp decoded
    obtain ⟨rest, readRest, -⟩ := bind_eq_ok.mp decoded
    obtain ⟨head, tail⟩ := List.forall_mem_cons.mp each
    exact ⟨item, items, rfl, head first read, ih tail readRest⟩

theorem rearranged_of_trim {document : Json} (h : document.Trim) :
    ∀ tree, decode document = .ok tree → document.normal.Rearranged document := by
  induction h with
  | scalar s => exact fun _ _ => rearranged_refl _
  | @array items _ ih =>
    intro tree decoded
    rw [decode] at decoded
    obtain ⟨trees, read, -⟩ := bind_eq_ok.mp decoded
    rw [normal, Rearranged]
    exact ⟨items, rfl, rearrangedItems_normal ih read⟩
  | @object fields name slots node distinct known _ truths ih =>
    intro tree decoded
    have declared := exists_field node decoded
    obtain ⟨typed, table⟩ := nodeSlots?_of_nodeClass? node
    have selected := selected_perm distinct (nodup_of_nodeSlots? table)
      (fun field listed => by simpa [eq_comm] using known field listed)
      (List.forall_mem_cons.mpr ⟨⟨_, typed⟩, fun field listed => by
        obtain ⟨slot, there, rfl⟩ := List.mem_map.mp listed
        obtain ⟨part, found, -⟩ := declared slot there
        exact ⟨part, found⟩⟩)
    rw [List.map_cons, List.map_map, typed] at selected
    simp only [normal, node, Rearranged]
    refine ⟨_, fields, rfl, selected, _, _, rfl, rearranged_refl _,
      rearrangedFields_map slots fun slot listed => ?_⟩
    obtain ⟨part, found, child⟩ := declared slot listed
    rw [lookup_normalFields, found]
    obtain ⟨field, sort⟩ := slot
    cases sort with
    | child =>
      obtain ⟨tree', decoded'⟩ := child rfl
      exact ih _ listed rfl part found tree' decoded'
    | raw => exact rearranged_refl part
    | truth =>
      obtain ⟨b, rfl⟩ := truths _ listed rfl part found
      exact rearranged_refl _

/-- Encoding what a document decodes to gives the normal form of the document. It is the document
itself, up to the order of fields, exactly if no node in it has a field besides those of its class
and every truth value in it is a boolean. -/
theorem reencoding {document : Json} {tree : Ast} (h : decode document = .ok tree) :
    tree.encode = document.normal ∧ (tree.encode.Rearranged document ↔ document.Trim) := by
  have same := encode_eq_normal document tree h
  refine ⟨same, ?_⟩
  rw [same]
  exact ⟨trim_of_rearranged document tree h, fun trim => rearranged_of_trim trim tree h⟩

def annotated : Json :=
  .object [("note", .null), ("statements", .array [
      .object [("value", .string ""), ("type", .string "BooleanLiteral")],
      .object [("type", .string "Numeral"), ("value", .object [("type", .string "Call")])]]),
    ("type", .string "Block")]

theorem reencoding_annotated :
    decode annotated = .ok (.block (.list [.booleanLiteral false,
      .numeral (.object [("type", .string "Call")])])) ∧
    encode (.block (.list [.booleanLiteral false,
      .numeral (.object [("type", .string "Call")])])) = annotated.normal ∧
    ¬ (encode (.block (.list [.booleanLiteral false,
      .numeral (.object [("type", .string "Call")])]))).Rearranged annotated := by
  have decoded : decode annotated = .ok (.block (.list [.booleanLiteral false,
      .numeral (.object [("type", .string "Call")])])) := rfl
  obtain ⟨same, iff⟩ := reencoding decoded
  refine ⟨decoded, same, fun again => ?_⟩
  cases iff.mp again with
  | object node distinct known =>
    cases node
    simpa using known ("note", .null) List.mem_cons_self

end Ast

end DynamicScope
