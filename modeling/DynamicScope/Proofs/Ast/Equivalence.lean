import DynamicScope.Proofs.Ast.Contains
import DynamicScope.Proofs.Ast.Scalars
import DynamicScope.Proofs.Json.Meaning

/-! Equality of trees as equality of what they are encoded as.
Two nodes are equal if they have one class and equal parts, and so are the objects that they are
encoded as; thus trees are equal exactly if their documents are, which is to stand for the same. -/

namespace DynamicScope

namespace Ast

theorem sizeOf_lt_of_mem_children {tree child : Ast} (h : child ∈ tree.children) :
    sizeOf child < sizeOf tree := by
  cases tree with
  | list items =>
    have inside := List.sizeOf_lt_of_mem (show child ∈ items from h)
    simp only [list.sizeOf_spec]
    omega
  | _ =>
    simp [children, node?] at h
    try (rcases h with rfl | rfl | rfl)
    all_goals simp
    all_goals omega

@[elab_as_elim]
theorem inductionOnChildren {P : Ast → Prop}
    (step : ∀ tree, (∀ child ∈ tree.children, P child) → P tree) (tree : Ast) : P tree :=
  step tree fun child listed =>
    have := sizeOf_lt_of_mem_children listed
    inductionOnChildren step child
termination_by sizeOf tree

end Ast

def Part.same : Part → Part → Bool
  | .child a, .child b => a.same b
  | .raw a, .raw b => a.same b
  | .truth a, .truth b => a = b
  | _, _ => false

namespace Json

theorem forall_field?_iff {R : Json → Json → Prop} {fields fields' : List (Text × Json)}
    (keys : fields.map Prod.fst = fields'.map Prod.fst) (distinct : (fields.map Prod.fst).Nodup) :
    (∀ key, Option.Rel R (field? fields key) (field? fields' key)) ↔
      List.Forall₂ (fun field field' => R field.2 field'.2) fields fields' := by
  induction fields generalizing fields' with
  | nil =>
    obtain rfl : fields' = [] := List.map_eq_nil_iff.mp keys.symm
    exact iff_of_true (fun _ => .none) .nil
  | cons field fields ih =>
    cases fields' with
    | nil => cases keys
    | cons field' fields' =>
      obtain ⟨key, value⟩ := field
      obtain ⟨key', value'⟩ := field'
      obtain ⟨rfl, rest⟩ := List.cons.inj keys
      obtain ⟨new, distinct⟩ := List.nodup_cons.mp distinct
      rw [List.forall₂_cons, ← ih rest distinct]
      have absent : field? fields key = none := by
        rwa [← Option.not_isSome_iff_eq_none, isSome_field?]
      have absent' : field? fields' key = none := by
        rwa [← Option.not_isSome_iff_eq_none, isSome_field?, ← rest]
      constructor
      · intro related
        refine ⟨by simpa [field?] using related key, fun k => ?_⟩
        by_cases same : k = key
        · rw [same, absent, absent']
          exact .none
        · simpa [field?, List.lookup_cons, beq_false_of_ne same] using related k
      · rintro ⟨first, related⟩ k
        by_cases same : k = key
        · simpa [field?, same] using first
        · simpa [field?, List.lookup_cons, beq_false_of_ne same] using related k

end Json

namespace Ast

theorem class_of_same {a b : Ast} (h : a.same b = true) :
    a.node?.map Prod.fst = b.node?.map Prod.fst := by
  cases a <;> cases b <;> first | rfl | cases h

theorem same_of_class {a b : Ast} {name : String} {parts parts' : List (String × Part)}
    (ha : a.node? = some (name, parts)) (hb : b.node? = some (name, parts')) :
    a.same b = true ↔ List.Forall₂ (fun part part' => part.2.same part'.2 = true) parts parts' := by
  cases a <;> cases ha <;> cases b <;> first
    | (cases hb; simp [same, Part.same, and_assoc])
    | simp [node?] at hb

theorem same_of_node? {a b : Ast} {name name' : String} {parts parts' : List (String × Part)}
    (ha : a.node? = some (name, parts)) (hb : b.node? = some (name', parts')) :
    a.same b = true ↔ name = name' ∧
      List.Forall₂ (fun part part' => part.2.same part'.2 = true) parts parts' := by
  constructor
  · intro h
    have classes := class_of_same h
    rw [ha, hb] at classes
    cases classes
    exact ⟨rfl, (same_of_class ha hb).mp h⟩
  · rintro ⟨rfl, h⟩
    exact (same_of_class ha hb).mpr h

theorem same_encodeItems {items items' : List Ast}
    (each : ∀ item ∈ items, ∀ item' ∈ items', item.encode.same item'.encode = item.same item') :
    Json.sameItems (encodeItems items) (encodeItems items') = sameItems items items' := by
  induction items generalizing items' with
  | nil => cases items' <;> rfl
  | cons item items ih =>
    cases items' with
    | nil => rfl
    | cons item' items' =>
      rw [encodeItems, encodeItems, Json.sameItems, sameItems,
        each item List.mem_cons_self item' List.mem_cons_self,
        ih fun item listed item' listed' =>
          each item (List.mem_cons_of_mem _ listed) item' (List.mem_cons_of_mem _ listed')]

theorem keys_of_parts (name : String) (parts : List (String × Part)) :
    ((Text.proper "type", Json.string name) ::
        parts.map fun part => (Text.proper part.1, part.2.encode)).map Prod.fst =
      Text.proper "type" ::
        (parts.map fun part => (part.1, part.2.slot)).map fun slot => Text.proper slot.1 := by
  rw [List.map_cons, List.map_map, List.map_map]
  rfl

theorem same_encode_of_node? {a b : Ast} {name name' : String} {parts parts' : List (String × Part)}
    (ha : a.node? = some (name, parts)) (hb : b.node? = some (name', parts')) :
    a.encode.same b.encode = true ↔ name = name' ∧
      List.Forall₂ (fun part part' => part.2.encode.same part'.2.encode = true) parts parts' := by
  have slots := nodeSlots?_of_node? ha
  have slots' := nodeSlots?_of_node? hb
  have distinct := Json.nodup_of_nodeSlots? slots
  have distinct' := Json.nodup_of_nodeSlots? slots'
  rw [← keys_of_parts name] at distinct
  rw [← keys_of_parts name'] at distinct'
  rw [encode_of_node? ha, encode_of_node? hb, Json.same_object distinct distinct']
  by_cases same : name = name'
  · subst same
    have keys := Option.some.inj (slots.symm.trans slots')
    rw [Json.forall_field?_iff (by rw [keys_of_parts, keys_of_parts, keys]) distinct,
      List.forall₂_cons, List.forall₂_map_left_iff, List.forall₂_map_right_iff]
    simp [Json.same, Json.string, Scalar.same]
  · refine iff_of_false (fun related => ?_) fun h => same h.1
    have typed := related "type"
    simp [Json.field?, Json.same, Json.string, Scalar.same, Scalar.key, same] at typed

theorem mem_children_of_node? {a child : Ast} {name field : String}
    {parts : List (String × Part)} (ha : a.node? = some (name, parts))
    (h : (field, Part.child child) ∈ parts) : child ∈ a.children := by
  cases a <;> cases ha <;> exact List.mem_filterMap.mpr ⟨_, h, rfl⟩

theorem same_encode_part {part part' : Part} (slot : part.slot = part'.slot)
    (trees : ∀ a, part = .child a → ∀ b : Ast, a.encode.same b.encode = a.same b) :
    part.encode.same part'.encode = part.same part' := by
  cases part <;> cases part' <;> cases slot
  case child.child a b => exact trees a rfl b
  case raw.raw => rfl
  case truth.truth a b => cases a <;> cases b <;> decide +kernel

theorem forall₂_encode_iff {parts parts' : List (String × Part)}
    (slots : (parts.map fun part => (part.1, part.2.slot)) =
      parts'.map fun part => (part.1, part.2.slot))
    (trees : ∀ part ∈ parts, ∀ a, part.2 = .child a → ∀ b : Ast, a.encode.same b.encode = a.same b) :
    List.Forall₂ (fun part part' => part.2.encode.same part'.2.encode = true) parts parts' ↔
      List.Forall₂ (fun part part' => part.2.same part'.2 = true) parts parts' := by
  induction parts generalizing parts' with
  | nil =>
    obtain rfl : parts' = [] := List.map_eq_nil_iff.mp slots.symm
    exact iff_of_true .nil .nil
  | cons part parts ih =>
    cases parts' with
    | nil => cases slots
    | cons part' parts' =>
      obtain ⟨first, rest⟩ := List.cons.inj slots
      rw [List.forall₂_cons, List.forall₂_cons,
        same_encode_part (congrArg Prod.snd first) (trees part List.mem_cons_self),
        ih rest fun part listed => trees part (List.mem_cons_of_mem _ listed)]

theorem same_encode (a b : Ast) : a.encode.same b.encode = a.same b := by
  induction a using inductionOnChildren generalizing b with
  | step a ih =>
    cases ha : a.node? with
    | some node =>
      cases hb : b.node? with
      | some node' =>
        rw [Bool.eq_iff_iff, same_encode_of_node? ha hb, same_of_node? ha hb]
        refine and_congr_right fun same => forall₂_encode_iff ?_ fun part listed a child => ?_
        · have slots := nodeSlots?_of_node? ha
          rw [same, nodeSlots?_of_node? hb] at slots
          exact (Option.some.inj slots).symm
        · exact ih a (mem_children_of_node? ha (child ▸ show (part.1, part.2) ∈ _ from listed))
      | none =>
        rw [encode_of_node? ha]
        cases b with
        | scalar s => cases a <;> first | rfl | cases ha
        | list items => cases a <;> first | (rw [encode]; rfl) | cases ha
        | _ => cases hb
    | none =>
      cases a with
      | scalar s => cases b <;> rfl
      | list items =>
        cases b with
        | list items' =>
          rw [encode, encode, Json.same, same]
          exact same_encodeItems fun item listed item' _ => ih item listed item'
        | _ => rw [encode, encode]; rfl
      | _ => cases ha

/-- Whether a tree is decoded from some document in which no object has a key twice. -/
def Decodable (tree : Ast) : Prop :=
  ∃ document : Json, document.Every (fun _ => True) List.Nodup ∧ decode document = .ok tree

def NanFree (tree : Ast) : Prop :=
  tree.encode.Every (· ≠ .number (.double .nan)) fun _ => True

variable {a b c : Ast}

theorem Decodable.distinct (h : a.Decodable) : a.encode.Every (fun _ => True) List.Nodup := by
  obtain ⟨document, distinct, decoded⟩ := h
  exact Json.every_encode ⟨trivial, fun _ => trivial, fun _ => trivial, fun distinct => distinct⟩
    decoded distinct

theorem equal_eq_same (h : a.NanFree) : a.equal b = a.same b := by
  unfold equal
  split
  case h_1 m n =>
    have number : m ≠ .double .nan := fun nan => h (nan ▸ rfl)
    rw [Number.equal_of_ne_nan number, same, Scalar.same, Scalar.key, Scalar.key]
    exact decide_eq_decide.mpr ⟨congrArg Scalar.Key.number, Scalar.Key.number.inj⟩
  case h_2 => rfl

theorem same_iff_meaning (ha : a.Decodable) (hb : b.Decodable) :
    a.same b = true ↔ a.encode.meaning = b.encode.meaning := by
  rw [← same_encode, Json.same_iff_meaning ha.distinct hb.distinct]

/-- Among decoded trees without NaN equality is an equivalence. It is that of the encoded documents,
which compares numbers and booleans by exact value and objects whatever the order of their keys. -/
theorem equal_equivalence (ha : a.Decodable) (hb : b.Decodable) (hc : c.Decodable)
    (na : a.NanFree) (nb : b.NanFree) :
    a.equal a = true ∧ (a.equal b = true → b.equal a = true) ∧
      (a.equal b = true → b.equal c = true → a.equal c = true) ∧
      (a.equal b = true ↔ a.encode.same b.encode = true) ∧
      (a.equal b = true ↔ a.encode.meaning = b.encode.meaning) := by
  rw [equal_eq_same na, equal_eq_same na, equal_eq_same na, equal_eq_same nb, equal_eq_same nb,
    same_encode, same_iff_meaning ha ha, same_iff_meaning ha hb, same_iff_meaning hb ha,
    same_iff_meaning hb hc, same_iff_meaning ha hc]
  exact ⟨rfl, Eq.symm, Eq.trans, Iff.rfl, Iff.rfl⟩

/-- A malformed tree with a numeral that is written with integers; the next two are the same written
with reals and with truth values, and with the fields in another order. -/
def spelledAsIntegers : Ast :=
  .call (.numeral (.object [("a", .scalar (.number (.integer 1))),
    ("b", .scalar (.number (.integer 0)))])) (.list [.scalar .null])

def spelledAsReals : Ast :=
  .call (.numeral (.object [("b", .scalar (.number (.double (.zero true)))),
    ("a", .scalar (.number (.double (.ofInt 1))))])) (.list [.scalar .null])

def spelledAsBooleans : Ast :=
  .call (.numeral (.object [("b", .bool false), ("a", .bool true)])) (.list [.scalar .null])

theorem equal_equivalence_spelled :
    spelledAsIntegers.Decodable ∧ spelledAsReals.Decodable ∧ spelledAsBooleans.Decodable ∧
      spelledAsIntegers.NanFree ∧ spelledAsReals.NanFree ∧
      spelledAsIntegers.equal spelledAsReals = true ∧
      spelledAsReals.equal spelledAsBooleans = true ∧
      spelledAsIntegers.equal spelledAsBooleans = true ∧
      spelledAsIntegers.encode.meaning = spelledAsReals.encode.meaning := by
  have decodable : spelledAsIntegers.Decodable ∧ spelledAsReals.Decodable ∧
      spelledAsBooleans.Decodable := by
    refine ⟨⟨_, ?_, decode_encode _⟩, ⟨_, ?_, decode_encode _⟩, ⟨_, ?_, decode_encode _⟩⟩ <;>
      simp [spelledAsIntegers, spelledAsReals, spelledAsBooleans, encode, encodeItems, Json.Every,
        Json.EveryItem, Json.EveryField, Json.string, Json.bool]
  have nanFree : spelledAsIntegers.NanFree ∧ spelledAsReals.NanFree := by
    have one : Double.ofInt 1 ≠ .nan := by decide +kernel
    have zero : Double.zero true ≠ .nan := by
      intro same
      cases same
    simp [spelledAsIntegers, spelledAsReals, NanFree, encode, encodeItems, Json.Every,
      Json.EveryItem, Json.EveryField, Json.string, one, zero]
  obtain ⟨integers, reals, booleans⟩ := decodable
  obtain ⟨-, -, trans, -, same⟩ := equal_equivalence integers reals booleans nanFree.1 nanFree.2
  have first : spelledAsIntegers.equal spelledAsReals = true := by decide +kernel
  have second : spelledAsReals.equal spelledAsBooleans = true := by decide +kernel
  exact ⟨integers, reals, booleans, nanFree.1, nanFree.2, first, second, trans first second,
    same.mp first⟩

/-- An integer next to a double that is not equal to it. -/
example :
    (numeral (.scalar (.number (.integer (2 ^ 53 + 1))))).equal
      (numeral (.scalar (.number (.double (.ofInt (2 ^ 53 + 1)))))) = false := by
  decide +kernel

end Ast

end DynamicScope
