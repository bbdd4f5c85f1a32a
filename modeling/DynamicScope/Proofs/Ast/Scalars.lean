import DynamicScope.Proofs.Ast.Contains
import DynamicScope.Proofs.Ast.Normal
import DynamicScope.Proofs.Json.Every

/-! What holds of every part of a normal form.
Encoding adds no scalars but those that name classes and fields, null and truth values, and the fields
of a node are distinct; the rest of a normal form stands in the document it is of. -/

namespace DynamicScope

namespace Json

/-- What holds of the scalars that encoding may add, and of the keys of every node. -/
structure OfNodes (p : Scalar → Prop) (q : List Text → Prop) : Prop where
  null : p .null
  bool (b : Bool) : p (.bool b)
  string (s : String) : p (.string s)
  keys {names : List Text} (distinct : names.Nodup) : q names

variable {p : Scalar → Prop} {q : List Text → Prop}

theorem every_getD (nodes : OfNodes p q) {fields : List (Text × Json)} (h : EveryField p q fields)
    (name : Text) : ((fields.lookup name).getD null).Every p q := by
  cases found : fields.lookup name with
  | none => exact nodes.null
  | some value =>
    obtain ⟨before, after, rfl, -⟩ := List.lookup_eq_some_iff.mp found
    exact (everyField_iff.mp h _ (List.mem_append_right _ List.mem_cons_self)).2

mutual

theorem every_normal (nodes : OfNodes p q) : (document : Json) → document.Every p q →
    document.normal.Every p q
  | .scalar _, h => h
  | .array items, h => everyItem_normalItems nodes items h
  | .object fields, h => by
    have normals := everyField_normalFields nodes fields h.2
    rw [normal]
    split
    · rename_i name slots node
      have distinct := nodup_of_nodeSlots? (nodeSlots?_of_nodeClass? node).2
      refine ⟨?_, nodes.string _, nodes.string _, everyField_iff.mpr fun field listed => ?_⟩
      · rw [List.map_cons, List.map_map]
        exact nodes.keys distinct
      · obtain ⟨⟨name, slot⟩, -, rfl⟩ := List.mem_map.mp listed
        refine ⟨nodes.string _, ?_⟩
        cases slot with
        | child => exact every_getD nodes normals name
        | raw => exact every_getD nodes h.2 name
        | truth => exact nodes.bool _
    · exact h

theorem everyItem_normalItems (nodes : OfNodes p q) : (items : List Json) → EveryItem p q items →
    EveryItem p q (normalItems items)
  | [], _ => trivial
  | item :: items, h => ⟨every_normal nodes item h.1, everyItem_normalItems nodes items h.2⟩

theorem everyField_normalFields (nodes : OfNodes p q) : (fields : List (Text × Json)) →
    EveryField p q fields → EveryField p q (normalFields fields)
  | [], _ => trivial
  | (_, value) :: fields, h =>
    ⟨h.1, every_normal nodes value h.2.1, everyField_normalFields nodes fields h.2.2⟩

end

theorem every_encode (nodes : OfNodes p q) {document : Json} {tree : Ast}
    (decoded : Ast.decode document = .ok tree) (h : document.Every p q) :
    tree.encode.Every p q := by
  rw [Ast.encode_eq_normal document tree decoded]
  exact every_normal nodes document h

end Json

end DynamicScope
