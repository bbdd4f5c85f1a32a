import DynamicScope.Proofs.Ast.Contains
import DynamicScope.Proofs.Simulation.Execute
import DynamicScope.Proofs.Value.Form
import DynamicScope.Run.Program

/-! Trees and values with other names.
Giving the identifiers of a tree other names changes what is read as a name and nothing else: lists
stay lists of as many items, and what is malformed stays malformed in the same way. In a value there
are names only in the code of functions. -/

namespace DynamicScope

def Scalar.relabel (r : Text → Text) : Scalar → Scalar
  | .string t => .string (r t)
  | s => s

def Json.relabel (r : Text → Text) : Json → Json
  | .scalar s => .scalar (s.relabel r)
  | name => name

@[simp] theorem Json.isShort_relabel (r : Text → Text) (name : Json) :
    (name.relabel r).isShort = name.isShort := by
  cases name with
  | scalar s => cases s <;> rfl
  | _ => rfl

theorem Scalar.key_relabel_iff {r : Text → Text} (inj : Function.Injective r) (m n : Scalar) :
    (m.relabel r).key = (n.relabel r).key ↔ m.key = n.key := by
  have strings (s t : Text) : Key.text (r s) = Key.text (r t) ↔ Key.text s = Key.text t :=
    ⟨fun h => congrArg Key.text (inj (Key.text.inj h)),
      fun h => congrArg (fun t => Key.text (r t)) (Key.text.inj h)⟩
  cases m <;> cases n <;> first | exact Iff.rfl | exact strings _ _ | exact ⟨nofun, nofun⟩

theorem Name.ofJson?_relabel (r : Text → Text) (name : Json) :
    Name.ofJson? (name.relabel r) = (Name.ofJson? name).map (Scalar.relabel r) := by
  cases name <;> rfl

namespace Ast

mutual

/-- The tree with other strings as names of its identifiers. -/
def relabel (r : Text → Text) : Ast → Ast
  | .scalar s => .scalar s
  | .list items => .list (relabelAll r items)
  | .program body => .program (body.relabel r)
  | .block statements => .block (statements.relabel r)
  | .variableDeclaration id part => .variableDeclaration (id.relabel r) (part.relabel r)
  | .functionDeclaration id parameters body =>
    .functionDeclaration (id.relabel r) (parameters.relabel r) (body.relabel r)
  | .assignment id part => .assignment (id.relabel r) (part.relabel r)
  | .printStatement part => .printStatement (part.relabel r)
  | .whileStatement test body => .whileStatement (test.relabel r) (body.relabel r)
  | .numeral value => .numeral value
  | .booleanLiteral b => .booleanLiteral b
  | .identifier name => .identifier (name.relabel r)
  | .unary operator part => .unary operator (part.relabel r)
  | .binary operator left right => .binary operator (left.relabel r) (right.relabel r)
  | .conditional test first second =>
    .conditional (test.relabel r) (first.relabel r) (second.relabel r)
  | .arrayLiteral elements => .arrayLiteral (elements.relabel r)
  | .subscript array index => .subscript (array.relabel r) (index.relabel r)
  | .call callee args => .call (callee.relabel r) (args.relabel r)

def relabelAll (r : Text → Text) : List Ast → List Ast
  | [] => []
  | item :: items => item.relabel r :: relabelAll r items

end

variable (r : Text → Text)

theorem relabelAll_eq_map (items : List Ast) : relabelAll r items = items.map (relabel r) := by
  induction items with
  | nil => rfl
  | cons item items ih => rw [relabelAll, ih, List.map_cons]

@[simp] theorem relabel_list (items : List Ast) :
    (Ast.list items).relabel r = .list (items.map (relabel r)) := by
  rw [relabel, relabelAll_eq_map]

@[simp] theorem className_relabel (tree : Ast) : (tree.relabel r).className = tree.className := by
  cases tree <;> rfl

@[simp] theorem qualifiedClass_relabel (tree : Ast) :
    (tree.relabel r).qualifiedClass = tree.qualifiedClass := by
  cases tree <;> rfl

@[simp] theorem isStatement_relabel (tree : Ast) :
    (tree.relabel r).isStatement = tree.isStatement := by
  cases tree <;> rfl

@[simp] theorem isExpression_relabel (tree : Ast) :
    (tree.relabel r).isExpression = tree.isExpression := by
  cases tree <;> rfl

theorem name?_relabel (id : Ast) : (id.relabel r).name? = id.name?.map (Json.relabel r) := by
  cases id <;> rfl

@[simp] theorem count?_relabel (tree : Ast) : (tree.relabel r).count? = tree.count? := by
  cases tree with
  | list items => rw [relabel_list, count?, count?, List.length_map]
  | _ => rfl

@[simp] theorem noParts_relabel (unexpected : String → Failure) (tree : Ast) :
    (tree.relabel r).noParts unexpected = tree.noParts unexpected := by
  cases tree <;> rfl

theorem relabel_ne_list {tree : Ast} (h : ∀ items, tree ≠ .list items) (items : List Ast) :
    tree.relabel r ≠ .list items := by
  cases tree with
  | list items => exact absurd rfl (h items)
  | _ => nofun

theorem mapM_name?_relabel (items : List Ast) :
    (items.map (relabel r)).mapM name? = (items.mapM name?).map (List.map (Json.relabel r)) := by
  induction items with
  | nil => rfl
  | cons item items ih =>
    rw [List.map_cons, List.mapM_cons, List.mapM_cons, ih, name?_relabel]
    cases item.name? with
    | error e => rfl
    | ok name => cases items.mapM name? <;> rfl

theorem parameterNames_relabel (parameters : Ast) :
    (parameters.relabel r).parameterNames =
      parameters.parameterNames.map (List.map (Json.relabel r)) := by
  cases parameters with
  | list items => rw [relabel_list]; exact mapM_name?_relabel r items
  | scalar s =>
    cases s with
    | string t =>
      -- The characters of a string are no identifiers, so the first one already fails.
      change (t.codes.map _).mapM name? = ((t.codes.map _).mapM name?).map _
      cases t.codes with
      | nil => rfl
      | cons code codes =>
        rw [List.map_cons, List.mapM_cons]
        rfl
    | _ => rfl
  | _ => rfl

theorem block?_relabel (program : Ast) :
    (program.relabel r).block? = program.block?.map (relabel r) := by
  cases program with
  | program | whileStatement => rfl
  | _ => exact congrArg Except.error (congrArg (Failure.missingPart · "block") (className_relabel r _))

theorem children_relabel (tree : Ast) :
    (tree.relabel r).children = tree.children.map (relabel r) := by
  cases tree with
  | list items => rw [relabel_list]; rfl
  | _ => rfl

theorem contains_relabel {tree part : Ast} (h : (tree.relabel r).Contains part) :
    ∃ original, tree.Contains original ∧ original.relabel r = part := by
  induction h with
  | refl => exact ⟨tree, .refl, rfl⟩
  | tail _ last ih =>
    obtain ⟨original, path, rfl⟩ := ih
    rw [children_relabel] at last
    obtain ⟨child, listed, rfl⟩ := List.mem_map.mp last
    exact ⟨child, .tail path listed, rfl⟩

end Ast

namespace Value

mutual

/-- The value with other strings as names in the code of its functions. -/
def relabel (r : Text → Text) : Value → Value
  | .array i items => .array i (relabelAll r items)
  | .function i parameters body => .function i (parameters.relabel r) (body.relabel r)
  | .number n => .number n
  | .boolean b => .boolean b
  | .builtin i f => .builtin i f
  | .undefined => .undefined
  | .text s => .text s
  | .nothing => .nothing

def relabelAll (r : Text → Text) : List Value → List Value
  | [] => []
  | v :: vs => v.relabel r :: relabelAll r vs

end

variable (r : Text → Text)

theorem relabelAll_eq_map (vs : List Value) : relabelAll r vs = vs.map (relabel r) := by
  induction vs with
  | nil => rfl
  | cons v vs ih => rw [relabelAll, ih, List.map_cons]

@[simp] theorem relabel_array (i : Nat) (items : List Value) :
    (Value.array i items).relabel r = .array i (items.map (relabel r)) := by
  rw [relabel, relabelAll_eq_map]

theorem relabel_of_isPlain {v : Value} (h : v.isPlain = true) : v.relabel r = v := by
  cases v <;> first | rfl | cases h

theorem resembles_relabel : Resembles fun v v' => v.relabel r = v' where
  form := by
    rintro v _ rfl
    cases v with
    | array i items =>
      rw [relabel_array]
      exact .array i i (forall₂_graph_iff.mpr rfl)
    | number n => exact .number n
    | boolean b => exact .boolean b
    | builtin i f => exact .builtin i i f
    | function i parameters body => exact .function i i _ _ _ _
    | undefined => exact .undefined
    | text s => exact .text s
    | nothing => exact .nothing
  equal := by
    rintro a _ b _ rfl rfl
    cases a <;> cases b <;> rfl

end Value

end DynamicScope
