import DynamicScope.Proofs.Run.Machine
import DynamicScope.Run.Program

/-! Blocks inside blocks.
A block has no scope of its own, so its statements do the same in its place. A tree is flattened by
putting the statements of every block that stands in a list of statements in the place of the block, at
every depth, and a flattened tree runs as the tree does. -/

namespace DynamicScope

namespace Ast

mutual

/-- A statement, or a program, without blocks inside its lists of statements. -/
def flatten : Ast → Ast
  | .program body => .program body.flatten
  | .whileStatement test body => .whileStatement test body.flatten
  | .block statements => .block statements.flattenParts
  | tree => tree

def flattenParts : Ast → Ast
  | .list items => .list (flattenAll items)
  | tree => tree

/-- Statements with those of each block among them in its place. -/
def flattenAll : List Ast → List Ast
  | [] => []
  | .block (.list inner) :: items => flattenAll inner ++ flattenAll items
  | item :: items => item.flatten :: flattenAll items

end

inductive Lists : Ast → List Ast → Prop
  | here {items : List Ast} : Lists (.block (.list items)) items
  | inside {items inner : List Ast} {item : Ast} (listed : item ∈ items) (h : Lists item inner) :
    Lists (.block (.list items)) inner
  | body {test block : Ast} {items : List Ast} (h : Lists block items) :
    Lists (.whileStatement test block) items
  | program {block : Ast} {items : List Ast} (h : Lists block items) : Lists (.program block) items

def isBlock : Ast → Bool
  | .block _ => true
  | _ => false

def isCompound : Ast → Bool
  | .block _ | .whileStatement .. | .program _ => true
  | _ => false

/-- Whether no list of statements in a tree has a block in it. -/
def Flat (tree : Ast) : Prop := ∀ items, tree.Lists items → ∀ item ∈ items, item.isBlock = false

/-- Whether the lists of statements are lists, and the bodies of loops and programs blocks. -/
inductive Arranged : Ast → Prop
  | block {items : List Ast} (h : ∀ item ∈ items, Arranged item) : Arranged (.block (.list items))
  | whileStatement {test statements : Ast} (h : Arranged (.block statements)) :
    Arranged (.whileStatement test (.block statements))
  | program {statements : Ast} (h : Arranged (.block statements)) :
    Arranged (.program (.block statements))
  | simple {tree : Ast} (h : tree.isCompound = false) : Arranged tree

variable {tree : Ast} {items : List Ast}

theorem Arranged.block_cons (first : tree.Arranged) (rest : (Ast.block (.list items)).Arranged) :
    (Ast.block (.list (tree :: items))).Arranged := by
  cases rest with
  | block h => exact .block (List.forall_mem_cons.mpr ⟨first, h⟩)
  | simple h => cases h

theorem flattenAll_cons (h : ¬ ∃ inner, tree = .block (.list inner)) :
    flattenAll (tree :: items) = tree.flatten :: flattenAll items :=
  flattenAll.eq_3 tree items fun inner same => h ⟨inner, same⟩

theorem Arranged.isBlock (h : tree.Arranged) (h' : ¬ ∃ inner, tree = .block (.list inner)) :
    tree.isBlock = false := by
  cases h with
  | block => exact absurd ⟨_, rfl⟩ h'
  | simple h => cases tree <;> first | rfl | cases h
  | _ => rfl

theorem flatten_of_simple (h : tree.isCompound = false) : tree.flatten = tree := by
  cases tree <;> first | rfl | cases h

theorem isBlock_flatten (tree : Ast) : tree.flatten.isBlock = tree.isBlock := by
  cases tree <;> rfl

theorem flat_of_simple (h : tree.isCompound = false) : tree.Flat := by
  intro items listed
  cases listed <;> cases h

theorem flat_block (h : ∀ item ∈ items, item.isBlock = false ∧ item.Flat) :
    (Ast.block (.list items)).Flat := by
  intro inner listed
  cases listed with
  | here => exact fun item inside => (h item inside).1
  | inside inside listed => exact (h _ inside).2 _ listed

theorem flat_whileStatement {test body : Ast} (h : body.Flat) : (Ast.whileStatement test body).Flat := by
  intro items listed
  cases listed with
  | body listed => exact h items listed

theorem flat_program {body : Ast} (h : body.Flat) : (Ast.program body).Flat := by
  intro items listed
  cases listed with
  | program listed => exact h items listed

mutual

theorem arranged_flatten (tree : Ast) (h : tree.Arranged) :
    tree.flatten.Arranged ∧ tree.flatten.Flat := by
  cases h with
  | @block items h =>
    have each := arranged_flattenAll items h
    exact ⟨.block fun item listed => (each item listed).1,
      flat_block fun item listed => (each item listed).2⟩
  | @whileStatement test statements h =>
    obtain ⟨arranged, flat⟩ := arranged_flatten (.block statements) h
    exact ⟨.whileStatement arranged, flat_whileStatement flat⟩
  | @program statements h =>
    obtain ⟨arranged, flat⟩ := arranged_flatten (.block statements) h
    exact ⟨.program arranged, flat_program flat⟩
  | simple h =>
    rw [flatten_of_simple h]
    exact ⟨.simple h, flat_of_simple h⟩

theorem arranged_flattenAll (items : List Ast) (h : ∀ item ∈ items, item.Arranged) :
    ∀ item ∈ flattenAll items, item.Arranged ∧ item.isBlock = false ∧ item.Flat := by
  cases items with
  | nil => nofun
  | cons first items =>
    obtain ⟨arranged, h⟩ := List.forall_mem_cons.mp h
    have later := arranged_flattenAll items h
    by_cases spliced : ∃ inner, first = .block (.list inner)
    · obtain ⟨inner, rfl⟩ := spliced
      cases arranged with
      | block h' =>
        rw [flattenAll]
        exact List.forall_mem_append.mpr ⟨arranged_flattenAll inner h', later⟩
      | simple h' => cases h'
    · rw [flattenAll_cons spliced]
      obtain ⟨arranged', flat⟩ := arranged_flatten first arranged
      refine List.forall_mem_cons.mpr ⟨⟨arranged', ?_, flat⟩, later⟩
      rw [isBlock_flatten, arranged.isBlock spliced]

end

end Ast

namespace Setup

open Machine

variable (setup : Setup) (budget : Budget)

theorem executeAll_append (items later : List Ast) (s : State) :
    setup.executeAll budget (items ++ later) s =
      setup.executeAll budget items s >>= setup.executeAll budget later := by
  induction items generalizing s with
  | nil => exact (pure_bind s _).symm
  | cons item items ih =>
    rw [List.cons_append, executeAll, executeAll, bind_assoc]
    exact congrArg _ (funext ih)

mutual

theorem execute_flatten (tree : Ast) :
    setup.execute budget tree.flatten = setup.execute budget tree := by
  funext s
  cases tree with
  | whileStatement test body => rw [Ast.flatten, execute, execute, execute_flatten body]
  | block statements => rw [Ast.flatten, execute, execute, executeParts_flattenParts statements]
  | _ => rfl

theorem executeParts_flattenParts (tree : Ast) :
    setup.executeParts budget tree.flattenParts = setup.executeParts budget tree := by
  funext s
  cases tree with
  | list items => rw [Ast.flattenParts, executeParts, executeParts, executeAll_flattenAll items]
  | _ => rfl

theorem executeAll_flattenAll (items : List Ast) :
    setup.executeAll budget (Ast.flattenAll items) = setup.executeAll budget items := by
  funext s
  cases items with
  | nil => rfl
  | cons item items =>
    have rest := executeAll_flattenAll items
    by_cases spliced : ∃ inner, item = .block (.list inner)
    · -- The block does what its statements do, which now stand before the others.
      obtain ⟨inner, rfl⟩ := spliced
      rw [Ast.flattenAll, executeAll_append, executeAll_flattenAll inner, rest, executeAll, execute,
        executeParts]
    · rw [Ast.flattenAll_cons spliced, executeAll, executeAll, execute_flatten item, rest]

end

theorem runProgram_flatten (tree : Ast) :
    setup.runProgram budget tree.flatten = setup.runProgram budget tree := by
  cases tree with
  | program body | whileStatement _ body =>
    rw [Ast.flatten, runProgram, runProgram, Ast.block?, Ast.block?, lift_ok_bind, lift_ok_bind,
      execute_flatten]
  | _ => rfl

/-- A flattened tree does what the tree does, in every state and at every level of the trace, with the
same output, bindings, environment and trace, or the same failure with the same changes before it, and
it runs as a program as the tree does. If the lists of statements of the tree are lists, no block is
left in those of the flattened tree. -/
theorem execute_flatten_eq (tree : Ast) :
    (∀ s w, (setup.execute budget tree.flatten s).run w = (setup.execute budget tree s).run w) ∧
    setup.run budget tree.flatten = setup.run budget tree ∧
    (tree.Arranged → tree.flatten.Arranged ∧ tree.flatten.Flat) := by
  refine ⟨fun s w => ?_, ?_, tree.arranged_flatten⟩
  · rw [execute_flatten]
  · rw [run, run, runProgram_flatten]

def nested : Ast :=
  let x := Ast.identifier (.scalar (.string "x"))
  .program (.block (.list [
    .block (.list [.block (.list []), .variableDeclaration x (.booleanLiteral true)]),
    .whileStatement x (.block (.list [
      .block (.list [.printStatement x, .block (.list [.assignment x (.booleanLiteral false)])])])),
    .printStatement x]))

theorem arranged_nested : nested.Arranged := by
  have empty : (Ast.block (.list [])).Arranged := .block nofun
  refine .program (.block_cons ?declared (.block_cons (.whileStatement ?loop)
    (.block_cons (.simple rfl) empty)))
  case declared => exact .block_cons empty (.block_cons (.simple rfl) empty)
  case loop =>
    exact .block_cons (.block_cons (.simple rfl) (.block_cons (.block_cons (.simple rfl) empty) empty))
      empty

theorem run_flatten_nested :
    let x := Ast.identifier (.scalar (.string "x"))
    nested.flatten = .program (.block (.list [
      .variableDeclaration x (.booleanLiteral true),
      .whileStatement x (.block (.list [.printStatement x, .assignment x (.booleanLiteral false)])),
      .printStatement x])) ∧
    nested.flatten.Flat ∧
    (Setup.run ⟨0, []⟩ ⟨0, 2⟩ nested.flatten).result = .ok [.boolean true, .boolean false] := by
  obtain ⟨-, same, flat⟩ := execute_flatten_eq ⟨0, []⟩ ⟨0, 2⟩ nested
  refine ⟨rfl, (flat arranged_nested).2, ?_⟩
  rw [same]
  rfl

end Setup

end DynamicScope
