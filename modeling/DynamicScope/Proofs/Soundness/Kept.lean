import DynamicScope.Proofs.Soundness.Value

/-! Well-formed programs keep their values sound.
Without native functions and without a trace, every step of a well-formed program leaves sound values
and fails, if it does, with a permitted failure. -/

namespace DynamicScope

open Ast

/-- No native functions and no trace. -/
def Setup.bare : Setup := ⟨0, []⟩

theorem Setup.recorded_bare {level : Nat} (h : 0 < level)
    (event : Unit → Except Failure Event) : Machine.recorded bare level event = .ok none :=
  if_neg (Nat.not_le_of_lt h)

def soundness (Stage : Type) : Invariant Stage where
  failure := Failure.Permitted
  operator o := ∃ t : Text, o = .scalar (.string t)
  name n := ∃ t : Text, n = .scalar (.string t)
  tree := IsExpression
  value _ v := v.Sound
  next _ _ := True

namespace Soundness

variable {Stage : Type}

theorem name_same (t : Text) :
    (soundness Stage).likeness.name (.scalar (.string t)) (.scalar (.string t)) := ⟨rfl, t, rfl⟩

theorem named_same (t : Text) : Alike (soundness Stage).likeness.name
    (soundness Stage).likeness.failure (named t).name? (named t).name? := .ok (name_same t)

theorem parts_expressions {items : List Ast} (h : ∀ item ∈ items, IsExpression item) :
    (soundness Stage).likeness.Parts (soundness Stage).likeness.tree .notAnExpression (.list items)
      (.list items) := .list (forall₂_same.mpr ⟨rfl, h⟩)

theorem expression_same {tree : Ast} (h : IsExpression tree) :
    (soundness Stage).likeness.Expression tree tree := by
  cases h with
  | @numeral n x fits =>
    refine .numeral fun κ => ?_
    rw [Json.numeralValue, fits]
    exact .ok ⟨rfl, trivial⟩
  | booleanLiteral b => exact .booleanLiteral b
  | identifier name => exact .identifier (name_same name)
  | unary operator part => exact .unary ⟨rfl, operator, rfl⟩ ⟨rfl, part⟩
  | binary operator first second => exact .binary ⟨rfl, operator, rfl⟩ ⟨rfl, first⟩ ⟨rfl, second⟩
  | conditional chosen first second => exact .conditional ⟨rfl, chosen⟩ ⟨rfl, first⟩ ⟨rfl, second⟩
  | arrayLiteral items => exact .arrayLiteral (parts_expressions items)
  | subscript first second => exact .subscript ⟨rfl, first⟩ ⟨rfl, second⟩
  | call callee args => exact .call (named_same callee) (parts_expressions args)

theorem parameterNames_named (names : List Text) :
    (Ast.list (names.map named)).parameterNames = .ok (names.map fun t => .scalar (.string t)) := by
  change (names.map named).mapM Ast.name? = _
  induction names with
  | nil => rfl
  | cons t names ih =>
    rw [List.map_cons, List.mapM_cons, ih]
    rfl

theorem called_same (κ : Stage) {v : Value} (h : v.Sound) :
    (soundness Stage).likeness.Called κ v v := by
  cases v with
  | builtin i f => exact .builtin i i f f
  | function i parameters body =>
    obtain ⟨⟨names, rfl⟩, well⟩ := h
    refine .function (.ok rfl) ?_ ⟨rfl, well⟩
    rw [parameterNames_named]
    refine .ok (forall₂_same.mpr ⟨rfl, fun name listed => ?_⟩)
    obtain ⟨t, -, rfl⟩ := List.mem_map.mp listed
    exact ⟨t, rfl⟩
  | _ =>
    refine .other nofun nofun fun name _ same => ?_
    obtain ⟨rfl, t, rfl⟩ := same
    exact ⟨rfl, .fault _⟩

theorem answer_soundly {i n : Nat} {f : Builtin} {vs : List Value} (h : (Value.builtin i f).Sound)
    (given : ∀ v ∈ vs, v.Sound) :
    Yields (fun a => a.1.Sound) Failure.IsFault (Setup.bare.answer f n vs) := by
  cases f with
  | math f => exact (f.apply_soundly given).bind fun v sound => .ok sound
  | native name arity index => exact h.elim

theorem kept [Preorder Stage] : (soundness Stage).Kept Setup.bare where
  value_mono _ h := h
  expression := expression_same
  key := by
    rintro name ⟨t, rfl⟩
    exact .ok trivial
  undeclared := by
    rintro name ⟨t, rfl⟩
    exact .fault _
  arity := by
    rintro name expected given ⟨t, rfl⟩
    exact .fault _
  exhausted := .exhausted
  boolean _ _ := trivial
  isTrue h := (Value.isTrue_soundly h).fails fun _ => Failure.IsFault.permitted
  unary := by
    rintro κ operator v ⟨t, rfl⟩ h
    exact (Value.unary_soundly t h).fails fun _ => Failure.IsFault.permitted
  binary := by
    rintro κ operator a b ⟨t, rfl⟩ left right
    exact (Value.binary_soundly t left right).fails fun _ => Failure.OfOperator.permitted
  subscript left _ := (Value.subscript_soundly left).fails fun _ => Failure.IsFault.permitted
  array := by
    intro κ n vs _ h
    exact ⟨κ, le_refl κ, trivial, Value.soundAll_iff.mpr h⟩
  called := called_same _
  answer := by
    intro κ i n f vs h _ given
    have answered := (answer_soundly (n := n) h given).fails fun _ => Failure.IsFault.permitted
    exact answered.imp fun a sound => ⟨κ, le_refl κ, trivial, sound⟩
  recorded h := by
    rw [Setup.recorded_bare (Nat.lt_of_lt_of_le (by decide) h.two_le)]
    exact .ok trivial

theorem statements_parts {statements : List Ast} (h : ∀ s ∈ statements, IsStatement s) :
    (soundness Stage).likeness.Parts (fun t t' => t = t' ∧ IsStatement t) .notAStatement
      (.list statements) (.list statements) := .list (forall₂_same.mpr ⟨rfl, h⟩)

theorem statement_same [Preorder Stage] {tree : Ast} (h : IsStatement tree) :
    ((soundness Stage).conduct IsStatement).Statement tree tree := by
  cases h with
  | variableDeclaration name part => exact .variableDeclaration (named_same name) ⟨rfl, part⟩
  | functionDeclaration name parameters body =>
    refine .functionDeclaration (named_same name) fun κ n n' next => ?_
    obtain ⟨rfl, -⟩ := next
    exact ⟨κ, le_refl κ, ⟨rfl, trivial⟩, rfl, ⟨parameters, rfl⟩, body⟩
  | assignment name part => exact .assignment (named_same name) ⟨rfl, part⟩
  | printStatement part => exact .printStatement ⟨rfl, part⟩
  | whileStatement checked statements =>
    exact .whileStatement ⟨rfl, checked⟩ ⟨rfl, .block statements⟩
  | block statements => exact .block (statements_parts statements)

theorem keptThroughout [Preorder Stage] :
    (soundness Stage).KeptThroughout IsStatement Setup.bare where
  toKept := kept
  statement := statement_same
  unassigned := by
    rintro name ⟨t, rfl⟩
    exact .fault _
  items h := Value.soundAll_iff.mp h

end Soundness

end DynamicScope
