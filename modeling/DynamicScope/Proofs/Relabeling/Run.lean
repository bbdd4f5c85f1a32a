import Mathlib.Logic.Equiv.Basic
import DynamicScope.Proofs.Relabeling.Basic
import DynamicScope.Proofs.Simulation.Run
import DynamicScope.Proofs.Tracing.Level

/-! Names have no meaning of their own.
A program whose identifiers all have other names, and different names different ones, runs as it did:
it prints the same values, but for the names in the code of functions, or it fails alike, or neither
run ends. Only the names of the library have to stay what they are. -/

namespace DynamicScope

/-- Whether failures are of one kind: faults of the same kind, or the same failure otherwise. -/
def Failure.SameKind : Failure → Failure → Prop
  | .fault f, .fault f' => f.kind = f'.kind
  | e, e' => e = e'

theorem Failure.SameKind.refl (e : Failure) : e.SameKind e := by
  cases e <;> rfl

namespace Relabeling

open Machine Likeness

variable (r : Text → Text)

def bindings (b : Bindings) : Bindings :=
  b.map fun entry => (entry.1.relabel r, entry.2.relabel r)

def likeness : Likeness Unit where
  failure := Failure.SameKind
  operator := Eq
  name n n' := n.relabel r = n'
  key k k' := k.relabel r = k'
  tree t t' := t.relabel r = t'
  value _ v v' := v.relabel r = v'
  bindings _ b b' := bindings r b = b'
  stores _ s s' := s.environments.size = s'.environments.size ∧
    ∀ env < s.environments.size, bindings r (s.bindings env) = s'.bindings env
  next _ := Eq
  trace _ _ := True

def conduct : Conduct Unit where
  toLikeness := likeness r
  statement t t' := t.relabel r = t'
  target n n' := n.relabel r = n'
  output _ o o' := o.identity = o'.identity ∧ o.values.map (Value.relabel r) = o'.values

variable {r}

theorem raised_relabel {f f' : Fault} {name : Json} (same : f.kind = f'.kind)
    (quotes : f.quoted? = some name) (quotes' : f'.quoted? = some (name.relabel r)) :
    f.raised.SameKind f'.raised := by
  have short : (name.relabel r).isShort = name.isShort := Json.isShort_relabel r name
  by_cases h : name.isShort
  · rw [Fault.raised_of_short quotes h, Fault.raised_of_short quotes' (short.trans h)]
    exact same
  · rw [Fault.raised_of_not_short quotes h,
      Fault.raised_of_not_short quotes' (short ▸ h)]
    exact Failure.SameKind.refl _

theorem alike_of_isPlain {x : Except Failure Value} (plain : ∀ v, x = .ok v → v.isPlain = true) :
    Alike (fun v v' => v.relabel r = v') Failure.SameKind x x :=
  .same (fun v ran => Value.relabel_of_isPlain r (plain v ran)) .refl

theorem alike_name? (id : Ast) :
    Alike (fun n n' => n.relabel r = n') Failure.SameKind id.name? (id.relabel r).name? := by
  rw [Ast.name?_relabel]
  exact .map (fun _ _ => rfl) .refl

theorem parts_relabel {related : Ast → Ast → Prop} (each : ∀ t, related t (t.relabel r))
    (unexpected : String → Failure) (tree : Ast) :
    (likeness r).Parts related unexpected tree (tree.relabel r) := by
  by_cases listed : ∃ items, tree = .list items
  · obtain ⟨items, rfl⟩ := listed
    rw [Ast.relabel_list]
    exact .list (List.forall₂_map_right_iff.mpr (List.forall₂_same.mpr fun t _ => each t))
  · have other : ∀ items, tree ≠ .list items := fun items same => listed ⟨items, same⟩
    refine .other other (Ast.relabel_ne_list r other) ?_
    rw [Ast.noParts_relabel]
    exact .refl (fun _ => trivial) Failure.SameKind.refl _

theorem expression_relabel (tree : Ast) : (likeness r).Expression tree (tree.relabel r) := by
  cases tree with
  | numeral value =>
    have same (x : Double) : (Value.double x).relabel r = .double x := rfl
    exact .numeral fun _ => .refl same Failure.SameKind.refl _
  | booleanLiteral b => exact .booleanLiteral b
  | identifier name => exact .identifier rfl
  | unary operator part => exact .unary rfl rfl
  | binary operator left right => exact .binary rfl rfl rfl
  | conditional test first second => exact .conditional rfl rfl rfl
  | arrayLiteral elements => exact .arrayLiteral (parts_relabel (fun _ => rfl) _ elements)
  | subscript array index => exact .subscript rfl rfl
  | call callee args => exact .call (alike_name? callee) (parts_relabel (fun _ => rfl) _ args)
  | _ =>
    exact .other rfl ((Ast.isExpression_relabel r _).trans rfl)
      (congrArg Failure.notAnExpression (Ast.qualifiedClass_relabel r _).symm)

theorem called_relabel (v : Value) : (likeness r).Called () v (v.relabel r) := by
  cases v with
  | builtin i f => exact .builtin i i f f
  | function i parameters body =>
    refine .function ?_ ?_ rfl
    · rw [Ast.count?_relabel]
      exact .refl (fun _ => rfl) Failure.SameKind.refl _
    · rw [Ast.parameterNames_relabel]
      exact .map (fun names _ => forall₂_graph_iff.mpr rfl) .refl
  | _ => exact .other nofun nofun fun _ _ => by rintro rfl; exact raised_relabel rfl rfl rfl

theorem statement_relabel (tree : Ast) : (conduct r).Statement tree (tree.relabel r) := by
  cases tree with
  | variableDeclaration id part => exact .variableDeclaration (alike_name? id) rfl
  | functionDeclaration id parameters body =>
    refine .functionDeclaration (alike_name? id) ?_
    rintro _ n _ rfl
    exact ⟨(), le_refl (), rfl, rfl⟩
  | assignment id part => exact .assignment (alike_name? id) rfl
  | printStatement part => exact .printStatement rfl
  | whileStatement test body => exact .whileStatement rfl rfl
  | block statements => exact .block (parts_relabel (fun _ => rfl) _ statements)
  | _ =>
    exact .other rfl ((Ast.isStatement_relabel r _).trans rfl)
      (congrArg Failure.notAStatement (Ast.qualifiedClass_relabel r _).symm)

theorem stores_iff {s s' : Store} :
    (likeness r).stores () s s' ↔ (likeness r).Lockstep () s s' :=
  ⟨fun h => ⟨h.1, h.2⟩, fun h => ⟨h.size, h.bindings⟩⟩

section Injective

variable (inj : Function.Injective r)

include inj

theorem simulates {level : Nat} (silent : level < 2) :
    (likeness r).Simulates ⟨level, []⟩ ⟨level, []⟩ where
  value_mono _ h := h
  bindings_mono _ h := h
  stores_mono _ h := h
  stores_new h same := stores_iff.mpr ((stores_iff.mp h).new same)
  expression := by
    rintro tree _ rfl
    exact expression_relabel tree
  key := by
    rintro name _ rfl
    rw [Name.ofJson?_relabel]
    exact .map (fun _ _ => rfl) .refl
  present := by
    rintro _ b _ key _ rfl rfl
    have found := Bindings.value?_map (g := Value.relabel r) (Scalar.key_relabel_iff inj) b key
    rw [Bindings.present?, Bindings.present?, bindings, found]
    exact Value.present_related (fun h => ((Value.resembles_relabel r).form h).isPresent_eq)
      (Value.map_related fun _ _ => rfl)
  overlay := by
    rintro _ b _ keys _ vs _ rfl same given
    obtain rfl := forall₂_graph_iff.mp same
    obtain rfl := forall₂_graph_iff.mp given
    rw [List.zip_map]
    exact (Bindings.insertAll_map (Scalar.key_relabel_iff inj) b (keys.zip vs)).symm
  undeclared := by rintro name _ rfl; exact raised_relabel rfl rfl rfl
  arity := by rintro _ _ name _ rfl; exact raised_relabel rfl rfl rfl
  exhausted := rfl
  boolean _ _ := rfl
  isTrue h := by
    rw [((Value.resembles_relabel r).form h).isTrue_eq]
    exact .refl (fun _ => rfl) Failure.SameKind.refl _
  unary := by
    rintro _ operator _ v v' rfl h
    rw [← ((Value.resembles_relabel r).form h).unary_eq]
    exact alike_of_isPlain fun _ => Value.unary_isPlain
  binary := by
    rintro _ operator _ a a' b b' rfl left right
    rw [← (Value.resembles_relabel r).binary_eq left right]
    exact alike_of_isPlain fun _ => Value.binary_isPlain
  subscript := (Value.resembles_relabel r).subscript_alike Failure.SameKind.refl rfl
  array := by
    rintro _ n _ vs vs' rfl given
    obtain rfl := forall₂_graph_iff.mp given
    exact ⟨(), le_refl (), rfl, Value.relabel_array r n vs⟩
  called := by
    rintro _ v _ rfl
    exact called_relabel v
  answer := by
    rintro _ i i' n _ f f' vs vs' same rfl given
    injection same with _ same
    subst same
    cases f with
    | math f =>
      rw [Setup.answer, Setup.answer, ← (Value.resembles_relabel r).apply_eq f given]
      refine (alike_of_isPlain (r := r) fun _ => MathFunction.apply_isPlain).bind fun v v' same => ?_
      exact .ok ⟨(), le_refl (), rfl, same⟩
    | native name arity index => exact .ok ⟨(), le_refl (), rfl, rfl⟩
  recorded h := by
    have hidden : ¬ _ ≤ level := Nat.not_le.mpr (Nat.lt_of_lt_of_le silent h.two_le)
    rw [recorded, recorded, if_neg hidden, if_neg hidden]
    exact .ok fun _ _ _ => trivial

theorem binds_bindings {b : Bindings} {name : Json} {key key' : Name}
    (read : Name.ofJson? name = .ok key) (read' : Name.ofJson? (name.relabel r) = .ok key') :
    b.binds key = (bindings r b).binds key' := by
  rw [Name.ofJson?_relabel, read] at read'
  cases read'
  rw [Bindings.binds, Bindings.binds, bindings, Bindings.value?_map (Scalar.key_relabel_iff inj),
    Option.isSome_map]

theorem executes {level : Nat} (silent : level < 2) :
    (conduct r).Executes ⟨level, []⟩ ⟨level, []⟩ where
  toSimulates := simulates inj silent
  stores := stores_iff
  statement := by
    rintro tree _ rfl
    exact statement_relabel tree
  named h := h
  binds := by
    rintro _ b _ name _ key key' rfl rfl read read'
    exact binds_bindings inj read read'
  unassigned := by rintro name _ rfl; exact raised_relabel rfl rfl rfl
  output_mono _ h := h
  printed := by
    rintro _ n _ o o' v _ rfl ⟨_, same⟩ rfl
    exact ⟨(), le_refl (), rfl, rfl, by rw [← same, List.map_append, List.map_singleton]⟩

end Injective

theorem bindings_first (fixed : ∀ name ∈ ["pi", "sqrt", "sin", "cos", "ln", "exp", "hypot"],
    r (.proper name) = .proper name) (level : Nat) :
    bindings r (Setup.firstBindings ⟨level, []⟩) = Setup.firstBindings ⟨level, []⟩ := by
  have named (name : String)
      (listed : name ∈ ["pi", "sqrt", "sin", "cos", "ln", "exp", "hypot"]) :
      (Name.ofString name).relabel r = Name.ofString name :=
    congrArg Scalar.string (fixed name listed)
  have function (f : MathFunction) : (Name.ofString f.name).relabel r = Name.ofString f.name :=
    named f.name (by cases f <;> decide)
  change (_, _) :: (MathFunction.all.zipIdx.map _).map _ = (_, _) :: MathFunction.all.zipIdx.map _
  rw [named "pi" (.head _), List.map_map]
  refine congrArg _ (List.map_congr_left fun entry _ => ?_)
  exact congrArg (·, _) (function entry.1)

theorem entered (fixed : ∀ name ∈ ["pi", "sqrt", "sin", "cos", "ln", "exp", "hypot"],
    r (.proper name) = .proper name) (level : Nat) :
    (conduct r).Entered () ⟨level, []⟩ ⟨level, []⟩ (Setup.startWorld ⟨level, []⟩)
      (Setup.startWorld ⟨level, []⟩) :=
  ⟨bindings_first fixed level, rfl, trivial, rfl, rfl⟩

theorem isWritable_relabel {name : Json} (h : name.IsWritable)
    (proper : ∀ t : Text, t.IsProper → (r t).IsProper) : (name.relabel r).IsWritable := by
  cases name with
  | scalar s =>
    cases s with
    | string t =>
      obtain ⟨_, same, written⟩ := h
      cases same
      exact ⟨r t, rfl, proper t written⟩
    | _ => exact h
  | _ => exact h

theorem writable_relabel {tree : Ast} (h : writable.Tree tree)
    (proper : ∀ t : Text, t.IsProper → (r t).IsProper) : writable.Tree (tree.relabel r) := by
  intro part inside
  obtain ⟨original, there, rfl⟩ := Ast.contains_relabel r inside
  have held := h original there
  cases original with
  | identifier name => exact isWritable_relabel held proper
  | functionDeclaration id parameters body =>
    obtain ⟨names, rfl⟩ : ∃ names : List Text, parameters = .list (names.map Ast.named) := held
    have renamed : (Ast.list (names.map Ast.named)).relabel r =
        .list ((names.map r).map Ast.named) := by
      rw [Ast.relabel_list, List.map_map, List.map_map]
      rfl
    exact ⟨names.map r, renamed⟩
  | _ => exact held

theorem alike_run (inj : Function.Injective r)
    (fixed : ∀ name ∈ ["pi", "sqrt", "sin", "cos", "ln", "exp", "hypot"],
      r (.proper name) = .proper name) {level : Nat} (silent : level < 2) (budget : Budget)
    (program : Ast) :
    Alike (fun vs vs' => vs.map (Value.relabel r) = vs') Failure.SameKind
      (Setup.run ⟨level, []⟩ budget program).result
      (Setup.run ⟨level, []⟩ budget (program.relabel r)).result := by
  have blocks : Alike (conduct r).statement (conduct r).failure program.block?
      (program.relabel r).block? := by
    rw [Ast.block?_relabel]
    exact .map (fun _ _ => rfl) .refl
  have outcomes := Conduct.run_outcomes (executes inj silent) budget (entered fixed level)
    blocks fun _ _ _ _ _ _ _ => trivial
  exact outcomes.result.imp fun vs vs' ⟨_, _, _, _, same⟩ => same

end Relabeling

/-- A program whose identifiers have other names, different ones for different names and the same
ones for those of the library, prints the same values with the other names in them, or fails in the
same way, whatever the budget; so it ends if the program does. Where the trace shows names, the old
and the new ones have to be names that can be written. -/
theorem Setup.run_relabel {r : Text → Text} (inj : Function.Injective r)
    (fixed : ∀ name ∈ ["pi", "sqrt", "sin", "cos", "ln", "exp", "hypot"],
      r (.proper name) = .proper name) (level : Nat) (budget : Budget) (program : Ast)
    (written : level < 2 ∨ writable.Tree program ∧ ∀ t : Text, t.IsProper → (r t).IsProper) :
    Alike (fun vs vs' => vs.map (Value.relabel r) = vs') Failure.SameKind
      (run ⟨level, []⟩ budget program).result
      (run ⟨level, []⟩ budget (program.relabel r)).result := by
  rcases written with silent | ⟨shown, proper⟩
  · exact Relabeling.alike_run inj fixed silent budget program
  · have shown' := Relabeling.writable_relabel shown proper
    rw [Writable.result_eq level 0 budget shown, Writable.result_eq level 0 budget shown']
    exact Relabeling.alike_run inj fixed Nat.zero_lt_two budget program

/-- Declares a function of `x` that gives `y`, then `y`, and prints the function at a value and the
function itself. -/
def Ast.capturing : Ast :=
  .program (.block (.list [.functionDeclaration (named "f") (.list [named "x"]) (named "y"),
    .variableDeclaration (named "y") (.booleanLiteral true),
    .printStatement (.call (named "f") (.list [.booleanLiteral false])),
    .printStatement (named "f")]))

theorem Setup.run_relabel_capturing :
    (∀ name ∈ ["pi", "sqrt", "sin", "cos", "ln", "exp", "hypot"],
      Equiv.swap (Text.proper "x") (.proper "y") (.proper name) = .proper name) ∧
    (run ⟨0, []⟩ ⟨1, 0⟩ (Ast.capturing.relabel (Equiv.swap (.proper "x") (.proper "y")))).result =
      .ok [.boolean true, .function 7 (.list [.named "y"]) (.named "x")] := by
  have fixed : ∀ name ∈ ["pi", "sqrt", "sin", "cos", "ln", "exp", "hypot"],
      Equiv.swap (Text.proper "x") (.proper "y") (.proper name) = .proper name := by
    decide
  have alike := run_relabel (Equiv.swap (Text.proper "x") (.proper "y")).injective fixed 0 ⟨1, 0⟩
    Ast.capturing (.inl Nat.zero_lt_two)
  have ran : (run ⟨0, []⟩ ⟨1, 0⟩ Ast.capturing).result =
      .ok [.boolean true, .function 7 (.list [.named "x"]) (.named "y")] := rfl
  refine ⟨fixed, ?_⟩
  rw [ran] at alike
  generalize (run ⟨0, []⟩ ⟨1, 0⟩ (Ast.capturing.relabel _)).result = x at alike ⊢
  cases alike with
  | ok same => rw [← same]; rfl

end DynamicScope
