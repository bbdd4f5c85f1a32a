import DynamicScope.Proofs.Simulation.Run
import DynamicScope.Proofs.Soundness.WellFormed
import DynamicScope.Proofs.Spelling.Basic

/-! Equal programs run alike.
Equality of trees does not tell spellings of a number apart, and neither does a run: it comes to the
same values, with the same texts, or to the same failure, and has the same trace, or neither run ends.
The functions among the values have equal code. -/

namespace DynamicScope

namespace Spelling

open Machine Likeness

def Bound : Bindings → Bindings → Prop :=
  List.Forall₂ fun entry entry' => entry.1 = entry'.1 ∧ entry.2.Respelled entry'.2

def likeness : Likeness Unit where
  failure := Eq
  operator := Eq
  name := Eq
  key := Eq
  tree := Ast.Respelled
  value _ := Value.Respelled
  bindings _ := Bound
  stores _ s s' := s.environments.size = s'.environments.size ∧
    ∀ env < s.environments.size, Bound (s.bindings env) (s'.bindings env)
  next _ := Eq
  trace := Eq

def conduct : Conduct Unit where
  toLikeness := likeness
  statement := Ast.Respelled
  target := Eq
  output _ o o' := o.identity = o'.identity ∧ List.Forall₂ Value.Respelled o.values o'.values

theorem alike_of_isPlain {x : Except Failure Value} (plain : ∀ v, x = .ok v → v.isPlain = true) :
    Alike Value.Respelled Eq x x :=
  .same (fun v ran => Value.respelled_of_isPlain (plain v ran)) fun _ => rfl

theorem alike_eq {α : Type} {x y : Except Failure α} (same : x = y) : Alike Eq Eq x y := by
  subst same
  exact .refl (fun _ => rfl) (fun _ => rfl) x

theorem parts_respelled {unexpected : String → Failure} {tree tree' : Ast}
    (h : tree.Respelled tree') : likeness.Parts Ast.Respelled unexpected tree tree' := by
  cases h.likewise with
  | list same => exact .list same
  | _ => exact .other nofun nofun (.error rfl)

theorem expression_respelled {tree tree' : Ast} (h : tree.Respelled tree') :
    likeness.Expression tree tree' := by
  have classes := h.likewise.qualifiedClass_eq
  cases h.likewise with
  | numeral same =>
    refine .numeral fun _ => ?_
    rw [same]
    exact .refl (fun x => .number (.double x)) (fun _ => rfl) _
  | booleanLiteral b => exact .booleanLiteral b
  | identifier name => exact .identifier rfl
  | unary operator same => exact .unary rfl same
  | binary operator first second => exact .binary rfl first second
  | conditional chosen first second => exact .conditional chosen first second
  | arrayLiteral same => exact .arrayLiteral (parts_respelled same)
  | subscript first second => exact .subscript first second
  | call called same => exact .call (alike_eq called.likewise.name?_eq) (parts_respelled same)
  | _ => exact .other rfl rfl (congrArg _ classes)

theorem statement_respelled {tree tree' : Ast} (h : tree.Respelled tree') :
    conduct.Statement tree tree' := by
  have classes := h.likewise.qualifiedClass_eq
  cases h.likewise with
  | variableDeclaration named same => exact .variableDeclaration (alike_eq named.likewise.name?_eq) same
  | functionDeclaration named taking same =>
    refine .functionDeclaration (alike_eq named.likewise.name?_eq) ?_
    rintro _ n _ rfl
    exact ⟨(), le_refl (), rfl, .function n taking same⟩
  | assignment named same => exact .assignment (alike_eq named.likewise.name?_eq) same
  | printStatement same => exact .printStatement same
  | whileStatement checked same => exact .whileStatement checked same
  | block same => exact .block (parts_respelled same)
  | _ => exact .other rfl rfl (congrArg _ classes)

theorem called_respelled {v v' : Value} (h : v.Respelled v') : likeness.Called () v v' := by
  cases h with
  | builtin i f => exact .builtin i i f f
  | function i taking same =>
    refine .function (alike_eq taking.likewise.count?_eq) ?_ same
    rw [taking.parameterNames_eq]
    exact .refl (fun names => List.forall₂_same.mpr fun _ _ => rfl) (fun _ => rfl) _
  | _ => exact .other nofun nofun fun _ _ same => same ▸ rfl

namespace Bound

variable {b b' : Bindings}

theorem value? (h : Bound b b') (name : Name) :
    Option.Rel Value.Respelled (b.value? name) (b'.value? name) := by
  induction h with
  | nil => exact .none
  | @cons entry entry' _ _ head _ ih =>
    obtain ⟨n, v⟩ := entry
    obtain ⟨n', v'⟩ := entry'
    obtain ⟨rfl, same⟩ := head
    rw [Bindings.value?_cons, Bindings.value?_cons]
    split
    · exact .some same
    · exact ih

theorem insert (h : Bound b b') (name : Name) {v v' : Value} (same : v.Respelled v') :
    Bound (b.insert name v) (b'.insert name v') := by
  induction h with
  | nil => exact .cons ⟨rfl, same⟩ .nil
  | @cons entry entry' _ _ head tail ih =>
    obtain ⟨n, u⟩ := entry
    obtain ⟨n', u'⟩ := entry'
    obtain ⟨rfl, held⟩ := head
    rw [Bindings.insert, Bindings.insert]
    split
    · exact .cons ⟨rfl, same⟩ tail
    · exact .cons ⟨rfl, held⟩ ih

theorem insertAll (h : Bound b b') (keys : List Name) {vs vs' : List Value}
    (given : List.Forall₂ Value.Respelled vs vs') :
    Bound (b.insertAll (keys.zip vs)) (b'.insertAll (keys.zip vs')) := by
  induction given generalizing b b' keys with
  | nil => simpa [Bindings.insertAll] using h
  | cons same _ ih =>
    cases keys with
    | nil => exact h
    | cons key keys => exact ih (h.insert key same) keys

end Bound

theorem stores_iff {s s' : Store} : likeness.stores () s s' ↔ likeness.Lockstep () s s' :=
  ⟨fun h => ⟨h.1, h.2⟩, fun h => ⟨h.size, h.bindings⟩⟩

theorem simulates (level : Nat) : likeness.Simulates ⟨level, []⟩ ⟨level, []⟩ where
  value_mono _ h := h
  bindings_mono _ h := h
  stores_mono _ h := h
  stores_new h same := stores_iff.mpr ((stores_iff.mp h).new same)
  expression := expression_respelled
  key := by
    rintro name _ rfl
    exact alike_eq rfl
  present := by
    rintro _ b b' key _ bound rfl
    exact Value.present_related (fun h => (Value.resembles_respelled.form h).isPresent_eq)
      (bound.value? key)
  overlay := by
    rintro _ b b' keys keys' vs vs' bound same given
    obtain rfl := List.forall₂_eq_eq_eq ▸ same
    exact bound.insertAll keys given
  undeclared same := same ▸ rfl
  arity _ _ same := same ▸ rfl
  exhausted := rfl
  boolean _ b := .boolean b
  isTrue h := alike_eq (Value.resembles_respelled.form h).isTrue_eq
  unary := by
    rintro _ operator _ v v' rfl h
    rw [← (Value.resembles_respelled.form h).unary_eq]
    exact alike_of_isPlain fun _ => Value.unary_isPlain
  binary := by
    rintro _ operator _ a a' b b' rfl left right
    rw [← Value.resembles_respelled.binary_eq left right]
    exact alike_of_isPlain fun _ => Value.binary_isPlain
  subscript := Value.resembles_respelled.subscript_alike (fun _ => rfl) .undefined
  array := by
    rintro _ n _ vs vs' rfl given
    exact ⟨(), le_refl (), rfl, .array n given⟩
  called := called_respelled
  answer := by
    rintro _ i i' n _ f f' vs vs' same rfl given
    cases same
    cases f with
    | math f =>
      rw [Setup.answer, Setup.answer, ← Value.resembles_respelled.apply_eq f given]
      refine (alike_of_isPlain fun _ => MathFunction.apply_isPlain).bind fun v v' same => ?_
      exact .ok ⟨(), le_refl (), rfl, same⟩
    | native name arity index => exact .ok ⟨(), le_refl (), rfl, .undefined⟩
  recorded h := by
    obtain rfl := h.same (fun _ _ same => same) (fun _ _ same => same)
      (fun _ _ => Value.toText_respelled) fun _ _ _ _ _ _ made => by
        cases made with
        | function _ taking _ => exact taking.functionText_eq
    exact .refl (.same fun _ _ => Iff.rfl) (fun _ => rfl) _

theorem executes (level : Nat) : conduct.Executes ⟨level, []⟩ ⟨level, []⟩ where
  toSimulates := simulates level
  stores := stores_iff
  statement := statement_respelled
  named same := same
  binds := by
    rintro _ b b' name _ key key' bound rfl read read'
    cases read.symm.trans read'
    have found := bound.value? key
    rw [Bindings.binds, Bindings.binds]
    generalize b.value? key = o at found ⊢
    generalize b'.value? key = o' at found ⊢
    cases found <;> rfl
  unassigned same := same ▸ rfl
  output_mono _ h := h
  printed := by
    rintro _ n _ o o' v v' rfl ⟨_, printed⟩ same
    exact ⟨(), le_refl (), rfl, rfl, List.rel_append printed (.cons same .nil)⟩

theorem block?_respelled {program program' : Ast} (h : program.Respelled program') :
    Alike Ast.Respelled Eq program.block? program'.block? := by
  cases h.likewise with
  | program same => exact .ok same
  | whileStatement _ same => exact .ok same
  | _ => exact .error rfl

theorem bound_library (next : Nat) : Bound (mathBindings next) (mathBindings next) := by
  refine .cons ⟨rfl, .number _⟩ (List.forall₂_same.mpr fun entry listed => ⟨rfl, ?_⟩)
  obtain ⟨⟨f, i⟩, -, rfl⟩ := List.mem_map.mp listed
  exact .builtin _ _

theorem entered (level : Nat) :
    conduct.Entered () ⟨level, []⟩ ⟨level, []⟩ (Setup.startWorld ⟨level, []⟩)
      (Setup.startWorld ⟨level, []⟩) :=
  ⟨bound_library 0, rfl, rfl, rfl, .nil⟩

end Spelling

/-- Equal programs, without NaN and negative zeros, come to the same values with the same texts or to
the same failure, whatever the budget, so that both runs end or neither does; the traces are the same
at every level. -/
theorem Setup.run_respelled {a b : Ast} (ha : a.Regular) (hb : b.Regular) (same : a.equal b = true)
    (level : Nat) (budget : Budget) :
    Alike (fun vs vs' => List.Forall₂ Value.Respelled vs vs' ∧
        vs.map Value.toText = vs'.map Value.toText) Eq
      (run ⟨level, []⟩ budget a).result (run ⟨level, []⟩ budget b).result ∧
    (run ⟨level, []⟩ budget a).trace = (run ⟨level, []⟩ budget b).trace := by
  have respelled : a.Respelled b := ⟨ha, hb, Ast.same_of_equal ha same⟩
  have outcomes := Conduct.run_outcomes (Spelling.executes level) budget (Spelling.entered level)
    (Spelling.block?_respelled respelled) fun _ o o' _ _ printed traced => by
      cases traced
      rw [printed.2.length_eq]
      rfl
  refine ⟨outcomes.result.imp fun vs vs' ⟨_, _, _, _, printed⟩ => ⟨printed, ?_⟩, ?_⟩
  · have texts := printed.imp fun _ _ => Value.toText_respelled
    rwa [← List.forall₂_eq_eq_eq, List.forall₂_map_left_iff, List.forall₂_map_right_iff]
  · exact List.toArray_inj outcomes.trace

/-- Declares a function that adds a numeral to its argument, and prints what it gives for another one
and the function itself. -/
def Ast.adding (added given : Json) : Ast :=
  .program (.block (.list [.functionDeclaration (named "f") (.list [named "x"])
      (.binary (.string "+") (named "x") (.numeral added)),
    .printStatement (.call (named "f") (.list [.numeral given])),
    .printStatement (named "f")]))

theorem Ast.regular_adding {added given : Json} (first : added.IsNumeral)
    (second : given.IsNumeral) : (adding added given).Regular := by
  have name (s : Text) : (named s).Regular := .of_children ⟨s, rfl⟩ trivial
  have sum : (binary (.string "+") (named "x") (.numeral added)).Regular :=
    .of_children ⟨_, rfl⟩ ⟨name "x", .of_children first trivial⟩
  have function : (functionDeclaration (named "f") (.list [named "x"])
      (.binary (.string "+") (named "x") (.numeral added))).Regular :=
    .of_children trivial ⟨name "f", .of_children trivial (name "x"), sum⟩
  have called : (printStatement (.call (named "f") (.list [.numeral given]))).Regular :=
    .of_children trivial (.of_children trivial
      ⟨name "f", .of_children trivial (.of_children second trivial)⟩)
  exact .of_children trivial (.of_children trivial (.of_children trivial
    ⟨function, called, .of_children trivial (name "f")⟩))

theorem Setup.run_respelled_adding :
    let integers := Ast.adding (.scalar (.number (.integer 1))) (.scalar (.number (.integer 1)))
    let others := Ast.adding (.scalar (.number (.double (.ofInt 1)))) (.bool true)
    integers.Regular ∧ others.Regular ∧ integers.equal others = true ∧
      ((run ⟨3, []⟩ ⟨1, 0⟩ others).result.toOption.map fun vs => vs.map fun v => v.toText.toOption) =
        some [some (.proper "2"), some (.proper "<function (x)>")] ∧
      ((run ⟨3, []⟩ ⟨1, 0⟩ others).trace.map fun e => e.text.toString) =
        ["run program", "define function f<function (x)>", "call f(1)", "binary 1 + 1", "print 2",
          "print <function (x)>", "finished with 2 printed value(s)"] := by
  intro integers others
  have left : integers.Regular := Ast.regular_adding (.number trivial) (.number trivial)
  have right : others.Regular :=
    Ast.regular_adding (.number ⟨by decide +kernel, by decide +kernel⟩) (.bool true)
  have same : integers.equal others = true := by decide +kernel
  obtain ⟨results, traces⟩ := run_respelled left right same 3 ⟨1, 0⟩
  have shown : ((run ⟨3, []⟩ ⟨1, 0⟩ integers).result.toOption.map
      fun vs => vs.map fun v => v.toText.toOption) =
        some [some (.proper "2"), some (.proper "<function (x)>")] := by
    decide +kernel
  refine ⟨left, right, same, ?_, ?_⟩
  · rw [← shown]
    generalize (run ⟨3, []⟩ ⟨1, 0⟩ integers).result = x at results ⊢
    generalize (run ⟨3, []⟩ ⟨1, 0⟩ others).result = y at results ⊢
    cases results with
    | error => rfl
    | ok related =>
      have texts := congrArg (List.map Except.toOption) related.2
      rw [List.map_map, List.map_map] at texts
      exact congrArg some texts.symm
  · rw [← traces]
    decide +kernel

end DynamicScope
