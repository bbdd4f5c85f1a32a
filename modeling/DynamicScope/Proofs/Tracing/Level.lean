import DynamicScope.Proofs.Ast.Subtrees
import DynamicScope.Proofs.CommandLine.Dump
import DynamicScope.Proofs.Genuine.Value
import DynamicScope.Proofs.Session.Trace
import DynamicScope.Proofs.Simulation.ContentKept
import DynamicScope.Proofs.Simulation.Run
import DynamicScope.Proofs.Soundness.Kept

/-! The trace does not change what a run comes to.
An event is formed in the middle of a step, and forming one can fail: a value may have no text, and a
line may not be writable. Neither happens where names and operators can be written and parameters are
identifiers, for then every value that such code makes has a text. So a run is the same, whatever its
trace shows and wherever it goes. -/

namespace DynamicScope

open Machine Ast

def Json.IsWritable (document : Json) : Prop := ∃ t, document.plainText = .ok t ∧ t.IsProper

/-- Code whose names and operators can be written and whose parameters are identifiers with strings as
names, and values of the language. -/
def writable : Content where
  name := Json.IsWritable
  operator := Json.IsWritable
  parameters t := ∃ names : List Text, t = .list (names.map named)
  value
    | .number (.integer _) | .text _ | .nothing => False
    | _ => True

namespace Writable

section Values

variable {c : Content} (values : c.value = writable.value)

include values

theorem genuine_of_value : (v : Value) → c.Value v → v.Genuine
  | .array _ items, h => by
    have elements := (Content.value_iff.mp h).2
    exact Value.genuineAll_iff.mpr fun v listed => genuine_of_value v (elements v listed)
  | .number (.double _), _ | .boolean _, _ | .undefined, _ | .builtin .., _ | .function .., _ =>
    trivial
  | .number (.integer _), h | .text _, h | .nothing, h => (congrFun values _).mp h.here
termination_by v => sizeOf v

theorem value_of_genuine {v : Value} (h : v.Genuine) : c.value v := by
  rw [values]
  cases v with
  | number n => cases n <;> exact h
  | text s => exact h
  | nothing => exact h
  | _ => trivial

theorem laws (level : Nat) : c.Laws ⟨level, []⟩ where
  double _ := value_of_genuine values trivial
  boolean _ := value_of_genuine values trivial
  undefined := value_of_genuine values trivial
  array _ _ := (congrFun values _).mpr trivial
  function _ _ _ := value_of_genuine values trivial
  unary h ran := value_of_genuine values (Value.unary_genuine (genuine_of_value values _ h) ran)
  binary left right ran := value_of_genuine values
    (Value.binary_genuine (genuine_of_value values _ left) (genuine_of_value values _ right) ran)
  library applied := value_of_genuine values (MathFunction.apply_genuine applied)
  native := by simp

omit values in
theorem toTextAll_proper {vs : List Value} (h : ∀ v ∈ vs, ∃ t, v.toText = .ok t ∧ t.IsProper) :
    ∃ texts, Value.toTextAll vs = .ok texts ∧ ∀ t ∈ texts, t.IsProper := by
  induction vs with
  | nil => exact ⟨[], rfl, nofun⟩
  | cons v vs ih =>
    obtain ⟨⟨t, shown, proper⟩, rest⟩ := List.forall_mem_cons.mp h
    obtain ⟨texts, shownRest, properRest⟩ := ih rest
    refine ⟨t :: texts, ?_, List.forall_mem_cons.mpr ⟨proper, properRest⟩⟩
    rw [Value.toTextAll, shown, shownRest]
    rfl

theorem toText_proper (functions : ∀ parameters, c.parameters parameters → c.Tree parameters →
    ∃ t, Value.functionText parameters = .ok t ∧ t.IsProper) :
    (v : Value) → c.Value v → ∃ t, v.toText = .ok t ∧ t.IsProper
  | .array _ items, h => by
    have elements : ∀ v ∈ items, c.Value v := (Content.value_iff.mp h).2
    have each : ∀ v ∈ items, ∃ t, v.toText = .ok t ∧ t.IsProper := fun v listed =>
      have : sizeOf v < sizeOf items := List.sizeOf_lt_of_mem listed
      toText_proper functions v (elements v listed)
    obtain ⟨texts, shown, proper⟩ := toTextAll_proper each
    refine ⟨_, by rw [Value.toText, shown]; rfl, Text.isProper_join ?_⟩
    simpa [Text.isProper] using Text.isProper_intercalate (Text.isProper ", ") proper
  | .function _ parameters _, h => by
    obtain ⟨listed, inParameters, -⟩ := (Content.value_iff.mp h).1.2
    exact functions parameters listed inParameters
  | .number (.double x), _ => ⟨_, rfl, Text.isProper _⟩
  | .boolean b, _ => ⟨_, rfl, Text.isProper _⟩
  | .builtin _ f, _ => ⟨_, rfl, Text.isProper _⟩
  | .undefined, _ => ⟨_, rfl, Text.isProper _⟩
  | .number (.integer _), h | .text _, h | .nothing, h => ((congrFun values _).mp h.here).elim
termination_by v => sizeOf v

theorem entered (level level' : Nat) :
    (c.invariant.conduct c.Tree).Entered () ⟨level, []⟩ ⟨level', []⟩ (Setup.startWorld ⟨level, []⟩)
      (Setup.startWorld ⟨level', []⟩) := by
  have bound : c.invariant.Bound () (Setup.firstBindings ⟨level, []⟩) :=
    Content.bound_first (laws values level) (fun _ _ => value_of_genuine values trivial) nofun
  have output : c.Value (Setup.firstState ⟨level, []⟩).output.array :=
    Value.forall_contains_of_elements rfl ⟨(congrFun values _).mpr trivial, trivial⟩
  exact ⟨⟨rfl, bound⟩, ⟨rfl, trivial⟩, trivial, rfl, output⟩

omit values in
theorem blocks_alike {program : Ast} (h : c.Tree program) :
    Alike (c.invariant.conduct c.Tree).statement (c.invariant.conduct c.Tree).failure
      program.block? program.block? := by
  cases block : program.block? with
  | ok body => exact .ok ⟨rfl, h.block block⟩
  | error e => exact .error ⟨rfl, trivial⟩

theorem value_of_run (level : Nat) (budget : Budget) {program : Ast} (h : c.Tree program)
    {vs : List Value} (returned : (Setup.run ⟨level, []⟩ budget program).result = .ok vs) :
    ∀ v ∈ vs, c.Value v := by
  have outcomes := Conduct.run_outcomes (Content.keptThroughout (laws values level)).executes budget
    (entered values level level) (blocks_alike h) fun _ _ _ _ _ _ _ => trivial
  have alike := outcomes.result
  rw [← Setup.run_eq_runIn, returned] at alike
  cases alike with
  | ok same =>
    obtain ⟨_, _, _, _, held⟩ := same
    exact (Content.value_iff.mp held).2

end Values

theorem nameTexts_named (position : Nat) (names : List Text) :
    Value.nameTexts position (names.map fun t => .scalar (.string t)) = .ok names := by
  induction names generalizing position with
  | nil => rfl
  | cons t names ih =>
    rw [List.map_cons, Value.nameTexts, ih]
    rfl

theorem functionText_proper {parameters : Ast} (listed : writable.parameters parameters)
    (h : writable.Tree parameters) :
    ∃ t, Value.functionText parameters = .ok t ∧ t.IsProper := by
  obtain ⟨names, rfl⟩ := listed
  have proper : ∀ t ∈ names, t.IsProper := fun t there => by
    obtain ⟨_, same, proper⟩ :=
      (Content.tree_iff.mp ((Content.tree_iff.mp h).2 _ (List.mem_map_of_mem there))).1
    cases same
    exact proper
  refine ⟨.join ["<function (", .intercalate ", " names, ")>"], ?_, ?_⟩
  · unfold Value.functionText
    rw [Soundness.parameterNames_named, ok_bind, nameTexts_named]
    rfl
  · have inner := Text.isProper_intercalate (Text.isProper ", ") proper
    exact Text.isProper_join (by simpa [Text.isProper] using inner)

theorem text_proper (v : Value) (h : writable.Value v) : ∃ t, v.toText = .ok t ∧ t.IsProper :=
  toText_proper rfl (fun _ => functionText_proper) v h

theorem event_proper {level : Nat} {event event' : Unit → Except Failure Event}
    (h : writable.invariant.likeness.Recorded () level event event') :
    event = event' ∧ ∃ e, event () = .ok e ∧ e.text.IsProper := by
  cases h with
  | @binary a a' b b' operator operator' left op right =>
    obtain ⟨⟨rfl, left⟩, ⟨rfl, op⟩, rfl, right⟩ := left, op, right
    obtain ⟨s, shown, first⟩ := text_proper a left
    obtain ⟨o, symbol, second⟩ := op
    obtain ⟨s', shown', third⟩ := text_proper b right
    refine ⟨rfl, .binary s o s', by simp only [shown, symbol, shown']; rfl, ?_⟩
    exact Text.isProper_join (by simpa [Text.isProper] using ⟨first, second, third⟩)
  | @call name name' arguments arguments' named given =>
    obtain ⟨rfl, named⟩ := named
    obtain ⟨rfl, held⟩ := forall₂_same.mp given
    obtain ⟨n, quoted, first⟩ := named
    obtain ⟨texts, shown, rest⟩ := toTextAll_proper fun v listed => text_proper v (held v listed)
    refine ⟨rfl, .call n texts, by simp only [quoted, shown]; rfl, ?_⟩
    have inner := Text.isProper_intercalate (Text.isProper ", ") rest
    exact Text.isProper_join (by simpa [Text.isProper] using ⟨first, inner⟩)
  | @declaration name name' v v' named h =>
    obtain ⟨⟨rfl, named⟩, rfl, h⟩ := named, h
    obtain ⟨n, quoted, first⟩ := named
    obtain ⟨s, shown, second⟩ := text_proper v h
    refine ⟨rfl, .declaration n s, by simp only [quoted, shown]; rfl, ?_⟩
    exact Text.isProper_join (by simpa [Text.isProper] using ⟨first, second⟩)
  | @definition name name' parameters parameters' body body' i i' named h =>
    obtain ⟨rfl, named⟩ := named
    obtain ⟨same, h⟩ := h
    obtain ⟨listed, inParameters, -⟩ := (Content.value_iff.mp h).1.2
    injection same with _ same _
    subst same
    obtain ⟨n, quoted, first⟩ := named
    obtain ⟨t, shown, second⟩ := functionText_proper listed inParameters
    refine ⟨rfl, .definition n t, by simp only [quoted, shown]; rfl, ?_⟩
    exact Text.isProper_join (by simpa [Text.isProper] using ⟨first, second⟩)
  | @assignment name name' v v' named h =>
    obtain ⟨⟨rfl, named⟩, rfl, h⟩ := named, h
    obtain ⟨n, quoted, first⟩ := named
    obtain ⟨s, shown, second⟩ := text_proper v h
    refine ⟨rfl, .assignment n s, by simp only [quoted, shown]; rfl, ?_⟩
    exact Text.isProper_join (by simpa [Text.isProper] using ⟨first, second⟩)
  | @print v v' h =>
    obtain ⟨rfl, h⟩ := h
    obtain ⟨s, shown, proper⟩ := text_proper v h
    refine ⟨rfl, .print s, by simp only [shown]; rfl, ?_⟩
    exact Text.isProper_join (by simpa [Text.isProper] using proper)
  | @condition v v' h =>
    obtain ⟨rfl, h⟩ := h
    obtain ⟨s, shown, proper⟩ := text_proper v h
    refine ⟨rfl, .condition s, by simp only [shown]; rfl, ?_⟩
    exact Text.isProper_join (by simpa [Text.isProper] using proper)

theorem executes (level level' : Nat) :
    (writable.invariant.conduct writable.Tree).Executes ⟨level, []⟩ ⟨level', []⟩ := by
  have alone := (Content.keptThroughout (laws rfl level)).executes
  have both : writable.invariant.likeness.Simulates ⟨level, []⟩ ⟨level', []⟩ := {
    alone.toSimulates with
    answer := alone.answer
    recorded := by
      intro _ _ event event' h
      obtain ⟨rfl, e, formed, s, written⟩ := event_proper h
      rw [recorded_of_proper formed written, recorded_of_proper formed written]
      exact .ok fun _ _ _ => trivial }
  exact { alone with toSimulates := both }

theorem result_eq (level level' : Nat) (budget : Budget) {program : Ast}
    (h : writable.Tree program) :
    (Setup.run ⟨level, []⟩ budget program).result =
      (Setup.run ⟨level', []⟩ budget program).result := by
  have outcomes := Conduct.run_outcomes (executes level level') budget
    (entered rfl level level') (blocks_alike h) fun _ _ _ _ _ _ _ => trivial
  have alike := outcomes.result
  rw [← Setup.run_eq_runIn, ← Setup.run_eq_runIn] at alike
  generalize (Setup.run ⟨level, []⟩ budget program).result = x at alike ⊢
  generalize (Setup.run ⟨level', []⟩ budget program).result = x' at alike ⊢
  cases alike with
  | ok same =>
    obtain ⟨_, _, _, same, _⟩ := same
    cases same
    rfl
  | error same => exact congrArg Except.error same.1

end Writable

end DynamicScope
