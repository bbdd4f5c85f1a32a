import DynamicScope.Proofs.Genuine.Value
import DynamicScope.Proofs.Simulation.Points
import DynamicScope.Proofs.Soundness.Run

/-! Runs without native functions keep to the values of the language.
Whatever the tree is that is run, and whatever the run ends with: at every point of it the
environments, the output, the arguments of calls and the values of expressions hold nothing but such
values. -/

namespace DynamicScope

open Machine

def genuineness : Invariant Unit where
  failure _ := True
  operator _ := True
  name _ := True
  tree _ := True
  value _ v := v.Genuine
  next _ _ := True

namespace Genuineness

theorem isOpen : genuineness.Open where
  failure _ := trivial
  operator _ := trivial
  name _ := trivial
  tree _ := trivial
  double _ _ := trivial

variable {setup : Setup}

theorem answer_genuine (natives : setup.natives = []) {f : Builtin} {n : Nat} {vs : List Value}
    {a : Value × Nat} (h : setup.answer f n vs = .ok a) : a.1.Genuine := by
  cases f with
  | math f =>
    obtain ⟨v, applied, h⟩ := bind_eq_ok.mp h
    cases h
    exact MathFunction.apply_genuine applied
  | native name arity index =>
    rw [Setup.answer, natives] at h
    cases h
    trivial

theorem kept (natives : setup.natives = []) : genuineness.Kept setup where
  value_mono _ held := held
  expression _ := isOpen.reflexive.expression _
  key _ := isOpen.yields _
  undeclared _ := trivial
  arity _ _ _ := trivial
  exhausted := trivial
  boolean _ _ := trivial
  isTrue _ := isOpen.yields _
  unary _ held := isOpen.yields_of_ok fun _ ran => Value.unary_genuine held ran
  binary _ left right := isOpen.yields_of_ok fun _ ran => Value.binary_genuine left right ran
  subscript held _ := isOpen.yields_of_ok fun _ ran => Value.subscript_genuine held ran
  array _ held := ⟨(), le_refl _, trivial, Value.genuineAll_iff.mpr held⟩
  called _ := isOpen.called _ _
  answer _ _ _ :=
    isOpen.yields_of_ok fun _ ran => ⟨(), le_refl _, trivial, answer_genuine natives ran⟩
  recorded _ := isOpen.yields _

theorem keptThroughout (natives : setup.natives = []) :
    genuineness.KeptThroughout (fun _ => True) setup where
  toKept := kept natives
  statement _ := isOpen.statement (fun _ _ _ _ _ => ⟨(), le_refl _, trivial, trivial⟩) _
  unassigned _ := trivial
  items held := Value.genuineAll_iff.mp held

end Genuineness

def World.Genuine (w : World) : Prop := ∀ env < w.size, ∀ entry ∈ w.bindings env, entry.2.Genuine

namespace Setup

/-- What an evaluation finds, passes on, answers and leaves are values of the language. -/
structure EvaluatesGenuinely (setup : Setup) (x : Evaluation) : Prop where
  found : x.world.Genuine
  left : ((setup.evaluate x.calls x.env x.tree).after x.world).Genuine
  answer : ∀ v u, (setup.evaluate x.calls x.env x.tree).run x.world = .ok v u → v.Genuine
  arguments : ∀ callee args vs u, x.tree = .call callee args →
    (setup.evaluateParts (setup.entering x.calls) x.env args).run x.world = .ok vs u →
      ∀ v ∈ vs, v.Genuine
  identifier : ∀ name v u, x.tree = .identifier name →
    (setup.evaluate x.calls x.env x.tree).run x.world = .ok v u → v ≠ .undefined
  /-- Comparisons, equality and the binary connectives. -/
  logical : ∀ symbol op first second v u,
    x.tree = .binary (.scalar (.string (.proper symbol))) first second →
    BinaryOperator.ofSymbol? symbol = some op → (∀ arithmetic, op ≠ .arithmetic arithmetic) →
    (setup.evaluate x.calls x.env x.tree).run x.world = .ok v u → ∃ truth, v = .boolean truth
  negation : ∀ part v u, x.tree = .unary (.scalar (.string (.proper "!"))) part →
    (setup.evaluate x.calls x.env x.tree).run x.world = .ok v u → ∃ truth, v = .boolean truth

/-- What a visit finds and leaves, also when it fails, are values of the language. -/
inductive VisitsGenuinely (setup : Setup) (budget : Budget) : Visit → Prop
  | statement {tree : Ast} {s : State} {w : World} (found : w.Genuine)
    (output : ∀ v ∈ s.output.values, v.Genuine)
    (left : ((setup.execute budget tree s).after w).Genuine)
    (printed : ∀ t u, (setup.execute budget tree s).run w = .ok t u →
      ∀ v ∈ t.output.values, v.Genuine) :
    VisitsGenuinely setup budget (.statement tree s w)
  | condition {test : Ast} {env : EnvRef} {w : World} (found : w.Genuine)
    (left : ((setup.condition budget env test).after w).Genuine) :
    VisitsGenuinely setup budget (.condition test env w)

variable {setup : Setup} {budget : Budget}

theorem evaluate_identifier_ne_undefined {calls : Nat} {env : EnvRef} {name : Json} {v : Value}
    {w u : World} (ran : (setup.evaluate calls env (.identifier name)).run w = .ok v u) :
    v ≠ .undefined := by
  rw [evaluate_eq] at ran
  obtain ⟨found, w₁, looked, ran⟩ := of_bind_ok ran
  obtain ⟨key, w₂, -, looked⟩ := of_bind_ok looked
  cases looked
  cases present : (w₁.store.bindings env).present? key with
  | none =>
    rw [present] at ran
    cases ran
  | some value =>
    rw [present] at ran
    cases ran
    rintro rfl
    exact Bindings.present?_ne_undefined present

theorem evaluatesGenuinely (natives : setup.natives = []) {x : Evaluation}
    (here : genuineness.At () x) : setup.EvaluatesGenuinely x := by
  have kept := (Genuineness.kept natives).evaluate x.calls here.world here.there here.tree
  obtain ⟨_, _, left, answer⟩ := kept.after
  refine ⟨here.world.bound, left.bound, answer, ?_, ?_, ?_, ?_⟩
  · intro callee args vs u same ran
    have parts : genuineness.likeness.Parts genuineness.likeness.tree .notAnExpression args args :=
      Genuineness.isOpen.reflexive.parts Genuineness.isOpen.reflexive.tree args
    obtain ⟨_, _, given, _⟩ :=
      (Genuineness.kept natives).after_evaluateParts here.world here.there parts ran
    exact given
  · intro name v u same ran
    rw [same] at ran
    exact evaluate_identifier_ne_undefined ran
  · intro symbol op first second v u same named logical ran
    rw [same, evaluate_eq, evaluateWith] at ran
    obtain ⟨a, _, -, ran⟩ := of_bind_ok ran
    obtain ⟨b, _, -, ran⟩ := of_bind_ok ran
    obtain ⟨_, _, -, ran⟩ := of_bind_ok ran
    exact Value.binary_boolean named logical (of_lift_ok ran).1
  · intro part v u same ran
    rw [same, evaluate_eq, evaluateWith] at ran
    obtain ⟨a, _, -, ran⟩ := of_bind_ok ran
    exact Value.unary_boolean (of_lift_ok ran).1

theorem visitsGenuinely (natives : setup.natives = []) {visit : Visit}
    (here : genuineness.AtVisit (fun _ => True) () visit) : setup.VisitsGenuinely budget visit := by
  have laws := Genuineness.keptThroughout natives
  cases here with
  | @statement tree s w here h =>
    have kept : genuineness.Keeps () (fun _ t => t.output.array.Genuine)
        ((setup.execute budget tree s).run w) :=
      laws.execute budget here.world here.there here.output h
    obtain ⟨_, _, left, output⟩ := kept.after
    exact .statement here.world.bound (Value.genuineAll_iff.mp here.output) left.bound
      fun t u ran => Value.genuineAll_iff.mp (output t u ran)
  | @condition test env w world there h =>
    obtain ⟨_, _, left, _⟩ := (laws.toKept.condition budget world there h).after
    exact .condition world.bound left.bound

def launch (setup : Setup) : Machine State := do
  record setup 1 fun _ => .ok .started
  setup.start

theorem after_record (setup : Setup) (level : Nat) (event : Unit → Except Failure Event)
    (w : World) : ((record setup level event).after w).store = w.store := by
  rw [after, run_record]
  rcases recorded setup level event with e | (_ | e) <;> rfl

theorem genuine_of_mathBindings {first : Nat} :
    ∀ entry ∈ mathBindings first, entry.2.Genuine := by
  simp [mathBindings, MathFunction.all, MathFunction.value, Value.double, Value.Genuine]

theorem atState_launch (natives : setup.natives = []) {s : State} {w : World}
    (launched : setup.launch.run setup.startWorld = .ok s w) : genuineness.AtState () s w := by
  obtain ⟨level, natives'⟩ := setup
  obtain rfl : natives' = [] := natives
  obtain ⟨_, v, traced, started⟩ := of_bind_ok launched
  have store := after_record ⟨level, []⟩ 1 (fun _ => .ok .started) (startWorld ⟨level, []⟩)
  rw [after_of_ok traced] at store
  obtain ⟨_, next, trace⟩ := v
  obtain rfl := store
  cases started
  refine ⟨⟨fun env there => ?_, trivial⟩, Nat.zero_lt_one, trivial⟩
  obtain rfl := Nat.lt_one_iff.mp there
  exact genuine_of_mathBindings

theorem runProgram_eq {program body : Ast} (block : program.block? = .ok body) :
    setup.runProgram budget program = (do
      let s ← setup.launch
      let t ← setup.execute budget body s
      record setup 1 fun _ => .ok (.finished t.output.values.length)
      return t.output.values) := by
  unfold runProgram launch start
  rw [block]
  simp only [bind_assoc, lift_ok_bind, pure_bind]

theorem runProgram_eq_error {program : Ast} {e : Failure} (block : program.block? = .error e) :
    setup.runProgram budget program = (do
      record setup 1 fun _ => .ok .started
      throw e) := by
  unfold runProgram
  rw [block]
  rfl

theorem genuine_after_record {level : Nat} {event : Unit → Except Failure Event} {w : World}
    (h : w.Genuine) : ((record setup level event).after w).Genuine := by
  have same := after_record setup level event w
  unfold World.Genuine World.size World.bindings
  rw [same]
  exact h

theorem genuine_after_bind {α β : Type} {m : Machine α} {f : α → Machine β} {w : World}
    (first : (m.after w).Genuine)
    (rest : ∀ a v, m.run w = .ok a v → v.Genuine → ((f a).after v).Genuine) :
    ((m >>= f).after w).Genuine := by
  rw [after_bind]
  unfold after at first
  cases ran : m.run w with
  | error e v =>
    rw [ran] at first
    exact first
  | ok a v =>
    rw [ran] at first
    exact rest a v ran first

theorem genuine_after_launch (natives : setup.natives = []) :
    (setup.launch.after setup.startWorld).Genuine := by
  have empty : setup.startWorld.Genuine := fun _ there => nomatch there
  cases launched : setup.launch.run setup.startWorld with
  | ok s w =>
    rw [after_of_ok launched]
    exact (atState_launch natives launched).world.bound
  | error e w =>
    refine genuine_after_bind (genuine_after_record empty) fun _ v traced _ => ?_
    rcases of_bind_error launched with failed | ⟨_, v', _, failed⟩
    · rw [traced] at failed
      cases failed
    · cases failed

theorem runProgram_genuine (natives : setup.natives = []) (program : Ast) :
    ((setup.runProgram budget program).after setup.startWorld).Genuine ∧
      ∀ values u, (setup.runProgram budget program).run setup.startWorld = .ok values u →
        ∀ v ∈ values, v.Genuine := by
  cases block : program.block? with
  | error e =>
    rw [runProgram_eq_error block]
    constructor
    · exact genuine_after_bind (genuine_after_record fun _ there => nomatch there)
        fun _ _ _ found => found
    · intro values u ran
      obtain ⟨_, _, _, ran⟩ := of_bind_ok ran
      cases ran
  | ok body =>
    have laws := Genuineness.keptThroughout natives
    have kept {s : State} {w : World} (here : genuineness.AtState () s w) :
        genuineness.Keeps () (fun _ t => t.output.array.Genuine)
          ((setup.execute budget body s).run w) :=
      laws.execute budget here.world here.there here.output trivial
    rw [runProgram_eq block]
    constructor
    · refine genuine_after_bind (genuine_after_launch natives) fun s w launched _ => ?_
      obtain ⟨_, _, left, _⟩ := (kept (atState_launch natives launched)).after
      refine genuine_after_bind left.bound fun t v _ found => ?_
      exact genuine_after_bind (genuine_after_record found) fun _ _ _ found => found
    · intro values u ran
      obtain ⟨s, w, launched, ran⟩ := of_bind_ok ran
      obtain ⟨t, v, executed, ran⟩ := of_bind_ok ran
      obtain ⟨_, _, _, ran⟩ := of_bind_ok ran
      cases ran
      obtain ⟨_, _, output, _⟩ := (kept (atState_launch natives launched)).of_ok executed
      exact Value.genuineAll_iff.mp output

/-- At every point of a run without native functions there are only values of the language: in all
environments, in the output, among the arguments of calls, and as values of expressions. A name
never has the undefined value, and comparisons, equality and connectives have booleans as values. -/
theorem run_genuine (setup : Setup) (natives : setup.natives = []) (budget : Budget)
    (program : Ast) :
    (∀ values, (setup.run budget program).result = .ok values → ∀ v ∈ values, v.Genuine) ∧
    ((setup.runProgram budget program).after setup.startWorld).Genuine ∧
    ∀ body s w, program.block? = .ok body → setup.launch.run setup.startWorld = .ok s w →
      ∀ visit ∈ setup.visits budget body s w, setup.VisitsGenuinely budget visit ∧
        ∀ x y, visit.evaluation? budget.calls = some x →
          Relation.ReflTransGen setup.Starts x y → setup.EvaluatesGenuinely y := by
  have laws := Genuineness.keptThroughout natives
  obtain ⟨left, printed⟩ := runProgram_genuine natives program
  refine ⟨fun values returned => ?_, left, fun body s w block launched visit listed => ?_⟩
  · unfold run at returned
    cases ran : (setup.runProgram budget program).run setup.startWorld with
    | ok values' u =>
      rw [ran] at returned
      cases returned
      exact printed _ _ ran
    | error e u =>
      rw [ran] at returned
      cases returned
  · obtain ⟨_, _, here⟩ :=
      laws.at_visits body trivial () s w (atState_launch natives launched) visit listed
    refine ⟨visitsGenuinely natives here, fun x y started path => ?_⟩
    obtain ⟨_, _, there⟩ := laws.toKept.reaches path (laws.at_evaluation here started)
    exact evaluatesGenuinely natives there

def pastTheEnd (rest : List Ast) : Ast :=
  .block (.list (.printStatement (.subscript (.arrayLiteral (.list [.booleanLiteral true]))
    (.numeral (.scalar (.number (.double .nan))))) :: rest))

theorem run_genuine_pastTheEnd :
    (bare.run ⟨0, 0⟩ (.program (pastTheEnd []))).result = .ok [.undefined] ∧
    Value.undefined.Genuine ∧
    ∃ e s w, (bare.run ⟨0, 0⟩ (.program (pastTheEnd [.scalar .null]))).result = .error e ∧
      ((bare.runProgram ⟨0, 0⟩ (.program (pastTheEnd [.scalar .null]))).after
        bare.startWorld).Genuine ∧
      bare.launch.run bare.startWorld = .ok s w ∧
      ∀ visit ∈ bare.visits ⟨0, 0⟩ (pastTheEnd [.scalar .null]) s w,
        bare.VisitsGenuinely ⟨0, 0⟩ visit := by
  have returning := run_genuine bare rfl ⟨0, 0⟩ (.program (pastTheEnd []))
  have failing := run_genuine bare rfl ⟨0, 0⟩ (.program (pastTheEnd [.scalar .null]))
  refine ⟨rfl, returning.1 _ rfl _ List.mem_cons_self, _, _, _, rfl, failing.2.1, rfl,
    fun visit listed => ?_⟩
  exact (failing.2.2 _ _ _ rfl rfl visit listed).1

end Setup

end DynamicScope
