import DynamicScope.Proofs.Origin.Execute
import DynamicScope.Proofs.Origin.Passing
import DynamicScope.Proofs.Run.Outcome
import DynamicScope.Proofs.Soundness.Kept

/-! Where the arrays and functions of a run come from.
A run without native functions makes arrays and functions where array literals are evaluated and
functions are declared, and nowhere else. Every one that is met in the run was made by exactly one of
these events, and two of them are equal exactly if they were made by the same event. -/

namespace DynamicScope

open Machine Origin

def Visit.world : Visit → World
  | .statement _ _ w => w
  | .condition _ _ w => w

theorem Visit.Accounted.world {log : List Value} {visit : Visit} (h : visit.Accounted log) :
    visit.world.Accounted log := by
  cases visit with
  | statement tree s w => exact h.1
  | condition test env w => exact h

theorem Visit.Accounted.of_evaluation? {log : List Value} {visit : Visit} {calls : Nat}
    {x : Evaluation} (h : visit.Accounted log) (started : visit.evaluation? calls = some x) :
    x.world.Accounted log := by
  have same : x.world = visit.world := by
    cases visit with
    | condition test env w =>
      cases started
      rfl
    | statement tree s w => cases tree <;> cases started <;> rfl
  exact same ▸ h.world

namespace Setup

variable (setup : Setup) (budget : Budget) (program : Ast)

def history : List Happening := (setup.runVisits budget program).flatMap (setup.happenings budget)

def objects : List Value := (setup.history budget program).filterMap setup.made?

/-- Whether the object is made by what happens at the given place in a run. -/
def HasOrigin (v : Value) (i : Nat) : Prop :=
  ∃ happening, (setup.history budget program)[i]? = some happening ∧ setup.made? happening = some v

def Reaches (x : Evaluation) : Prop :=
  ∃ visit ∈ setup.runVisits budget program, ∃ start,
    visit.evaluation? budget.calls = some start ∧ Relation.ReflTransGen setup.Starts start x

/-- The worlds before visits, before and after evaluations, and in the end. -/
inductive ComesTo : World → Prop
  | visit {visit : Visit} (listed : visit ∈ setup.runVisits budget program) : ComesTo visit.world
  | start {x : Evaluation} (reached : setup.Reaches budget program x) : ComesTo x.world
  | finish {x : Evaluation} (reached : setup.Reaches budget program x) :
    ComesTo ((setup.evaluate x.calls x.env x.tree).after x.world)
  | last : ComesTo ((setup.runProgram budget program).after setup.startWorld)

/-- The values that are met at any point of a run: in an environment, as the value of an expression,
in the output so far or in the end, or in an array that is met. -/
inductive Meets : Value → Prop
  | bound {w : World} {env : EnvRef} {entry : Name × Value} (point : setup.ComesTo budget program w)
    (listed : entry ∈ w.bindings env) : Meets entry.2
  | answer {x : Evaluation} {v : Value} {u : World} (reached : setup.Reaches budget program x)
    (ran : (setup.evaluate x.calls x.env x.tree).run x.world = .ok v u) : Meets v
  | output {tree : Ast} {s : State} {w : World} {v : Value}
    (visited : .statement tree s w ∈ setup.runVisits budget program)
    (listed : v ∈ s.output.values) : Meets v
  | result {values : List Value} {v : Value}
    (returned : (setup.run budget program).result = .ok values) (listed : v ∈ values) : Meets v
  | element {i : Nat} {items : List Value} {v : Value} (whole : Meets (.array i items))
    (listed : v ∈ items) : Meets v

variable {setup budget program}

theorem evaluated_mem_history {x : Evaluation} :
    .evaluated x ∈ setup.history budget program ↔ setup.Reaches budget program x := by
  simp only [history, happenings, Reaches, List.mem_flatMap, List.mem_cons, List.mem_map,
    reduceCtorEq, false_or, Happening.evaluated.injEq, exists_eq_right]
  refine exists_congr fun visit => and_congr_right fun _ => ?_
  cases visit.evaluation? budget.calls with
  | none => simp
  | some start => simp [mem_evaluations]

theorem visited_mem_history {visit : Visit} :
    .visited visit ∈ setup.history budget program ↔ visit ∈ setup.runVisits budget program := by
  simp [history, happenings]

theorem objects_eq :
    setup.objects budget program =
      (setup.runVisits budget program).flatMap (setup.madeAt budget) := by
  rw [objects, history, List.filterMap_flatMap]
  rfl

theorem mem_objects {v : Value} :
    v ∈ setup.objects budget program ↔ ∃ i, setup.HasOrigin budget program v i := by
  rw [objects, List.mem_filterMap]
  constructor
  · rintro ⟨happening, listed, made⟩
    obtain ⟨i, found⟩ := List.mem_iff_getElem?.mp listed
    exact ⟨i, happening, found, made⟩
  · rintro ⟨i, happening, found, made⟩
    exact ⟨happening, List.mem_of_getElem? found, made⟩

theorem from_of_mathBindings {first : Nat} : ∀ entry ∈ mathBindings first, entry.2.From [] := by
  intro entry listed
  rcases List.mem_cons.mp listed with rfl | listed
  · exact Value.from_of_isPlain rfl
  · obtain ⟨⟨f, i⟩, -, rfl⟩ := List.mem_map.mp listed
    exact Value.from_of_not_isObject rfl rfl

theorem accounted_startWorld : setup.startWorld.Accounted [] where
  bound _ _ listed := nomatch listed
  used := nofun
  ordered := .nil

theorem accounted_firstWorld (natives : setup.natives = []) : setup.firstWorld.Accounted [] := by
  have none : setup.nativeBindings = [] := by simp [nativeBindings, natives]
  have held : ∀ entry ∈ setup.firstBindings, entry.2.From [] := by
    rw [firstBindings, none]
    exact from_of_mathBindings
  refine ⟨fun env entry listed => ?_, nofun, .nil⟩
  rcases Store.mem_bindings_new (s := .empty) listed with old | new
  · cases old
  · exact held entry new

theorem passes_run (natives : setup.natives = []) (budget : Budget) {body : Ast}
    (block : program.block? = .ok body) :
    setup.PassesVisits budget [] (setup.runVisits budget program) State.From
      ((setup.execute budget body setup.firstState).run setup.firstWorld) := by
  rw [runVisits, block]
  exact passes_execute natives body [] _ _ (accounted_firstWorld natives) nofun

theorem exists_block {visit : Visit} (listed : visit ∈ setup.runVisits budget program) :
    ∃ body, program.block? = .ok body := by
  unfold runVisits at listed
  split at listed
  · exact ⟨_, ‹_›⟩
  · cases listed

theorem accounted_of_visit (natives : setup.natives = []) {visit : Visit}
    (listed : visit ∈ setup.runVisits budget program) :
    ∃ log, visit.Accounted log ∧
      log ++ setup.madeAt budget visit <+: setup.objects budget program := by
  obtain ⟨body, block⟩ := exists_block listed
  rw [objects_eq]
  exact (passes_run natives budget block).sequence.of_mem listed

theorem accounted_of_reaches (natives : setup.natives = []) {x : Evaluation}
    (reached : setup.Reaches budget program x) :
    ∃ log, x.world.Accounted log ∧ log ++ setup.made x <+: setup.objects budget program := by
  obtain ⟨visit, listed, start, started, path⟩ := reached
  obtain ⟨log, here, within⟩ := accounted_of_visit natives listed
  rw [madeAt_of_evaluation? started] at within
  obtain ⟨log', there, within'⟩ :=
    accounted_of_reached natives path (here.of_evaluation? started)
  exact ⟨log', there, within'.trans within⟩

theorem leaves_run (natives : setup.natives = []) (budget : Budget) (program : Ast) :
    Leaves (setup.objects budget program)
      (fun values => ∀ v ∈ values, v.From (setup.objects budget program))
      ((setup.runProgram budget program).run setup.startWorld) := by
  cases block : program.block? with
  | error e =>
    have none : setup.objects budget program = [] := by rw [objects_eq, runVisits, block]; rfl
    rw [none, run_runProgram_of_no_block setup block]
    exact .error (accounted_startWorld.traced _)
  | ok body =>
    have left := (passes_run natives budget block).leaves
    rw [List.nil_append, ← objects_eq] at left
    rw [run_runProgram_of_block setup block]
    -- A run that starts before all runs executes its block in the first world.
    change Leaves _ _
      (setup.ended ((setup.execute budget body setup.firstState).run setup.firstWorld))
    generalize (setup.execute budget body setup.firstState).run setup.firstWorld = x at left ⊢
    cases left with
    | ok world held => exact .ok (world.traced _) held
    | error world => exact .error world

theorem accounted_of_comesTo (natives : setup.natives = []) {w : World}
    (point : setup.ComesTo budget program w) :
    ∃ log, w.Accounted log ∧ log <+: setup.objects budget program := by
  cases point with
  | visit listed =>
    obtain ⟨log, here, within⟩ := accounted_of_visit natives listed
    exact ⟨log, here.world, (List.prefix_append _ _).trans within⟩
  | start reached =>
    obtain ⟨log, here, within⟩ := accounted_of_reaches natives reached
    exact ⟨log, here, (List.prefix_append _ _).trans within⟩
  | @finish x reached =>
    obtain ⟨log, here, within⟩ := accounted_of_reaches natives reached
    exact ⟨_, (logs natives x log here).after, within⟩
  | last => exact ⟨_, (leaves_run natives budget program).after, List.prefix_refl _⟩

theorem from_of_meets (natives : setup.natives = []) {v : Value}
    (met : setup.Meets budget program v) : v.From (setup.objects budget program) := by
  induction met with
  | bound point listed =>
    obtain ⟨log, here, within⟩ := accounted_of_comesTo natives point
    exact (here.bound _ _ listed).mono within
  | @answer x v u reached ran =>
    obtain ⟨log, here, within⟩ := accounted_of_reaches natives reached
    exact ((logs natives x log here).of_ok ran).2.mono within
  | output visited listed =>
    obtain ⟨log, here, within⟩ := accounted_of_visit natives visited
    exact (here.2 _ listed).mono ((List.prefix_append _ _).trans within)
  | result returned listed =>
    unfold run at returned
    cases ran : (setup.runProgram budget program).run setup.startWorld with
    | ok values w =>
      rw [ran] at returned
      cases returned
      exact ((leaves_run natives budget program).of_ok ran).2 _ listed
    | error e w =>
      rw [ran] at returned
      cases returned
  | element _ listed ih => exact ih.element listed

theorem identity_lt_of_hasOrigin (natives : setup.natives = []) {a b : Value} {i j m n : Nat}
    (first : setup.HasOrigin budget program a i) (second : setup.HasOrigin budget program b j)
    (earlier : i < j) (left : a.identity? = some m) (right : b.identity? = some n) : m < n := by
  obtain ⟨happening, found, made⟩ := first
  obtain ⟨happening', found', made'⟩ := second
  -- The log has no places for what makes nothing, so its order is read off the history.
  have ordered := (leaves_run natives budget program).after.ordered
  rw [objects, List.pairwise_filterMap, List.pairwise_iff_getElem] at ordered
  obtain ⟨inside, rfl⟩ := List.getElem?_eq_some_iff.mp found
  obtain ⟨inside', rfl⟩ := List.getElem?_eq_some_iff.mp found'
  exact ordered i j inside inside' earlier a made b made' m n left right

theorem isObject_of_hasOrigin (natives : setup.natives = []) {v : Value} {i : Nat}
    (h : setup.HasOrigin budget program v i) : v.IsObject := by
  obtain ⟨m, -, same⟩ := (leaves_run natives budget program).after.used v (mem_objects.mpr ⟨i, h⟩)
  exact ⟨m, same⟩

theorem HasOrigin.value_unique {a b : Value} {i : Nat} (first : setup.HasOrigin budget program a i)
    (second : setup.HasOrigin budget program b i) : a = b := by
  obtain ⟨happening, found, made⟩ := first
  obtain ⟨happening', found', made'⟩ := second
  obtain rfl := Option.some.inj (found.symm.trans found')
  exact Option.some.inj (made.symm.trans made')

theorem equal_of_hasOrigin (natives : setup.natives = []) {a b : Value} {i j : Nat}
    (first : setup.HasOrigin budget program a i) (second : setup.HasOrigin budget program b j)
    (kind : a.kind = b.kind) : a.equal b = decide (i = j) := by
  obtain ⟨m, left⟩ := isObject_of_hasOrigin natives first
  obtain ⟨n, right⟩ := isObject_of_hasOrigin natives second
  rw [Value.equal_eq_of_identity? left right kind, decide_eq_decide]
  rcases Nat.lt_trichotomy i j with earlier | rfl | later
  · have := identity_lt_of_hasOrigin natives first second earlier left right
    omega
  · obtain rfl := first.value_unique second
    rw [left] at right
    exact iff_of_true (Option.some.inj right) rfl
  · have := identity_lt_of_hasOrigin natives second first later right left
    omega

/-- In a run without native functions, every array and every function of the language that is met at
any point comes from exactly one event: from the evaluation of an array literal that returned it, or
from the execution of a function's declaration. Objects of one sort are equal exactly if they come
from the same event, and so differ from those that were made before. What hands a value on keeps
where it comes from. -/
theorem run_origins (setup : Setup) (natives : setup.natives = []) (budget : Budget)
    (program : Ast) :
    (∀ x, .evaluated x ∈ setup.history budget program ↔ setup.Reaches budget program x) ∧
    (∀ visit, .visited visit ∈ setup.history budget program ↔
      visit ∈ setup.runVisits budget program) ∧
    (∀ v, setup.Meets budget program v → v.IsObject → ∃! i, setup.HasOrigin budget program v i) ∧
    (∀ a b i j, setup.HasOrigin budget program a i → setup.HasOrigin budget program b j →
      a.kind = b.kind →
        Value.binary (.scalar (.string (.proper "=="))) a b = .ok (.boolean (decide (i = j))) ∧
        Value.binary (.scalar (.string (.proper "!="))) a b = .ok (.boolean (decide (i ≠ j)))) ∧
    (∀ a b i j, setup.HasOrigin budget program a i → setup.HasOrigin budget program b j → i < j →
      a.equal b = false) ∧
    ∀ v v', setup.Passes v v' → ∀ i, setup.HasOrigin budget program v' i ↔
      setup.HasOrigin budget program v i := by
  refine ⟨fun _ => evaluated_mem_history, fun _ => visited_mem_history, fun v met object => ?_,
    fun a b i j first second kind => ?_, fun a b i j first second earlier => ?_,
    fun v v' passed i => ?_⟩
  · obtain ⟨i, made⟩ := mem_objects.mp ((from_of_meets natives met).mem object)
    obtain ⟨m, identity⟩ := object
    refine ⟨i, made, fun j made' => ?_⟩
    rcases Nat.lt_trichotomy i j with earlier | rfl | later
    · have := identity_lt_of_hasOrigin natives made made' earlier identity identity
      omega
    · rfl
    · have := identity_lt_of_hasOrigin natives made' made later identity identity
      omega
  · have equal := equal_of_hasOrigin natives first second kind
    rw [Value.binary_equal kind, Value.binary_unequal kind, equal, decide_not]
    exact ⟨rfl, rfl⟩
  · by_cases kind : a.kind = b.kind
    · rw [equal_of_hasOrigin natives first second kind, decide_eq_false (Nat.ne_of_lt earlier)]
    · exact Value.equal_of_kind_ne kind
  · rw [passed.eq]

/-- Prints an array under two names, and another one with the same element. -/
def twins : Ast :=
  let name (s : String) := Ast.identifier (.scalar (.string s))
  let array := Ast.arrayLiteral (.list [.booleanLiteral true])
  .program (.block (.list [.variableDeclaration (name "x") array,
    .variableDeclaration (name "y") (name "x"), .printStatement (name "x"),
    .printStatement (name "y"), .printStatement array]))

theorem run_origins_twins :
    ∃ x y z, (bare.run ⟨0, 0⟩ twins).result = .ok [x, y, z] ∧
      (∃! i, bare.HasOrigin ⟨0, 0⟩ twins x i) ∧ (∃! i, bare.HasOrigin ⟨0, 0⟩ twins z i) ∧
      Value.binary (.scalar (.string (.proper "=="))) x y = .ok (.boolean true) ∧
      Value.binary (.scalar (.string (.proper "=="))) x z = .ok (.boolean false) := by
  obtain ⟨-, -, origin, equal, -, -⟩ := run_origins bare rfl ⟨0, 0⟩ twins
  have returned : (bare.run ⟨0, 0⟩ twins).result =
      .ok [.array 7 [.boolean true], .array 7 [.boolean true], .array 10 [.boolean true]] := rfl
  have ofX := origin _ (.result returned (.head _)) ⟨_, rfl⟩
  have ofZ := origin _ (.result returned (.tail _ (.tail _ (.head _)))) ⟨_, rfl⟩
  refine ⟨_, _, _, returned, ofX, ofZ, ?_, ?_⟩
  · obtain ⟨i, made, -⟩ := ofX
    simpa using (equal _ _ i i made made rfl).1
  · obtain ⟨i, made, -⟩ := ofX
    obtain ⟨j, made', -⟩ := ofZ
    have apart : i ≠ j := by
      rintro rfl
      cases made.value_unique made'
    simpa [apart] using (equal _ _ i j made made' rfl).1

end Setup

end DynamicScope
