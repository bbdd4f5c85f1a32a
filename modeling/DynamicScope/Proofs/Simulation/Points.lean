import DynamicScope.Proofs.Run.Evaluation
import DynamicScope.Proofs.Simulation.Invariant

/-! Properties at every point of a run.
A run passes through the starts of simple statements and of checks, and from there through the
evaluations that these start. A property that runs keep holds at each of them, also if the run fails
later on. -/

namespace DynamicScope

open Machine

theorem Setup.grows_entering (setup : Setup) (calls : Nat) (env : EnvRef) (body : Ast) :
    Grows (setup.entering calls env body) := by
  cases calls with
  | zero => exact grows_throw _
  | succ calls => exact setup.grows_evaluate calls env body

theorem Likeness.bodies_entering {Stage : Type} [Preorder Stage] {r : Likeness Stage}
    {setup setup' : Setup} (laws : r.Simulates setup setup') (calls : Nat) :
    r.Bodies (setup.entering calls) (setup'.entering calls) where
  grows := setup.grows_entering calls
  grows' := setup'.grows_entering calls
  alike κ env env' body body' h := by
    cases calls with
    | zero => exact Pairs.throw laws.exhausted
    | succ calls => exact pairs_evaluate laws calls κ env env' body body' h

namespace Invariant

variable {Stage : Type} {p : Invariant Stage} {setup : Setup} {κ : Stage}

theorem each_of_parts {items : List Ast} {related : Ast → Prop} {unexpected : String → Failure}
    (h : p.likeness.Parts (fun t t' => t = t' ∧ related t) unexpected (.list items) (.list items)) :
    ∀ item ∈ items, related item := by
  cases h with
  | list same => exact (forall₂_same.mp same).2
  | other none => exact absurd rfl (none _)

variable [Preorder Stage]

structure At (p : Invariant Stage) (κ : Stage) (x : Evaluation) : Prop where
  world : p.World κ x.world
  there : x.env < x.world.size
  tree : p.tree x.tree

theorem Keeps.of_ok {α : Type} {R : Stage → α → Prop} {m : Machine α} {a : α}
    {w v : DynamicScope.World} (h : p.Keeps κ R (m.run w)) (ran : m.run w = .ok a v) :
    ∃ κ', κ ≤ κ' ∧ R κ' a ∧ p.World κ' v := by
  rw [ran] at h
  cases h with
  | ok up kept world => exact ⟨_, up, kept, world⟩

namespace Kept

variable (laws : p.Kept setup) {env : EnvRef} {w v : DynamicScope.World}

include laws

theorem after_evaluate {calls : Nat} {tree : Ast} {a : Value} (world : p.World κ w)
    (there : env < w.size) (h : p.tree tree)
    (ran : (setup.evaluate calls env tree).run w = .ok a v) :
    ∃ κ', κ ≤ κ' ∧ p.value κ' a ∧ p.World κ' v ∧ env < v.size := by
  obtain ⟨κ', up, held, world'⟩ := (laws.evaluate calls world there h).of_ok ran
  have grown := World.size_le ((setup.grows_evaluate calls env tree).le_of_ok ran)
  exact ⟨κ', up, held, world', Nat.lt_of_lt_of_le there grown⟩

theorem evaluateParts (calls : Nat) {tree : Ast} (world : p.World κ w) (there : env < w.size)
    (h : p.likeness.Parts p.likeness.tree .notAnExpression tree tree) :
    p.Keeps κ (fun κ vs => ∀ a ∈ vs, p.value κ a)
      ((setup.evaluateParts (setup.entering calls) env tree).run w) :=
  keeps_of_ends (Likeness.pairs_evaluateParts laws.simulates
    (Likeness.bodies_entering laws.simulates calls) κ env env tree tree h w w
    (world.linked there)) fun _ _ given => (forall₂_same.mp given).2

theorem after_evaluateParts {calls : Nat} {tree : Ast} {vs : List Value} (world : p.World κ w)
    (there : env < w.size) (h : p.likeness.Parts p.likeness.tree .notAnExpression tree tree)
    (ran : (setup.evaluateParts (setup.entering calls) env tree).run w = .ok vs v) :
    ∃ κ', κ ≤ κ' ∧ (∀ a ∈ vs, p.value κ' a) ∧ p.World κ' v ∧ env < v.size := by
  obtain ⟨κ', up, held, world'⟩ := (laws.evaluateParts calls world there h).of_ok ran
  have grown := World.size_le
    ((setup.grows_evaluateParts (setup.grows_entering calls) env tree).le_of_ok ran)
  exact ⟨κ', up, held, world', Nat.lt_of_lt_of_le there grown⟩

theorem before_item {calls : Nat} {items later : List Ast} {item : Ast} {vs : List Value}
    {unexpected : String → Failure} (world : p.World κ w) (there : env < w.size)
    (h : p.likeness.Parts p.likeness.tree unexpected (.list (items ++ item :: later))
      (.list (items ++ item :: later)))
    (ran : (setup.evaluateAll (setup.entering calls) env items).run w = .ok vs v) :
    ∃ κ', κ ≤ κ' ∧ p.At κ' ⟨calls, env, item, v⟩ := by
  have trees := each_of_parts h
  have first : p.likeness.Parts p.likeness.tree .notAnExpression (.list items) (.list items) :=
    .list (List.forall₂_same.mpr fun t listed => ⟨rfl, trees t (List.mem_append_left _ listed)⟩)
  have before : (setup.evaluateParts (setup.entering calls) env (.list items)).run w = .ok vs v :=
    ran
  obtain ⟨κ', up, -, world', there'⟩ := laws.after_evaluateParts world there first before
  exact ⟨κ', up, world', there', trees item (by simp)⟩

theorem lookup? {name : Json} (world : p.World κ w) (there : env < w.size) (named : p.name name) :
    p.Keeps κ (fun κ f => ∀ a, f = some a → p.value κ a) ((Machine.lookup? env name).run w) := by
  refine keeps_of_ends (Likeness.pairs_lookup? laws.simulates ⟨rfl, named⟩ w w (world.linked there))
    fun κ' f same a found => ?_
  subst found
  cases same with
  | some held => exact held.2

theorem before_body {name : Json} {parameters body : Ast} {i : Nat} {vs : List Value}
    {inner : EnvRef} {calls : Nat} (world : p.World κ w) (there : env < w.size)
    (named : p.name name) (held : p.value κ (.function i parameters body))
    (given : ∀ a ∈ vs, p.value κ a)
    (entered : (do
      record setup 2 fun _ => do return .call (← name.plainText) (← Value.toTextAll vs)
      callEnvironment name parameters vs env : Machine EnvRef).run w = .ok inner v) :
    ∃ κ', κ ≤ κ' ∧ p.At κ' ⟨calls, inner, body, v⟩ := by
  have alike : List.Forall₂ (p.likeness.value κ) vs vs :=
    List.forall₂_same.mpr fun a listed => ⟨rfl, given a listed⟩
  rw [callEnvironment_eq] at entered
  obtain ⟨_, w₁, traced, entered⟩ := of_bind_ok entered
  obtain ⟨others, w₂, bound, entered⟩ := of_bind_ok entered
  obtain ⟨answered, rfl⟩ := of_lift_ok bound
  cases entered
  have event : p.likeness.Recorded κ 2
      (fun _ => do return .call (← name.plainText) (← Value.toTextAll vs))
      (fun _ => do return .call (← name.plainText) (← Value.toTextAll vs)) :=
    .call ⟨rfl, named⟩ alike
  have paired := Likeness.pairs_record laws.simulates event w w (world.linked there)
  rw [traced] at paired
  cases paired with
  | @ok κ' _ _ _ _ up _ linked =>
    cases laws.called held with
    | function counted parameterNames h =>
      have overlaid := Likeness.alike_callBindings (κ := κ) laws.simulates ⟨rfl, named⟩ counted
        parameterNames alike
      rw [answered] at overlaid
      cases overlaid with
      | ok overlay =>
        have within := (linked.new laws.simulates (overlay κ' up _ _ linked.bindings)).2
        exact ⟨κ', up, .of_stores within.stores within.next, within.there, h.2⟩
    | other none => exact absurd rfl none

theorem starts {x y : Evaluation} (h : setup.Starts x y) (here : p.At κ x) :
    ∃ κ', κ ≤ κ' ∧ p.At κ' y := by
  obtain ⟨world, there, well⟩ := here
  have form := laws.expression well
  cases h with
  | operand =>
    cases form with
    | unary _ part => exact ⟨κ, le_refl κ, world, there, part.2⟩
    | other none => cases none
  | left =>
    cases form with
    | binary _ first _ => exact ⟨κ, le_refl κ, world, there, first.2⟩
    | other none => cases none
  | right before =>
    cases form with
    | binary _ first second =>
      obtain ⟨κ', up, -, world', there'⟩ := laws.after_evaluate world there first.2 before
      exact ⟨κ', up, world', there', second.2⟩
    | other none => cases none
  | test =>
    cases form with
    | conditional chosen _ _ => exact ⟨κ, le_refl κ, world, there, chosen.2⟩
    | other none => cases none
  | @chosen _ _ _ _ _ _ b _ _ before _ =>
    cases form with
    | conditional chosen first second =>
      obtain ⟨κ', up, -, world', there'⟩ := laws.after_evaluate world there chosen.2 before
      refine ⟨κ', up, world', there', ?_⟩
      cases b with
      | true => exact first.2
      | false => exact second.2
    | other none => cases none
  | element before =>
    cases form with
    | arrayLiteral parts => exact laws.before_item world there parts before
    | other none => cases none
  | array =>
    cases form with
    | subscript first _ => exact ⟨κ, le_refl κ, world, there, first.2⟩
    | other none => cases none
  | index before =>
    cases form with
    | subscript first second =>
      obtain ⟨κ', up, -, world', there'⟩ := laws.after_evaluate world there first.2 before
      exact ⟨κ', up, world', there', second.2⟩
    | other none => cases none
  | argument _ _ before =>
    cases form with
    | call _ parts => exact laws.before_item world there parts before
    | other none => cases none
  | body callee found given entered =>
    cases form with
    | call named parts =>
      rw [callee] at named
      cases named with
      | ok named =>
        obtain ⟨κ₁, up₁, held, world₁⟩ := (laws.lookup? world there named.2).of_ok found
        obtain ⟨κ₂, up₂, held', world₂, there₂⟩ :=
          laws.after_evaluateParts world₁ there parts given
        obtain ⟨κ₃, up₃, here⟩ := laws.before_body world₂ there₂ named.2
          (laws.value_mono up₂ (held _ rfl)) held' entered
        exact ⟨κ₃, le_trans up₁ (le_trans up₂ up₃), here⟩
    | other none => cases none

theorem reaches {x y : Evaluation} (path : Relation.ReflTransGen setup.Starts x y)
    (here : p.At κ x) : ∃ κ', κ ≤ κ' ∧ p.At κ' y := by
  induction path with
  | refl => exact ⟨κ, le_refl κ, here⟩
  | tail _ last ih =>
    obtain ⟨κ₁, up₁, before⟩ := ih
    obtain ⟨κ₂, up₂, after⟩ := laws.starts last before
    exact ⟨κ₂, le_trans up₁ up₂, after⟩

end Kept

structure AtState (p : Invariant Stage) (κ : Stage) (s : State) (w : DynamicScope.World) :
    Prop where
  world : p.World κ w
  there : s.env < w.size
  output : p.value κ s.output.array

inductive AtVisit (p : Invariant Stage) (statement : Ast → Prop) (κ : Stage) : Visit → Prop
  | statement {tree : Ast} {s : State} {w : DynamicScope.World} (here : p.AtState κ s w)
    (h : statement tree) : AtVisit p statement κ (.statement tree s w)
  | condition {test : Ast} {env : EnvRef} {w : DynamicScope.World} (world : p.World κ w)
    (there : env < w.size) (h : p.tree test) : AtVisit p statement κ (.condition test env w)

namespace KeptThroughout

variable {statement : Ast → Prop} (laws : p.KeptThroughout statement setup) {budget : Budget}
  {s t : State} {w v : DynamicScope.World}

include laws

theorem after_execute {tree : Ast} (here : p.AtState κ s w) (h : statement tree)
    (ran : (setup.execute budget tree s).run w = .ok t v) :
    ∃ κ', κ ≤ κ' ∧ p.AtState κ' t v ∧ w.size ≤ v.size := by
  obtain ⟨κ', up, held, world⟩ :=
    (laws.execute budget here.world here.there here.output h).of_ok ran
  have framed := setup.framed_execute budget tree s w here.there
  rw [ran] at framed
  cases framed with
  | ok altered there _ => exact ⟨κ', up, ⟨world, there, held⟩, altered.size⟩

theorem after_condition {env : EnvRef} {test : Ast} {b : Bool} (here : p.AtState κ s w)
    (place : env < w.size) (h : p.tree test)
    (ran : (setup.condition budget env test).run w = .ok b v) :
    ∃ κ', κ ≤ κ' ∧ p.AtState κ' s v ∧ w.size ≤ v.size := by
  obtain ⟨κ', up, -, world⟩ := (laws.toKept.condition budget here.world place h).of_ok ran
  have grown := World.size_le ((setup.grows_condition budget env test).le_of_ok ran)
  exact ⟨κ', up, ⟨world, Nat.lt_of_lt_of_le here.there grown, laws.value_mono up here.output⟩,
    grown⟩

theorem at_evaluation {visit : Visit} {x : Evaluation} (here : p.AtVisit statement κ visit)
    (started : visit.evaluation? budget.calls = some x) : p.At κ x := by
  cases here with
  | condition world there h =>
    cases started
    exact ⟨world, there, h⟩
  | @statement tree s w here h =>
    have form := laws.statement h
    cases tree with
    | variableDeclaration id part =>
      cases started
      cases form with
      | variableDeclaration _ part => exact ⟨here.world, here.there, part.2⟩
      | other none => cases none
    | assignment id part =>
      cases started
      cases form with
      | assignment _ part => exact ⟨here.world, here.there, part.2⟩
      | other none => cases none
    | printStatement part =>
      cases started
      cases form with
      | printStatement part => exact ⟨here.world, here.there, part.2⟩
      | other none => cases none
    | _ => cases started

theorem at_repeatVisits {test body : Ast} {env : EnvRef} (checked : p.tree test)
    (whole : statement body)
    (each : ∀ κ s w, p.AtState κ s w → ∀ visit ∈ setup.visits budget body s w,
      ∃ κ', κ ≤ κ' ∧ p.AtVisit statement κ' visit)
    (iterations : Nat) (here : p.AtState κ s w) (place : env < w.size) :
    ∀ visit ∈ repeatVisits (.condition test env) (setup.condition budget env test)
        (setup.execute budget body) (setup.visits budget body) iterations s w,
      ∃ κ', κ ≤ κ' ∧ p.AtVisit statement κ' visit := by
  induction iterations generalizing κ s w with
  | zero => exact fun _ listed => nomatch listed
  | succ iterations ih =>
    intro visit listed
    rw [repeatVisits] at listed
    rcases List.mem_cons.mp listed with rfl | listed
    · exact ⟨κ, le_refl κ, .condition here.world place checked⟩
    cases ran : (setup.condition budget env test).run w with
    | error e v =>
      rw [ran] at listed
      cases listed
    | ok again v =>
      rw [ran] at listed
      obtain ⟨κ₁, up₁, before, grown⟩ := laws.after_condition here place checked ran
      cases again with
      | false => cases listed
      | true =>
        rcases List.mem_append.mp listed with inside | later
        · obtain ⟨κ₂, up₂, found⟩ := each κ₁ s v before visit inside
          exact ⟨κ₂, le_trans up₁ up₂, found⟩
        · cases executed : (setup.execute budget body s).run v with
          | error e u =>
            rw [executed] at later
            cases later
          | ok t u =>
            rw [executed] at later
            obtain ⟨κ₂, up₂, after, grown'⟩ := laws.after_execute before whole executed
            have place' := Nat.lt_of_lt_of_le place (Nat.le_trans grown grown')
            obtain ⟨κ₃, up₃, found⟩ := ih after place' visit later
            exact ⟨κ₃, le_trans up₁ (le_trans up₂ up₃), found⟩

omit laws

mutual

theorem at_visits (laws : p.KeptThroughout statement setup) (tree : Ast) (h : statement tree)
    (κ : Stage) (s : State) (w : DynamicScope.World) (here : p.AtState κ s w) :
    ∀ visit ∈ setup.visits budget tree s w, ∃ κ', κ ≤ κ' ∧ p.AtVisit statement κ' visit := by
  have alone : ∀ visit ∈ [Visit.statement tree s w],
      ∃ κ', κ ≤ κ' ∧ p.AtVisit statement κ' visit := by
    intro visit listed
    obtain rfl := List.mem_singleton.mp listed
    exact ⟨κ, le_refl κ, .statement here h⟩
  have form := laws.statement h
  cases tree with
  | whileStatement test body =>
    rw [Setup.visits]
    cases form with
    | whileStatement checked whole =>
      exact laws.at_repeatVisits checked.2 whole.2 (fun κ s w => laws.at_visits body whole.2 κ s w)
        budget.iterations here here.there
    | other none => cases none
  | block statements =>
    rw [Setup.visits]
    cases form with
    | block parts => exact laws.at_partVisits statements parts κ s w here
    | other none => cases none
  | _ => exact alone

theorem at_partVisits (laws : p.KeptThroughout statement setup) (tree : Ast)
    (h : p.likeness.Parts (fun t t' => t = t' ∧ statement t) .notAStatement tree tree) (κ : Stage)
    (s : State) (w : DynamicScope.World) (here : p.AtState κ s w) :
    ∀ visit ∈ setup.partVisits budget tree s w, ∃ κ', κ ≤ κ' ∧ p.AtVisit statement κ' visit := by
  cases tree with
  | list items =>
    rw [Setup.partVisits]
    exact laws.at_allVisits items (each_of_parts h) κ s w here
  | _ => exact fun _ listed => nomatch listed

theorem at_allVisits (laws : p.KeptThroughout statement setup) (items : List Ast)
    (h : ∀ item ∈ items, statement item) (κ : Stage) (s : State) (w : DynamicScope.World) (here : p.AtState κ s w) :
    ∀ visit ∈ setup.allVisits budget items s w, ∃ κ', κ ≤ κ' ∧ p.AtVisit statement κ' visit := by
  cases items with
  | nil => exact fun _ listed => nomatch listed
  | cons item items =>
    obtain ⟨head, tail⟩ := List.forall_mem_cons.mp h
    intro visit listed
    rw [Setup.allVisits] at listed
    rcases List.mem_append.mp listed with inside | later
    · exact laws.at_visits item head κ s w here visit inside
    · cases ran : (setup.execute budget item s).run w with
      | error e v =>
        rw [ran] at later
        cases later
      | ok t v =>
        rw [ran] at later
        obtain ⟨κ₁, up₁, after, -⟩ := laws.after_execute here head ran
        obtain ⟨κ₂, up₂, found⟩ := laws.at_allVisits items tail κ₁ t v after visit later
        exact ⟨κ₂, le_trans up₁ up₂, found⟩

end

end KeptThroughout

end Invariant

end DynamicScope
