import DynamicScope.Proofs.Run.Evaluation

/-! The evaluations that an evaluation consists of, in order.
An evaluation starts those of its parts one after another, each of them after the one before it has
returned, and ends after all of them. With what the parts start in turn this gives every evaluation
that is reached, in the order in which they end. -/

namespace DynamicScope

open Machine

namespace Machine

variable {α β : Type}

def following (m : Machine α) (w : World) (next : α → World → List β) : List β :=
  match m.run w with
  | .ok a v => next a v
  | .error _ _ => []

theorem following_of_ok {m : Machine α} {next : α → World → List β} {a : α} {w v : World}
    (ran : m.run w = .ok a v) : following m w next = next a v := by rw [following, ran]

theorem following_of_error {m : Machine α} {next : α → World → List β} {e : Failure} {w v : World}
    (ran : m.run w = .error e v) : following m w next = [] := by rw [following, ran]

theorem mem_following {m : Machine α} {next : α → World → List β} {b : β} {w : World} :
    b ∈ following m w next ↔ ∃ a v, m.run w = .ok a v ∧ b ∈ next a v := by
  cases ran : m.run w with
  | ok a v =>
    rw [following_of_ok ran]
    constructor
    · exact fun listed => ⟨a, v, rfl, listed⟩
    · rintro ⟨a', v', same, listed⟩
      cases same
      exact listed
  | error e v => simp [following_of_error ran]

theorem run_bind_of_ok {m : Machine α} {f : α → Machine β} {a : α} {w v : World}
    (ran : m.run w = .ok a v) : (m >>= f).run w = (f a).run v := by rw [EStateM.run_bind, ran]

theorem run_lookup? {env : EnvRef} {name : Json} {key : Name} (named : Name.ofJson? name = .ok key)
    (w : World) : (lookup? env name).run w = .ok ((w.store.bindings env).present? key) w := by
  rw [lookup?, named]
  rfl

theorem of_lookup?_ok {env : EnvRef} {name : Json} {f : Option Value} {w v : World}
    (h : (lookup? env name).run w = .ok f v) : w = v := by
  obtain ⟨key, u, read, h⟩ := of_bind_ok h
  obtain ⟨-, rfl⟩ := of_lift_ok read
  cases h
  rfl

theorem value?_of_lookup? {env : EnvRef} {name : Json} {f : Value} {w v : World}
    (h : (lookup? env name).run w = .ok (some f) v) :
    ∃ key, Name.ofJson? name = .ok key ∧ (w.store.bindings env).value? key = some f := by
  obtain ⟨key, u, read, h⟩ := of_bind_ok h
  obtain ⟨named, rfl⟩ := of_lift_ok read
  injection h with present
  exact ⟨key, named, Option.eq_some_of_filter_eq_some present⟩

end Machine

theorem repeatVisits_succ (check : World → Visit) (test : Machine Bool)
    (body : State → Machine State) (inside : State → World → List Visit) (iterations : Nat)
    (s : State) (w : World) :
    repeatVisits check test body inside (iterations + 1) s w =
      check w :: following test w fun again v =>
        if again then inside s v ++ following (body s) v (repeatVisits check test body inside iterations)
        else [] := by
  rw [repeatVisits, following]
  cases test.run w with
  | error e v => rfl
  | ok again v =>
    cases again with
    | false => rfl
    | true =>
      dsimp only
      rw [if_pos rfl, following]
      cases (body s).run v <;> rfl

namespace Setup

variable (setup : Setup)

theorem allVisits_cons (budget : Budget) (item : Ast) (items : List Ast) (s : State) (w : World) :
    setup.allVisits budget (item :: items) s w =
      setup.visits budget item s w ++
        following (setup.execute budget item s) w (setup.allVisits budget items) := by
  rw [allVisits, following]
  cases (setup.execute budget item s).run w <;> rfl

theorem evaluateAll_cons (calls : Nat) (env : EnvRef) (item : Ast) (items : List Ast) :
    setup.evaluateAll (setup.entering calls) env (item :: items) = (do
      let value ← setup.evaluate calls env item
      return value :: (← setup.evaluateAll (setup.entering calls) env items)) := by
  rw [evaluateAll, evaluate_eq]

theorem evaluate_unary (calls : Nat) (env : EnvRef) (operator : Json) (part : Ast) :
    setup.evaluate calls env (.unary operator part) = (do
      let a ← setup.evaluate calls env part
      lift (Value.unary operator a)) := by
  rw [evaluate_eq, evaluateWith]

theorem evaluate_binary (calls : Nat) (env : EnvRef) (operator : Json) (first second : Ast) :
    setup.evaluate calls env (.binary operator first second) = (do
      let a ← setup.evaluate calls env first
      let b ← setup.evaluate calls env second
      record setup 3 fun _ => do
        return .binary (← a.toText) (← operator.plainText) (← b.toText)
      lift (Value.binary operator a b)) := by
  rw [evaluate_eq, evaluateWith]

theorem evaluate_conditional (calls : Nat) (env : EnvRef) (test first second : Ast) :
    setup.evaluate calls env (.conditional test first second) = (do
      let a ← setup.evaluate calls env test
      let b ← lift a.isTrue
      setup.evaluate calls env (if b then first else second)) := by
  rw [evaluate_eq, evaluateWith]
  refine congrArg _ (funext fun a => congrArg _ (funext fun b => ?_))
  cases b <;> rfl

theorem evaluate_subscript (calls : Nat) (env : EnvRef) (array index : Ast) :
    setup.evaluate calls env (.subscript array index) = (do
      let a ← setup.evaluate calls env array
      let b ← setup.evaluate calls env index
      lift (Value.subscript a b)) := by
  rw [evaluate_eq, evaluateWith]

theorem run_arrayLiteral (calls : Nat) (env : EnvRef) (elements : Ast) (w : World) :
    (setup.evaluate calls env (.arrayLiteral elements)).run w =
      match (setup.evaluateParts (setup.entering calls) env elements).run w with
      | .ok vs v => .ok (.array v.nextIdentity vs) { v with nextIdentity := v.nextIdentity + 1 }
      | .error e v => .error e v := by
  rw [evaluate_eq, evaluateWith, EStateM.run_bind]
  cases (setup.evaluateParts (setup.entering calls) env elements).run w <;> rfl

def entrance (name : Json) (parameters : Ast) (vs : List Value) (env : EnvRef) : Machine EnvRef := do
  Machine.record setup 2 fun _ => do return .call (← name.plainText) (← Value.toTextAll vs)
  callEnvironment name parameters vs env

theorem call_function (enter : BodyEvaluator) (name : Json) (i : Nat) (parameters body : Ast)
    (vs : List Value) (env : EnvRef) :
    setup.call enter name (.function i parameters body) vs env =
      setup.entrance name parameters vs env >>= fun inner => enter inner body := by
  rw [entrance, bind_assoc]
  rfl

def itemParts (calls : Nat) (env : EnvRef) : List Ast → World → List Evaluation
  | [], _ => []
  | item :: items, w =>
    ⟨calls, env, item, w⟩ ::
      following (setup.evaluate calls env item) w fun _ v => itemParts calls env items v

def listParts (calls : Nat) (env : EnvRef) : Ast → World → List Evaluation
  | .list items, w => setup.itemParts calls env items w
  | _, _ => []

def bodyParts (name : Json) (env : EnvRef) (vs : List Value) :
    Nat → Option Value → World → List Evaluation
  | calls + 1, some (.function _ parameters body), w =>
    following (setup.entrance name parameters vs env) w fun inner u => [⟨calls, inner, body, u⟩]
  | _, _, _ => []

/-- The evaluations that an evaluation starts itself, in order. -/
def parts : Evaluation → List Evaluation
  | ⟨calls, env, .unary _ part, w⟩ => [⟨calls, env, part, w⟩]
  | ⟨calls, env, .binary _ first second, w⟩ =>
    ⟨calls, env, first, w⟩ ::
      following (setup.evaluate calls env first) w fun _ v => [⟨calls, env, second, v⟩]
  | ⟨calls, env, .conditional test first second, w⟩ =>
    ⟨calls, env, test, w⟩ :: following (setup.evaluate calls env test) w fun a v =>
      following (lift a.isTrue) v fun b u => [⟨calls, env, if b then first else second, u⟩]
  | ⟨calls, env, .arrayLiteral elements, w⟩ => setup.listParts calls env elements w
  | ⟨calls, env, .subscript array index, w⟩ =>
    ⟨calls, env, array, w⟩ ::
      following (setup.evaluate calls env array) w fun _ v => [⟨calls, env, index, v⟩]
  | ⟨calls, env, .call callee args, w⟩ =>
    -- The function is looked up before the arguments are evaluated.
    following (lift callee.name?) w fun name w =>
      following (lookup? env name) w fun f w =>
        setup.listParts calls env args w ++
          following (setup.evaluateParts (setup.entering calls) env args) w fun vs v =>
            setup.bodyParts name env vs calls f v
  | _ => []

variable {setup}

theorem mem_itemParts {calls : Nat} {env : EnvRef} {items : List Ast} {w : World} {y : Evaluation} :
    y ∈ setup.itemParts calls env items w ↔ ∃ before item later vs v,
      items = before ++ item :: later ∧
      (setup.evaluateAll (setup.entering calls) env before).run w = .ok vs v ∧
      y = ⟨calls, env, item, v⟩ := by
  induction items generalizing w with
  | nil => simp [itemParts]
  | cons first rest ih =>
    rw [itemParts, List.mem_cons, mem_following]
    constructor
    · rintro (rfl | ⟨a, v, ran, listed⟩)
      · exact ⟨[], first, rest, [], w, rfl, rfl, rfl⟩
      · obtain ⟨before, item, later, vs, u, rfl, ran', rfl⟩ := ih.mp listed
        refine ⟨first :: before, item, later, a :: vs, u, rfl, ?_, rfl⟩
        rw [evaluateAll_cons, run_bind_of_ok ran, run_bind_of_ok ran']
        rfl
    · rintro ⟨before, item, later, vs, v, same, ran, rfl⟩
      cases before with
      | nil =>
        cases same
        cases ran
        exact .inl rfl
      | cons _ before =>
        cases same
        rw [evaluateAll_cons] at ran
        obtain ⟨a, u, started, ran⟩ := of_bind_ok ran
        obtain ⟨vs', _, ran, returned⟩ := of_bind_ok ran
        cases returned
        exact .inr ⟨a, u, started, ih.mpr ⟨before, item, later, vs', v, rfl, ran, rfl⟩⟩

theorem mem_listParts {calls : Nat} {env : EnvRef} {tree : Ast} {w : World} {y : Evaluation} :
    y ∈ setup.listParts calls env tree w ↔ ∃ before item later vs v,
      tree = .list (before ++ item :: later) ∧
      (setup.evaluateAll (setup.entering calls) env before).run w = .ok vs v ∧
      y = ⟨calls, env, item, v⟩ := by
  cases tree with
  | list items => simp only [listParts, mem_itemParts, Ast.list.injEq]
  | _ => simp [listParts]

theorem mem_bodyParts {name : Json} {env : EnvRef} {vs : List Value} {calls : Nat}
    {f : Option Value} {w : World} {y : Evaluation} :
    y ∈ setup.bodyParts name env vs calls f w ↔ ∃ fewer i parameters body inner u,
      calls = fewer + 1 ∧ f = some (.function i parameters body) ∧
      (setup.entrance name parameters vs env).run w = .ok inner u ∧ y = ⟨fewer, inner, body, u⟩ := by
  constructor
  · intro listed
    unfold bodyParts at listed
    split at listed
    · obtain ⟨inner, u, entered, listed⟩ := mem_following.mp listed
      obtain rfl := List.mem_singleton.mp listed
      exact ⟨_, _, _, _, inner, u, rfl, rfl, entered, rfl⟩
    · cases listed
  · rintro ⟨fewer, i, parameters, body, inner, u, rfl, rfl, entered, rfl⟩
    exact mem_following.mpr ⟨inner, u, entered, .head _⟩

theorem mem_parts {x y : Evaluation} : y ∈ setup.parts x ↔ setup.Starts x y := by
  constructor
  · intro listed
    unfold parts at listed
    split at listed
    · obtain rfl := List.mem_singleton.mp listed
      exact .operand
    · rcases List.mem_cons.mp listed with rfl | listed
      · exact .left
      · obtain ⟨a, v, ran, listed⟩ := mem_following.mp listed
        obtain rfl := List.mem_singleton.mp listed
        exact .right ran
    · rcases List.mem_cons.mp listed with rfl | listed
      · exact .test
      · obtain ⟨a, v, ran, listed⟩ := mem_following.mp listed
        obtain ⟨b, u, truth, listed⟩ := mem_following.mp listed
        obtain rfl := List.mem_singleton.mp listed
        obtain ⟨decided, rfl⟩ := of_lift_ok truth
        exact .chosen ran decided
    · obtain ⟨before, item, later, vs, v, rfl, ran, rfl⟩ := mem_listParts.mp listed
      exact .element ran
    · rcases List.mem_cons.mp listed with rfl | listed
      · exact .array
      · obtain ⟨a, v, ran, listed⟩ := mem_following.mp listed
        obtain rfl := List.mem_singleton.mp listed
        exact .index ran
    · obtain ⟨name, v, answered, listed⟩ := mem_following.mp listed
      obtain ⟨named, rfl⟩ := of_lift_ok answered
      obtain ⟨f, v, found, listed⟩ := mem_following.mp listed
      obtain rfl := of_lookup?_ok found
      rcases List.mem_append.mp listed with listed | listed
      · obtain ⟨before, item, later, vs, v, rfl, ran, rfl⟩ := mem_listParts.mp listed
        exact .argument named found ran
      · obtain ⟨vs, v, given, listed⟩ := mem_following.mp listed
        obtain ⟨fewer, i, parameters, body, inner, u, rfl, rfl, entered, rfl⟩ :=
          mem_bodyParts.mp listed
        exact .body named found given entered
    · cases listed
  · intro started
    cases started with
    | operand => exact .head _
    | left => exact .head _
    | right before => exact .tail _ (mem_following.mpr ⟨_, _, before, .head _⟩)
    | test => exact .head _
    | chosen before truth =>
      refine .tail _ (mem_following.mpr ⟨_, _, before, mem_following.mpr ⟨_, _, ?_, .head _⟩⟩)
      rw [truth]
      rfl
    | element before => exact mem_listParts.mpr ⟨_, _, _, _, _, rfl, before, rfl⟩
    | array => exact .head _
    | index before => exact .tail _ (mem_following.mpr ⟨_, _, before, .head _⟩)
    | argument named found before =>
      rw [parts, named]
      refine mem_following.mpr ⟨_, _, rfl, mem_following.mpr ⟨_, _, found, ?_⟩⟩
      exact List.mem_append_left _ (mem_listParts.mpr ⟨_, _, _, _, _, rfl, before, rfl⟩)
    | body named found given entered =>
      rw [parts, named]
      refine mem_following.mpr ⟨_, _, rfl, mem_following.mpr ⟨_, _, found, ?_⟩⟩
      refine List.mem_append_right _ (mem_following.mpr ⟨_, _, given, ?_⟩)
      exact mem_bodyParts.mpr ⟨_, _, _, _, _, _, rfl, rfl, entered, rfl⟩

theorem Starts.decreases {x y : Evaluation} (h : setup.Starts x y) :
    Prod.Lex (· < ·) (· < ·) (y.calls, sizeOf y.tree) (x.calls, sizeOf x.tree) := by
  cases h with
  | body => exact .left _ _ (Nat.lt_succ_self _)
  | @chosen _ _ _ _ _ _ b =>
    refine .right _ ?_
    cases b with
    | true | false =>
      simp only [if_true, Bool.false_eq_true, if_false, Ast.conditional.sizeOf_spec]
      omega
  | @element _ _ items later item | @argument _ _ _ items later item =>
    have inside : sizeOf item < sizeOf (items ++ item :: later) := List.sizeOf_lt_of_mem (by simp)
    refine .right _ ?_
    simp only [Ast.arrayLiteral.sizeOf_spec, Ast.call.sizeOf_spec, Ast.list.sizeOf_spec]
    omega
  | _ =>
    refine .right _ ?_
    simp only [Ast.unary.sizeOf_spec, Ast.binary.sizeOf_spec, Ast.conditional.sizeOf_spec,
      Ast.subscript.sizeOf_spec]
    omega

/-- The evaluations in the course of an evaluation, in the order in which they end. -/
def evaluations (setup : Setup) (x : Evaluation) : List Evaluation :=
  ((setup.parts x).attach.flatMap fun y => evaluations setup y.1) ++ [x]
termination_by (x.calls, sizeOf x.tree)
decreasing_by exact (mem_parts.mp y.2).decreases

theorem evaluations_eq (x : Evaluation) :
    setup.evaluations x = (setup.parts x).flatMap setup.evaluations ++ [x] := by
  rw [evaluations, List.flatMap_subtype fun _ _ => rfl, List.unattach_attach]

theorem inductionOnParts {motive : Evaluation → Prop} (setup : Setup)
    (step : ∀ x, (∀ y ∈ setup.parts x, motive y) → motive x) (x : Evaluation) : motive x := by
  induction x using evaluations.induct setup with
  | case1 x ih => exact step x fun y listed => ih ⟨y, listed⟩

theorem mem_evaluations {x y : Evaluation} :
    y ∈ setup.evaluations x ↔ Relation.ReflTransGen setup.Starts x y := by
  induction x using inductionOnParts setup with
  | step x ih =>
    rw [evaluations_eq, List.mem_append, List.mem_flatMap, List.mem_singleton]
    constructor
    · rintro (⟨part, listed, inside⟩ | rfl)
      · exact .head (mem_parts.mp listed) ((ih part listed).mp inside)
      · exact .refl
    · intro path
      rcases Relation.ReflTransGen.cases_head path with rfl | ⟨part, started, rest⟩
      · exact .inr rfl
      · have listed := mem_parts.mpr started
        exact .inl ⟨part, listed, (ih part listed).mpr rest⟩

end Setup

end DynamicScope
