import DynamicScope.Proofs.Loop.Frozen
import DynamicScope.Proofs.Tracking.Value

/-! Execution without environments to share.
Statements are followed through bindings alone: those that are current, and those that the
statement was entered with. The latter follow the former through every assignment until the first
declaration; from then on they are left as they are. A loop checks its condition in the bindings it
was entered with, tracked from its own start. Executing a statement in an environment comes to the
same, so nothing can be seen of an environment that is held in several places but this. -/

namespace DynamicScope

/-- Where a statement leads from the bindings it is entered with. -/
structure Course where
  /-- The bindings that the next statement goes on with. -/
  current : Bindings
  output : Output
  /-- The entry bindings as the first declaration left them; none as long as there was none. -/
  left : Option Bindings

namespace Course

/-- What has become of the bindings that the statement was entered with. -/
def entry (c : Course) : Bindings := c.left.getD c.current

def andThen (first second : Course) : Course :=
  ⟨second.current, second.output, first.left.or second.left⟩

end Course

def Bindings.assign (b : Bindings) (name : Json) (value : Value) : Except Failure Bindings := do
  let key ← Name.ofJson? name
  if b.binds key then return b.insert key value
  else Value.fault (.assignmentToUndeclared name)

def trackWhile (test : Bindings → Supplied Bool) (body : Bindings → Output → Supplied Course) :
    Nat → Course → Supplied Course
  | 0, _ => throw .exhausted
  | iterations + 1, c => do
    if ← test c.entry then
      let next ← body c.current c.output
      trackWhile test body iterations (c.andThen next)
    else return c

namespace Setup

open Supplied

def truth (setup : Setup) (budget : Budget) (expression : Ast) (b : Bindings) : Supplied Bool := do
  let value ← setup.value budget.calls b expression
  record setup 3 fun _ => do return .condition (← value.toText)
  lift value.isTrue

mutual

/-- Where a statement leads from the given bindings and output. -/
def track (setup : Setup) (budget : Budget) : Ast → Bindings → Output → Supplied Course
  | .variableDeclaration id expression, b, o => do
    let value ← setup.value budget.calls b expression
    record setup 2 fun _ => do
      let name ← id.name?
      return .declaration (← name.plainText) (← value.toText)
    let key ← lift (id.name?.bind Name.ofJson?)
    return ⟨b.insert key value, o, some b⟩
  | .functionDeclaration id parameters expression, b, o => do
    let value := Value.function (← freshIdentity) parameters expression
    record setup 2 fun _ => do
      let name ← id.name?
      return .definition (← name.plainText) (← Value.functionText parameters)
    let key ← lift (id.name?.bind Name.ofJson?)
    return ⟨b.insert key value, o, some b⟩
  | .assignment id expression, b, o => do
    let value ← setup.value budget.calls b expression
    let name ← lift id.name?
    let changed ← lift (b.assign name value)
    record setup 2 fun _ => do return .assignment (← name.plainText) (← value.toText)
    return ⟨changed, o, none⟩
  | .printStatement expression, b, o => do
    let value ← setup.value budget.calls b expression
    record setup 2 fun _ => do return .print (← value.toText)
    return ⟨b, ⟨← freshIdentity, o.values ++ [value]⟩, none⟩
  | .whileStatement expression body, b, o =>
    trackWhile (setup.truth budget expression) (setup.track budget body) budget.iterations
      ⟨b, o, none⟩
  | .block statements, b, o => setup.trackParts budget statements b o
  | tree, _, _ => throw (.notAStatement tree.qualifiedClass)

def trackParts (setup : Setup) (budget : Budget) : Ast → Bindings → Output → Supplied Course
  | .list items, b, o => setup.trackAll budget items b o
  | tree, b, o => do
    lift (tree.noParts .notAStatement)
    return ⟨b, o, none⟩

def trackAll (setup : Setup) (budget : Budget) : List Ast → Bindings → Output → Supplied Course
  | [], b, o => return ⟨b, o, none⟩
  | item :: items, b, o => do
    let first ← setup.track budget item b o
    return first.andThen (← setup.trackAll budget items first.current first.output)

end

end Setup

def courseOf (s t : State) (u : World) : Course :=
  ⟨u.bindings t.env, t.output, if t.env = s.env then none else some (u.bindings s.env)⟩

theorem courseOf_entry (s t : State) (u : World) : (courseOf s t u).entry = u.bindings s.env := by
  unfold courseOf Course.entry
  by_cases same : t.env = s.env
  · rw [if_pos same, same]
    rfl
  · rw [if_neg same]
    rfl

theorem courseOf_trans {assigned : Name → Prop} {start s t : State} {w u : World} {declared : Bool}
    (place : start.env < w.size)
    (framed : Framed assigned s w declared (.ok t u)) :
    courseOf start t u = (courseOf start s w).andThen (courseOf s t u) := by
  cases framed with
  | ok altered there env =>
    unfold courseOf Course.andThen
    by_cases same : s.env = start.env
    · simp [same]
    · have kept : u.bindings start.env = w.bindings start.env :=
        altered.others _ place (Ne.symm same)
      have apart : t.env ≠ start.env := by
        cases declared with
        | true => exact Ne.symm (Nat.ne_of_lt (Nat.lt_of_lt_of_le place env))
        | false =>
          have same' : t.env = s.env := env
          rwa [same']
      simp [same, apart, kept]

theorem courseOf_of_le {s t : State} {w v : World} (h : w ≤ v) (there : s.env < w.size)
    (there' : t.env < w.size) : courseOf s t v = courseOf s t w := by
  unfold courseOf
  rw [World.bindings_eq h there, World.bindings_eq h there']

namespace Machine

/-- What is seen of an execution without environments: its course, and the supply that it leaves. -/
def tracked (s : State) : EStateM.Result Failure World State → EStateM.Result Failure Supply Course
  | .ok t u => .ok (courseOf s t u) u.supply
  | .error e u => .error e u.supply

/-- A step of bindings that does what a step from a state does wherever the environment of the state
has the given bindings. -/
def Tracks (s : State) (b : Bindings) (m : Machine State) (c : Supplied Course) : Prop :=
  ∀ w : World, s.env < w.size → w.bindings s.env = b → c.run w.supply = tracked s (m.run w)

variable {α : Type} {s : State} {b : Bindings}

theorem tracks_pure : Tracks s b (pure s) (pure ⟨b, s.output, none⟩) := by
  rintro w _ rfl
  change _ = EStateM.Result.ok (courseOf s s w) w.supply
  rw [courseOf, if_pos rfl]
  rfl

theorem tracks_after {m : Machine α} {c : Supplied α} {f : α → Machine State}
    {g : α → Supplied Course} (first : Agrees s.env b m c) (grows : Grows m)
    (rest : ∀ a, Tracks s b (f a) (g a)) : Tracks s b (m >>= f) (c >>= g) := by
  intro w there same
  rw [EStateM.run_bind, EStateM.run_bind, first w there same]
  cases ran : m.run w with
  | error e v => rfl
  | ok a v =>
    have grown := grows.le_of_ok ran
    exact rest a v (Nat.lt_of_lt_of_le there (World.size_le grown))
      ((World.bindings_eq grown there).trans same)

theorem tracks_recorded (setup : Setup) (level : Nat) (event : Unit → Except Failure Event)
    {m : Machine State} {c : Supplied Course} (rest : Tracks s b m c) :
    Tracks s b (record setup level event >>= fun _ => m)
      (Supplied.record setup level event >>= fun _ => c) :=
  tracks_after (agrees_record setup level event) (grows_record _ _ _) fun _ => rest

theorem tracks_declare (id : Ast) (value : Value) :
    Tracks s b (s.declare id value) (do
      let key ← Supplied.lift (id.name?.bind Name.ofJson?)
      return ⟨b.insert key value, s.output, some b⟩) := by
  rintro w there rfl
  unfold State.declare
  cases id.name?.bind Name.ofJson? with
  | error e => rfl
  | ok key =>
    let b' := (w.bindings s.env).insert key value
    have bound : (w.store.new b').2.bindings (w.store.new b').1 = b' :=
      Store.bindings_new_self w.store b'
    have old : (w.store.new b').2.bindings s.env = w.store.bindings s.env :=
      Store.bindings_new_of_lt w.store b' _ there
    have led : courseOf s { s with env := (w.store.new b').1 }
        { w with store := (w.store.new b').2 } = ⟨b', s.output, some (w.bindings s.env)⟩ := by
      rw [courseOf, if_neg (show (w.store.new b').1 ≠ s.env from Nat.ne_of_gt there)]
      simp only [World.bindings, bound, old]
    exact congrArg (EStateM.Result.ok · w.supply) led.symm

theorem tracks_print (value : Value) :
    Tracks s b (s.print value) (do
      return ⟨b, ⟨← Supplied.freshIdentity, s.output.values ++ [value]⟩, none⟩) := by
  rintro w _ rfl
  change _ = EStateM.Result.ok
    (courseOf s { s with output := ⟨w.nextIdentity, s.output.values ++ [value]⟩ }
      { w with nextIdentity := w.nextIdentity + 1 }) _
  rw [courseOf, if_pos rfl]
  rfl

theorem tracks_assign {f : Machine State} {g : Bindings → Supplied Course} (name : Json)
    (value : Value) (rest : ∀ b', Tracks s b' f (g b')) :
    Tracks s b (assign s.env name value >>= fun _ => f)
      (Supplied.lift (b.assign name value) >>= g) := by
  rintro w there rfl
  rw [EStateM.run_bind, EStateM.run_bind, run_assign]
  unfold Bindings.assign
  cases Name.ofJson? name with
  | error e => rfl
  | ok key =>
    by_cases bound : (w.store.bindings s.env).binds key = true
    · have changed := Store.bindings_overwrite_self w.store s.env key value there
      simp only [ok_bind, World.bindings, if_pos bound]
      exact rest _ { w with store := w.store.overwrite s.env key value }
        (by simpa [World.size] using there) changed
    · simp only [ok_bind, World.bindings, if_neg bound]
      rfl

end Machine

namespace Setup

open Machine

variable (setup : Setup) (budget : Budget)

theorem agrees_condition (env : EnvRef) (b : Bindings) (test : Ast) :
    Agrees env b (setup.condition budget env test) (setup.truth budget test b) :=
  agrees_bind (agrees_evaluate setup budget.calls test) (setup.grows_evaluate _ _ _) fun _ =>
    agrees_bind (agrees_record _ _ _) (grows_record _ _ _) fun _ => agrees_lift _

theorem tracked_repeatWhile {test body : Ast}
    (each : ∀ s w, s.env < w.size →
      (setup.track budget body (w.bindings s.env) s.output).run w.supply =
        tracked s ((setup.execute budget body s).run w))
    (start : State) (iterations : Nat) (s : State) (w : World) (place : start.env < w.size)
    (there : s.env < w.size) :
    (trackWhile (setup.truth budget test) (setup.track budget body) iterations
        (courseOf start s w)).run w.supply =
      tracked start ((repeatWhile (setup.condition budget start.env test)
        (setup.execute budget body) iterations s).run w) := by
  induction iterations generalizing s w with
  | zero => rfl
  | succ iterations ih =>
    rw [trackWhile, repeatWhile, EStateM.run_bind, EStateM.run_bind, courseOf_entry,
      setup.agrees_condition budget start.env _ test w place rfl]
    cases checked : (setup.condition budget start.env test).run w with
    | error e v => rfl
    | ok again v =>
      have grown := (setup.grows_condition budget start.env test).le_of_ok checked
      have place' := Nat.lt_of_lt_of_le place (World.size_le grown)
      have there' := Nat.lt_of_lt_of_le there (World.size_le grown)
      rw [← courseOf_of_le grown place there]
      cases again with
      | false => rfl
      | true =>
        simp only [supplied, if_true]
        rw [EStateM.run_bind, EStateM.run_bind]
        have executed := each s v there'
        have framed := setup.framed_execute budget body s v there'
        change (setup.track budget body (courseOf start s v).current
          (courseOf start s v).output).run v.supply = _ at executed
        rw [executed]
        cases ran : (setup.execute budget body s).run v with
        | error e u => rfl
        | ok t u =>
          rw [ran] at framed
          have joined := courseOf_trans place' framed
          cases framed with
          | ok altered there'' _ =>
            change (trackWhile _ _ _ ((courseOf start s v).andThen (courseOf s t u))).run _ = _
            rw [← joined]
            exact ih t u (Nat.lt_of_lt_of_le place' altered.size) there''

mutual

theorem tracked_execute (tree : Ast) (s : State) (w : World) (there : s.env < w.size) :
    (setup.track budget tree (w.bindings s.env) s.output).run w.supply =
      tracked s ((setup.execute budget tree s).run w) := by
  have evaluated (expression : Ast) : Agrees s.env (w.bindings s.env)
      (setup.evaluate budget.calls s.env expression)
      (setup.value budget.calls (w.bindings s.env) expression) :=
    agrees_evaluate setup budget.calls expression
  have grows (expression : Ast) : Grows (setup.evaluate budget.calls s.env expression) :=
    setup.grows_evaluate _ _ _
  cases tree with
  | variableDeclaration id expression =>
    rw [track, execute]
    exact tracks_after (evaluated expression) (grows expression)
      (fun value => tracks_recorded _ _ _ (tracks_declare id value)) w there rfl
  | functionDeclaration id parameters expression =>
    rw [track, execute]
    exact tracks_after agrees_freshIdentity grows_freshIdentity
      (fun i => tracks_recorded _ _ _ (tracks_declare id _)) w there rfl
  | assignment id expression =>
    rw [track, execute]
    exact tracks_after (evaluated expression) (grows expression)
      (fun value => tracks_after (agrees_lift _) (grows_lift _) fun name =>
        tracks_assign name value fun b' => tracks_recorded _ _ _ tracks_pure) w there rfl
  | printStatement expression =>
    rw [track, execute]
    exact tracks_after (evaluated expression) (grows expression)
      (fun value => tracks_recorded _ _ _ (tracks_print value)) w there rfl
  | whileStatement test body =>
    have start : courseOf s s w = ⟨w.bindings s.env, s.output, none⟩ := by
      rw [courseOf, if_pos rfl]
    rw [track, execute, ← start]
    exact setup.tracked_repeatWhile budget (tracked_execute body) s _ s w there there
  | block statements =>
    rw [track, execute]
    exact tracked_executeParts statements s w there
  | _ => rfl

theorem tracked_executeParts (tree : Ast) (s : State) (w : World) (there : s.env < w.size) :
    (setup.trackParts budget tree (w.bindings s.env) s.output).run w.supply =
      tracked s ((setup.executeParts budget tree s).run w) := by
  by_cases listed : ∃ items, tree = .list items
  · obtain ⟨items, rfl⟩ := listed
    rw [trackParts, executeParts]
    exact tracked_executeAll items s w there
  · have other : ∀ items, tree ≠ .list items := fun items same => listed ⟨items, same⟩
    rw [setup.executeParts_of_ne_list _ other, trackParts]
    · exact tracks_after (agrees_lift _) (grows_lift _) (fun _ => tracks_pure) w there rfl
    · exact other

theorem tracked_executeAll (items : List Ast) (s : State) (w : World) (there : s.env < w.size) :
    (setup.trackAll budget items (w.bindings s.env) s.output).run w.supply =
      tracked s ((setup.executeAll budget items s).run w) := by
  cases items with
  | nil => exact tracks_pure w there rfl
  | cons item items =>
    have framed := setup.framed_execute budget item s w there
    rw [trackAll, executeAll, EStateM.run_bind, EStateM.run_bind, tracked_execute item s w there]
    cases ran : (setup.execute budget item s).run w with
    | error e v => rfl
    | ok t v =>
      rw [ran] at framed
      cases framed with
      | ok altered there' _ =>
        have rest := tracked_executeAll items t v there'
        have framed' := setup.framed_executeAll budget items t v there'
        change EStateM.run
            (setup.trackAll budget items (v.bindings t.env) t.output >>= fun second =>
              pure ((courseOf s t v).andThen second)) v.supply =
          tracked s ((setup.executeAll budget items t).run v)
        rw [EStateM.run_bind, rest]
        cases ended : (setup.executeAll budget items t).run v with
        | error e u => rfl
        | ok t' u =>
          rw [ended] at framed'
          have joined := courseOf_trans (Nat.lt_of_lt_of_le there altered.size) framed'
          exact congrArg (EStateM.Result.ok · u.supply) joined.symm

end

/-- Executing a statement in an environment and following it through the bindings of the environment
agree. Either both return, with the same output, and the environment that the execution goes on with
has the current bindings while the one it was given has the entry bindings; or both fail alike. A
failure may be that the budget is exhausted, so one of them runs for ever if and only if the other
does. -/
theorem execute_track (tree : Ast) (s : State) (w : World) (there : s.env < w.size) :
    (∀ budget,
      (∃ t u c, (setup.execute budget tree s).run w = .ok t u ∧
        (setup.track budget tree (w.bindings s.env) s.output).run w.supply = .ok c u.supply ∧
        t.output = c.output ∧ u.bindings t.env = c.current ∧ u.bindings s.env = c.entry) ∨
      ∃ e u, (setup.execute budget tree s).run w = .error e u ∧
        (setup.track budget tree (w.bindings s.env) s.output).run w.supply = .error e u.supply) ∧
    ((∀ budget, ∃ u, (setup.execute budget tree s).run w = .error .exhausted u) ↔
      ∀ budget, ∃ x, (setup.track budget tree (w.bindings s.env) s.output).run w.supply =
        .error .exhausted x) := by
  have agree (budget) := setup.tracked_execute budget tree s w there
  refine ⟨fun budget => ?_, forall_congr' fun budget => ?_⟩
  · rw [agree budget]
    cases (setup.execute budget tree s).run w with
    | ok t u =>
      exact .inl ⟨t, u, courseOf s t u, rfl, rfl, rfl, rfl, (courseOf_entry s t u).symm⟩
    | error e u => exact .inr ⟨e, u, rfl, rfl⟩
  · rw [agree budget]
    cases (setup.execute budget tree s).run w with
    | ok t u => exact ⟨fun ⟨_, same⟩ => (nomatch same), fun ⟨_, same⟩ => (nomatch same)⟩
    | error e u =>
      constructor
      · rintro ⟨_, same⟩
        cases same
        exact ⟨_, rfl⟩
      · rintro ⟨_, same⟩
        cases same
        exact ⟨_, rfl⟩

def renewing : Ast :=
  .block (.list [declareAfter false, .assignment asserted (.booleanLiteral true)])

theorem execute_track_renewing : ∃ (t : State) (u : World) (c : Course),
    (packing.execute ⟨0, 9⟩ (.whileStatement asserted renewing) ⟨0, ⟨0, []⟩⟩).run asserting =
      .ok t u ∧
    (packing.track ⟨0, 9⟩ (.whileStatement asserted renewing) (asserting.bindings 0) ⟨0, []⟩).run
      asserting.supply = .ok c u.supply ∧
    u.bindings 0 = c.entry ∧ c.entry = [(.ofString "c", .boolean false)] ∧
    u.bindings t.env = c.current ∧
    c.current = [(.ofString "c", .boolean true), (.ofString "x", .boolean true)] := by
  have agree := (execute_track packing (.whileStatement asserted renewing) ⟨0, ⟨0, []⟩⟩ asserting
    (by decide)).1 ⟨0, 9⟩
  obtain ⟨t, u, c, ran, tracked, -, current, entry⟩ | ⟨e, u, failed, -⟩ := agree
  · have led := tracked
    injection led with same _
    exact ⟨t, u, c, ran, tracked, entry, same ▸ rfl, current, same ▸ rfl⟩
  · injection failed

end Setup

end DynamicScope
