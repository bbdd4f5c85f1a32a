import DynamicScope.Proofs.Soundness.Remainder
import DynamicScope.Run.Program

/-! How runs of well-formed programs end.
Such a run prints values, fails with an error of the language, uses up what it is allowed, or takes a
remainder that is undefined. Nothing else in it can fail. -/

namespace DynamicScope

open Machine Ast

/-- Whether an undefined remainder is taken in an evaluation that one of the visits starts. -/
def Setup.VisitsReach (setup : Setup) (calls : Nat) (visits : List Visit) : Prop :=
  ∃ visit ∈ visits, ∃ x, visit.evaluation? calls = some x ∧ setup.ReachesUndefinedRemainder x

namespace Setup

structure SoundAt (s : State) (w : World) : Prop where
  world : w.Sound
  there : s.env < w.size
  output : s.output.array.Sound

variable {budget : Budget} {s t : State} {w v u : World}

theorem SoundAt.atState (sound : SoundAt s w) : (soundness World).AtState w s w :=
  ⟨sound.world.invariant, sound.there, sound.output⟩

theorem SoundAt.execute {tree : Ast} (sound : SoundAt s w) (h : IsStatement tree)
    (ran : (bare.execute budget tree s).run w = .ok t u) : SoundAt t u ∧ w.size ≤ u.size := by
  obtain ⟨_, _, here, grown⟩ := Soundness.keptThroughout.after_execute sound.atState h ran
  exact ⟨⟨here.world.bound, here.there, here.output⟩, grown⟩

theorem SoundAt.condition {env : EnvRef} {test : Ast} {b : Bool} (sound : SoundAt s w)
    (place : env < w.size) (h : IsExpression test)
    (ran : (bare.condition budget env test).run w = .ok b u) : SoundAt s u ∧ w.size ≤ u.size := by
  obtain ⟨_, _, here, grown⟩ := Soundness.keptThroughout.after_condition sound.atState place h ran
  exact ⟨⟨here.world.bound, here.there, here.output⟩, grown⟩

theorem visitsReach_of_evaluate {visit : Visit} {env : EnvRef} {part : Ast} (calls : Nat)
    (starts : visit.evaluation? calls = some ⟨calls, env, part, w⟩) (sound : w.Sound)
    (there : env < w.size) (h : IsExpression part)
    (failed : (bare.evaluate calls env part).run w = .error (.number .remainderUndefined) u) :
    bare.VisitsReach calls [visit] :=
  ⟨visit, List.mem_singleton.mpr rfl, _, starts, reaches_of_evaluate calls sound there h failed⟩

theorem VisitsReach.of_subset {visits visits' : List Visit} {calls : Nat}
    (h : bare.VisitsReach calls visits) (more : ∀ visit ∈ visits, visit ∈ visits') :
    bare.VisitsReach calls visits' := by
  obtain ⟨visit, listed, found⟩ := h
  exact ⟨visit, more visit listed, found⟩

theorem not_undefined_of_declare {id : Ast} {name : Text} {value : Value} (same : id = named name) :
    (s.declare id value).run w ≠ .error (.number .remainderUndefined) u := by
  subst same
  nofun

theorem visitsReach_of_condition {env : EnvRef} {test : Ast} (sound : SoundAt s w)
    (place : env < w.size) (h : IsExpression test)
    (failed : (bare.condition budget env test).run w = .error (.number .remainderUndefined) u) :
    bare.VisitsReach budget.calls [.condition test env w] := by
  unfold condition at failed
  rcases of_bind_error failed with failed | ⟨a, v, ran, failed⟩
  · exact visitsReach_of_evaluate budget.calls rfl sound.world place h failed
  obtain ⟨held, -⟩ := sound_of_evaluate sound.world place h ran
  rw [run_record_bare_bind (by decide)] at failed
  exact absurd (of_lift_error failed) (not_undefined_of_isFault (Value.isTrue_soundly held))

theorem visitsReach_of_repeatWhile {env : EnvRef} {test body : Ast} (h : IsExpression test)
    (whole : IsStatement body)
    (each : ∀ s w u, SoundAt s w →
      (bare.execute budget body s).run w = .error (.number .remainderUndefined) u →
      bare.VisitsReach budget.calls (bare.visits budget body s w))
    (iterations : Nat) (sound : SoundAt s w) (place : env < w.size)
    (failed : (repeatWhile (bare.condition budget env test) (bare.execute budget body)
      iterations s).run w = .error (.number .remainderUndefined) u) :
    bare.VisitsReach budget.calls (repeatVisits (.condition test env)
      (bare.condition budget env test) (bare.execute budget body) (bare.visits budget body)
      iterations s w) := by
  induction iterations generalizing s w with
  | zero => cases failed
  | succ iterations ih =>
    rw [repeatWhile] at failed
    rw [repeatVisits]
    rcases of_bind_error failed with failed | ⟨again, v, checked, failed⟩
    · exact (visitsReach_of_condition sound place h failed).of_subset (by simp)
    obtain ⟨sound', grown⟩ := sound.condition place h checked
    cases again with
    | false => cases failed
    | true =>
      rw [checked]
      rcases of_bind_error failed with failed | ⟨t, v', ran, failed⟩
      · exact (each s v u sound' failed).of_subset (by simp +contextual)
      · obtain ⟨sound'', grown'⟩ := sound'.execute whole ran
        have later := ih sound'' (Nat.lt_of_lt_of_le place (Nat.le_trans grown grown')) failed
        simp only [ran]
        exact later.of_subset (by simp +contextual)

mutual

theorem visitsReach_of_execute (tree : Ast) (h : IsStatement tree) (s : State) (w u : World)
    (sound : SoundAt s w)
    (failed : (bare.execute budget tree s).run w = .error (.number .remainderUndefined) u) :
    bare.VisitsReach budget.calls (bare.visits budget tree s w) := by
  cases h with
  | variableDeclaration name part =>
    rw [execute] at failed
    rcases of_bind_error failed with failed | ⟨_, v, -, failed⟩
    · exact visitsReach_of_evaluate budget.calls rfl sound.world sound.there part failed
    rw [run_record_bare_bind (by decide)] at failed
    exact absurd failed (not_undefined_of_declare rfl)
  | functionDeclaration name parameters body =>
    rw [execute] at failed
    rcases of_bind_error failed with failed | ⟨_, v, -, failed⟩
    · cases failed
    rw [run_record_bare_bind (by decide)] at failed
    exact absurd failed (not_undefined_of_declare rfl)
  | assignment name part =>
    rw [execute] at failed
    rcases of_bind_error failed with failed | ⟨_, v, -, failed⟩
    · exact visitsReach_of_evaluate budget.calls rfl sound.world sound.there part failed
    rcases of_bind_error failed with failed | ⟨_, v, ran, failed⟩
    · cases of_lift_error failed
    obtain ⟨same, -⟩ := of_lift_ok ran
    cases same
    rcases of_bind_error failed with failed | ⟨_, v, -, failed⟩
    · rw [run_assign] at failed
      dsimp only [Name.ofJson?] at failed
      split at failed <;> cases failed
    rw [run_record_bare_bind (by decide)] at failed
    cases failed
  | printStatement part =>
    rw [execute] at failed
    rcases of_bind_error failed with failed | ⟨_, v, -, failed⟩
    · exact visitsReach_of_evaluate budget.calls rfl sound.world sound.there part failed
    rw [run_record_bare_bind (by decide)] at failed
    cases failed
  | @whileStatement test statements checked whole =>
    rw [execute] at failed
    rw [visits]
    have body : IsStatement (.block (.list statements)) := .block whole
    exact visitsReach_of_repeatWhile checked body
      (fun s w u => visitsReach_of_execute (.block (.list statements)) body s w u) budget.iterations
      sound sound.there failed
  | @block statements whole =>
    rw [execute, executeParts] at failed
    rw [visits, partVisits]
    exact visitsReach_of_executeAll statements whole s w u sound failed

theorem visitsReach_of_executeAll (items : List Ast) (h : ∀ item ∈ items, IsStatement item)
    (s : State) (w u : World) (sound : SoundAt s w)
    (failed : (bare.executeAll budget items s).run w = .error (.number .remainderUndefined) u) :
    bare.VisitsReach budget.calls (bare.allVisits budget items s w) := by
  cases items with
  | nil => cases failed
  | cons item items =>
    obtain ⟨head, tail⟩ := List.forall_mem_cons.mp h
    rw [executeAll] at failed
    rw [allVisits]
    rcases of_bind_error failed with failed | ⟨t, v, ran, failed⟩
    · exact (visitsReach_of_execute item head s w u sound failed).of_subset (by simp +contextual)
    · have later := visitsReach_of_executeAll items tail t v u (sound.execute head ran).1 failed
      rw [ran]
      exact later.of_subset (by simp +contextual)

end

def start (setup : Setup) : Machine State := do
  let env ← setup.initialEnvironment
  return ⟨env, ⟨← freshIdentity, []⟩⟩

theorem sound_of_mathBindings {first : Nat} :
    ∀ entry ∈ mathBindings first, entry.2.Sound := by
  simp [mathBindings, MathFunction.all, MathFunction.value, Value.double, Value.Sound]

theorem soundAt_start : ∃ s w, bare.start.run bare.startWorld = .ok s w ∧ SoundAt s w := by
  refine ⟨_, _, rfl, fun env there => ?_, by decide, trivial⟩
  obtain rfl := Nat.lt_one_iff.mp there
  exact sound_of_mathBindings

theorem runProgram_bare (budget : Budget) (body : Ast) :
    (bare.runProgram budget (.program body)).run bare.startWorld =
      (do
        let s ← bare.start
        let t ← bare.execute budget body s
        return t.output.values : Machine (List Value)).run bare.startWorld := rfl

/-- A run of a well-formed program without native functions and without a trace prints values, uses
up what it is allowed, or fails with an error of the language or an undefined remainder. It fails
with the latter only if it takes a remainder of an infinite number by one that is neither zero nor
NaN. -/
theorem run_wellFormed (budget : Budget) {program : Ast} (h : IsProgram program) :
    (∃ values, (bare.run budget program).result = .ok values) ∨
    (bare.run budget program).result = .error .exhausted ∨
    (∃ f, (bare.run budget program).result = .error (.fault f)) ∨
    (bare.run budget program).result = .error (.number .remainderUndefined) ∧
      ∃ body s w, program.block? = .ok body ∧ bare.start.run bare.startWorld = .ok s w ∧
        bare.VisitsReach budget.calls (bare.visits budget body s w) := by
  obtain ⟨whole⟩ := h
  obtain ⟨s, w, started, sound⟩ := soundAt_start
  rw [run, runProgram_bare, EStateM.run_bind, started]
  dsimp only
  rw [EStateM.run_bind]
  have kept := Soundness.keptThroughout.execute budget sound.world.invariant sound.there sound.output
    (.block whole)
  cases ran : (bare.execute budget (.block (.list _)) s).run w with
  | ok t u => exact .inl ⟨_, rfl⟩
  | error e u =>
    rw [ran] at kept
    cases kept with
    | error _ permitted _ =>
      cases permitted with
      | exhausted => exact .inr (.inl rfl)
      | fault f => exact .inr (.inr (.inl ⟨f, rfl⟩))
      | remainder =>
        have reached := visitsReach_of_execute _ (.block whole) s w u sound ran
        exact .inr (.inr (.inr ⟨rfl, _, s, w, rfl, rfl, reached⟩))

def infiniteRemainder : Ast :=
  let numeral (x : Double) := Ast.numeral (.scalar (.number (.double x)))
  .program (.block (.list [.printStatement (.binary (.scalar (.string "%"))
    (numeral (.infinity false)) (numeral (.infinity true)))]))

theorem run_infiniteRemainder :
    (bare.run ⟨0, 0⟩ infiniteRemainder).result = .error (.number .remainderUndefined) ∧
    ∃ body s w, infiniteRemainder.block? = .ok body ∧ bare.start.run bare.startWorld = .ok s w ∧
      bare.VisitsReach 0 (bare.visits ⟨0, 0⟩ body s w) := by
  have well : IsProgram infiniteRemainder := by
    refine .program fun s listed => ?_
    obtain rfl := List.mem_singleton.mp listed
    exact .printStatement (.binary _ (.numeral rfl) (.numeral rfl))
  have result : (bare.run ⟨0, 0⟩ infiniteRemainder).result =
      .error (.number .remainderUndefined) := rfl
  rcases run_wellFormed ⟨0, 0⟩ well with ⟨_, returned⟩ | spent | ⟨_, faulted⟩ | undefined
  · rw [result] at returned
    cases returned
  · rw [result] at spent
    cases spent
  · rw [result] at faulted
    cases faulted
  · exact undefined

end Setup

end DynamicScope
