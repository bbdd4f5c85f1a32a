import DynamicScope.Proofs.Simulation.Points
import DynamicScope.Proofs.Soundness.Kept

/-! Where an undefined remainder comes from.
No other step of a well-formed program fails as a remainder does, so such a failure of an evaluation
is that of a remainder which is taken in its course. -/

namespace DynamicScope

open Machine Ast

def World.Sound (w : World) : Prop := ∀ env < w.size, ∀ entry ∈ w.bindings env, entry.2.Sound

namespace World.Sound

variable {w : World}

theorem invariant (sound : w.Sound) : (soundness World).World w w := ⟨sound, trivial⟩

theorem new (sound : w.Sound) {b : Bindings} (given : ∀ entry ∈ b, entry.2.Sound) :
    World.Sound { w with store := (w.store.new b).2 } := by
  intro env there
  rcases Store.lt_or_eq_of_lt_new there with old | rfl
  · rw [World.bindings_eq (w.le_new b) old]
    exact sound env old
  · have last := Store.bindings_new_self w.store b
    change ∀ entry ∈ (w.store.new b).2.bindings (w.store.new b).1, _
    rw [last]
    exact given

end World.Sound

namespace Setup

variable {calls : Nat} {env : EnvRef} {w u : World}

theorem sound_of_evaluate {tree : Ast} {a : Value} (sound : w.Sound) (there : env < w.size)
    (h : IsExpression tree) (ran : (bare.evaluate calls env tree).run w = .ok a u) :
    a.Sound ∧ u.Sound ∧ env < u.size := by
  obtain ⟨_, _, held, world, there'⟩ := Soundness.kept.after_evaluate sound.invariant there h ran
  exact ⟨held, world.bound, there'⟩

theorem sound_of_evaluateAll {items : List Ast} {vs : List Value} (sound : w.Sound)
    (there : env < w.size) (h : ∀ item ∈ items, IsExpression item)
    (ran : (bare.evaluateAll (bare.entering calls) env items).run w = .ok vs u) :
    (∀ v ∈ vs, v.Sound) ∧ u.Sound ∧ env < u.size := by
  have whole : (bare.evaluateParts (bare.entering calls) env (.list items)).run w = .ok vs u := ran
  obtain ⟨_, _, held, world, there'⟩ :=
    Soundness.kept.after_evaluateParts sound.invariant there (Soundness.parts_expressions h) whole
  exact ⟨held, world.bound, there'⟩

theorem run_record_bare {level : Nat} (h : 0 < level) (event : Unit → Except Failure Event)
    (w : World) : (record bare level event).run w = .ok () w := by
  rw [run_record, recorded_bare h]

theorem run_record_bare_bind {α : Type} {level : Nat} (h : 0 < level)
    (event : Unit → Except Failure Event) (m : Machine α) (w : World) :
    (record bare level event >>= fun _ => m).run w = m.run w := by
  rw [EStateM.run_bind, run_record_bare h]

theorem run_lookup?_string (env : EnvRef) (name : Text) (w : World) :
    (lookup? env (.scalar (.string name))).run w =
      .ok ((w.bindings env).present? (.string name)) w := rfl

theorem not_undefined_of_isFault {α : Type} {P : α → Prop} {x : Except Failure α}
    (h : Yields P Failure.IsFault x) : x ≠ .error (.number .remainderUndefined) := by
  rintro rfl
  cases h with
  | error fault => cases fault

theorem keys_of_strings (names : List Text) :
    (names.map fun t => Json.scalar (.string t)).mapM Name.ofJson? =
      .ok (names.map Scalar.string) := by
  induction names with
  | nil => rfl
  | cons t names ih =>
    rw [List.map_cons, List.mapM_cons, ih]
    rfl

theorem callBindings_soundly (name : Text) (names : List Text) {vs : List Value}
    (given : ∀ v ∈ vs, v.Sound) :
    Yields (fun others => ∀ other ∈ others, other.2.Sound) Failure.IsFault
      (callBindings (.scalar (.string name)) (.list (names.map named)) vs) := by
  have counted : (Ast.list (names.map named)).count? = .ok (names.map named).length := rfl
  rw [callBindings, counted, ok_bind]
  split
  · rw [Soundness.parameterNames_named, ok_bind, keys_of_strings, ok_bind]
    exact .ok fun other listed => given _ (List.of_mem_zip listed).2
  · exact .error (.fault _)

theorem sound_of_present? {name : Name} {f : Value} (sound : w.Sound) (there : env < w.size)
    (found : (w.bindings env).present? name = some f) : f.Sound :=
  Invariant.Bound.present? (p := soundness World) (κ := w) (sound env there) found

/-- Bodies that may be entered with so many calls left fail so only at an undefined remainder. -/
def BodiesReach (calls : Nat) : Prop :=
  ∀ {inner : EnvRef} {body : Ast} {w u : World}, w.Sound → inner < w.size → IsExpression body →
    (bare.entering calls inner body).run w = .error (.number .remainderUndefined) u →
    ∃ calls', calls = calls' + 1 ∧ bare.ReachesUndefinedRemainder ⟨calls', inner, body, w⟩

theorem reaches_of_call (inside : BodiesReach calls) {name : Text} {f : Value} {vs : List Value}
    (sound : w.Sound) (there : env < w.size) (well : f.Sound) (given : ∀ v ∈ vs, v.Sound)
    (failed : (bare.call (bare.entering calls) (.scalar (.string name)) f vs env).run w =
      .error (.number .remainderUndefined) u) :
    ∃ i parameters body inner v calls', f = .function i parameters body ∧ calls = calls' + 1 ∧
      (do
        record bare 2 fun _ => do
          return .call (← (Json.scalar (.string name)).plainText) (← Value.toTextAll vs)
        callEnvironment (.scalar (.string name)) parameters vs env : Machine EnvRef).run w =
          .ok inner v ∧
      bare.ReachesUndefinedRemainder ⟨calls', inner, body, v⟩ := by
  unfold call at failed
  rw [run_record_bare_bind (by decide)] at failed
  cases f with
  | builtin i f =>
    rw [run_callBuiltin] at failed
    have answered := Soundness.answer_soundly (n := w.nextIdentity) well given
    generalize bare.answer f w.nextIdentity vs = x at answered failed
    cases answered with
    | ok _ => cases failed
    | error fault =>
      cases fault
      cases failed
  | function i parameters body =>
    obtain ⟨⟨names, rfl⟩, whole⟩ := well
    have bound := callBindings_soundly name names given
    rcases of_bind_error failed with failed | ⟨inner, v, entered, failed⟩
    · rw [run_callEnvironment] at failed
      generalize callBindings (.scalar (.string name)) (.list (names.map named)) vs = x at bound failed
      cases bound with
      | ok _ => cases failed
      | error fault =>
        cases fault
        cases failed
    have same := entered
    rw [run_callEnvironment] at same
    generalize callBindings (.scalar (.string name)) (.list (names.map named)) vs = x at bound same
    cases bound with
    | error _ => cases same
    | @ok others overlay =>
      cases same
      have overlaid : ∀ entry ∈ (w.bindings env).insertAll others, entry.2.Sound :=
        Invariant.Bound.insertAll (p := soundness World) (κ := w) (sound env there) overlay
      obtain ⟨calls', rfl, reached⟩ :=
        inside (sound.new overlaid) (by simp [World.size, Store.merged]) whole failed
      refine ⟨i, _, body, _, _, calls', rfl, rfl, ?_, reached⟩
      rw [run_record_bare_bind (by decide)]
      exact entered
  | _ => cases failed

mutual

theorem reaches_of_evaluateWith (inside : BodiesReach calls) (tree : Ast) (h : IsExpression tree)
    (w u : World) (sound : w.Sound) (there : env < w.size)
    (failed : (bare.evaluateWith (bare.entering calls) env tree).run w =
      .error (.number .remainderUndefined) u) :
    bare.ReachesUndefinedRemainder ⟨calls, env, tree, w⟩ := by
  cases h with
  | numeral fits =>
    rw [evaluateWith, Json.numeralValue, fits] at failed
    cases failed
  | booleanLiteral b => cases failed
  | identifier name =>
    rw [named, evaluateWith, Machine.read] at failed
    rcases of_bind_error failed with failed | ⟨found, v, -, failed⟩
    · rw [run_lookup?_string] at failed
      cases failed
    · cases found <;> cases failed
  | @unary operator part h =>
    rw [evaluateWith] at failed
    rcases of_bind_error failed with failed | ⟨a, v, ran, failed⟩
    · exact .head .operand (reaches_of_evaluateWith inside part h w u sound there failed)
    · rw [← evaluate_eq] at ran
      obtain ⟨held, -⟩ := sound_of_evaluate sound there h ran
      exact absurd (of_lift_error failed)
        (not_undefined_of_isFault (Value.unary_soundly operator held))
  | @binary operator left right first second =>
    rw [evaluateWith] at failed
    rcases of_bind_error failed with failed | ⟨a, v, ranLeft, failed⟩
    · exact .head .left (reaches_of_evaluateWith inside left first w u sound there failed)
    rw [← evaluate_eq] at ranLeft
    obtain ⟨heldLeft, sound', there'⟩ := sound_of_evaluate sound there first ranLeft
    rcases of_bind_error failed with failed | ⟨b, v', ranRight, failed⟩
    · exact .head (.right ranLeft) (reaches_of_evaluateWith inside right second v u sound' there' failed)
    rw [← evaluate_eq] at ranRight
    obtain ⟨heldRight, -⟩ := sound_of_evaluate sound' there' second ranRight
    rw [run_record_bare_bind (by decide)] at failed
    have applied := Value.binary_soundly operator heldLeft heldRight
    rw [of_lift_error failed] at applied
    cases applied with
    | error cause =>
      cases cause with
      | remainder negative y op isLeft isRight number nonzero =>
        subst op isLeft isRight
        exact ⟨_, .refl, left, right, negative, y, v, v', rfl, ranLeft, ranRight, number, nonzero⟩
  | @conditional test whenTrue whenFalse chosen first second =>
    rw [evaluateWith] at failed
    rcases of_bind_error failed with failed | ⟨a, v, ran, failed⟩
    · exact .head .test (reaches_of_evaluateWith inside test chosen w u sound there failed)
    rw [← evaluate_eq] at ran
    obtain ⟨held, sound', there'⟩ := sound_of_evaluate sound there chosen ran
    rcases of_bind_error failed with failed | ⟨b, v', ran', failed⟩
    · exact absurd (of_lift_error failed) (not_undefined_of_isFault (Value.isTrue_soundly held))
    obtain ⟨truth, rfl⟩ := of_lift_ok ran'
    cases b with
    | true =>
      exact .head (.chosen ran truth)
        (reaches_of_evaluateWith inside whenTrue first v u sound' there' failed)
    | false =>
      exact .head (.chosen ran truth)
        (reaches_of_evaluateWith inside whenFalse second v u sound' there' failed)
  | @arrayLiteral items h =>
    rw [evaluateWith, evaluateParts] at failed
    rcases of_bind_error failed with failed | ⟨_, _, -, failed⟩
    · obtain ⟨before, item, later, vs, v, rfl, ran, reached⟩ :=
        reaches_of_evaluateAll inside items h w u sound there failed
      exact .head (.element ran) reached
    · cases failed
  | @subscript array index first second =>
    rw [evaluateWith] at failed
    rcases of_bind_error failed with failed | ⟨a, v, ran, failed⟩
    · exact .head .array (reaches_of_evaluateWith inside array first w u sound there failed)
    rw [← evaluate_eq] at ran
    obtain ⟨held, sound', there'⟩ := sound_of_evaluate sound there first ran
    rcases of_bind_error failed with failed | ⟨b, v', ran', failed⟩
    · exact .head (.index ran) (reaches_of_evaluateWith inside index second v u sound' there' failed)
    · exact absurd (of_lift_error failed) (not_undefined_of_isFault (Value.subscript_soundly held))
  | @call callee args h =>
    rw [evaluateWith, evaluateParts] at failed
    rcases of_bind_error failed with failed | ⟨name, w', ran, failed⟩
    · cases of_lift_error failed
    obtain ⟨same, rfl⟩ := of_lift_ok ran
    cases same
    rcases of_bind_error failed with failed | ⟨found, v, looked, failed⟩
    · rw [run_lookup?_string] at failed
      cases failed
    have same := looked
    rw [run_lookup?_string] at same
    cases same
    rcases of_bind_error failed with failed | ⟨vs, v, given, failed⟩
    · obtain ⟨before, item, later, vs, v, rfl, ran, reached⟩ :=
        reaches_of_evaluateAll inside args h w u sound there failed
      exact .head (.argument rfl looked ran) reached
    obtain ⟨held, sound', there'⟩ := sound_of_evaluateAll sound there h given
    cases present : (w.bindings env).present? (.string callee) with
    | none =>
      rw [present] at failed
      cases failed
    | some f =>
      rw [present] at failed looked
      obtain ⟨i, parameters, body, inner, v', calls', rfl, rfl, entered, reached⟩ :=
        reaches_of_call inside sound' there' (sound_of_present? sound there present) held failed
      exact .head (.body rfl looked given entered) reached

theorem reaches_of_evaluateAll (inside : BodiesReach calls) (items : List Ast)
    (h : ∀ item ∈ items, IsExpression item) (w u : World) (sound : w.Sound) (there : env < w.size)
    (failed : (bare.evaluateAll (bare.entering calls) env items).run w =
      .error (.number .remainderUndefined) u) :
    ∃ before item later vs v, items = before ++ item :: later ∧
      (bare.evaluateAll (bare.entering calls) env before).run w = .ok vs v ∧
      bare.ReachesUndefinedRemainder ⟨calls, env, item, v⟩ := by
  cases items with
  | nil => cases failed
  | cons item items =>
    obtain ⟨head, tail⟩ := List.forall_mem_cons.mp h
    rw [evaluateAll] at failed
    rcases of_bind_error failed with failed | ⟨a, v, ran, failed⟩
    · exact ⟨[], item, items, [], w, rfl, rfl,
        reaches_of_evaluateWith inside item head w u sound there failed⟩
    · obtain ⟨-, sound', there'⟩ := sound_of_evaluate sound there head (by rwa [evaluate_eq])
      rcases of_bind_error failed with failed | ⟨vs, v', -, failed⟩
      · obtain ⟨before, item', later, vs, v', rfl, ran', reached⟩ :=
          reaches_of_evaluateAll inside items tail v u sound' there' failed
        refine ⟨item :: before, item', later, a :: vs, v', rfl, ?_, reached⟩
        rw [evaluateAll, EStateM.run_bind, ran]
        change ((do return a :: (← bare.evaluateAll (bare.entering calls) env before)) :
          Machine (List Value)).run v = _
        rw [EStateM.run_bind, ran']
        rfl
      · cases failed

end

theorem reaches_of_evaluate (calls : Nat) {env : EnvRef} {tree : Ast} {w u : World} (sound : w.Sound)
    (there : env < w.size) (h : IsExpression tree)
    (failed : (bare.evaluate calls env tree).run w = .error (.number .remainderUndefined) u) :
    bare.ReachesUndefinedRemainder ⟨calls, env, tree, w⟩ := by
  induction calls generalizing env tree w u with
  | zero =>
    have inside : BodiesReach 0 := fun _ _ _ failed => by cases failed
    exact reaches_of_evaluateWith inside tree h w u sound there failed
  | succ calls ih =>
    have inside : BodiesReach (calls + 1) := fun sound there h failed =>
      ⟨calls, rfl, ih sound there h failed⟩
    exact reaches_of_evaluateWith inside tree h w u sound there failed

end Setup

end DynamicScope
