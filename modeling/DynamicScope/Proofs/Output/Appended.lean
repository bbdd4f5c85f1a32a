import DynamicScope.Proofs.Run.Additions
import DynamicScope.Proofs.Run.Walk
import DynamicScope.Proofs.Session.Isolation
import DynamicScope.Proofs.Simulation.Course
import DynamicScope.Proofs.Simulation.Printed

/-! What executions print.
An execution that returns has appended one value to its output for every print statement that it has
visited, in order, and has made no new output if there was none. What it appends, and everything else
that it comes to, is the same whatever was printed before. -/

namespace DynamicScope

open Machine

def Visit.isPrint : Visit → Bool
  | .statement (.printStatement _) _ _ => true
  | _ => false

namespace Setup

/-- Whether the value is that of the expression of a visited print statement. -/
def Prints (setup : Setup) (budget : Budget) : Visit → Value → Prop
  | .statement (.printStatement part) s w, v =>
    ∃ u, (setup.evaluate budget.calls s.env part).run w = .ok v u
  | _, _ => False

/-- An output after some visits: with a value appended for each print statement, and a new one if there
is any. -/
structure Appended (setup : Setup) (budget : Budget) (w : World) (visits : List Visit) (o o' : Output)
    (added : List Value) : Prop where
  values : o'.values = o.values ++ added
  printed : List.Forall₂ (setup.Prints budget) (visits.filter Visit.isPrint) added
  same : added = [] → o' = o
  new : added ≠ [] → w.nextIdentity ≤ o'.identity

variable {setup : Setup} {budget : Budget} {s t : State} {w v : World} {visits : List Visit}

theorem Appended.identity {o o' : Output} {added : List Value}
    (h : setup.Appended budget w visits o o' added) (old : o.identity < w.nextIdentity) :
    o'.identity = o.identity ↔ added = [] := by
  constructor
  · intro same
    by_contra some
    exact absurd (h.new some) (by omega)
  · intro none
    rw [h.same none]

theorem printed_of_execute {part : Ast}
    (ran : (setup.execute budget (.printStatement part) s).run w = .ok t v) :
    ∃ value, setup.Prints budget (.statement (.printStatement part) s w) value ∧
      t.output.values = s.output.values ++ [value] ∧ w.nextIdentity ≤ t.output.identity := by
  rw [execute] at ran
  obtain ⟨value, u, evaluated, ran⟩ := of_bind_ok ran
  obtain ⟨⟨⟩, u', told, ran⟩ := of_bind_ok ran
  cases ran
  have first := (setup.grows_evaluate budget.calls s.env part).le_of_ok evaluated
  have second := (grows_record _ _ _).le_of_ok told
  exact ⟨value, ⟨u, evaluated⟩, rfl, Nat.le_trans (World.next_le first) (World.next_le second)⟩

theorem output_of_execute {tree : Ast} (single : tree.isSingle = true)
    (silent : (Visit.statement tree s w).isPrint = false)
    (ran : (setup.execute budget tree s).run w = .ok t v) : t.output = s.output := by
  have declared {id : Ast} {value : Value} {u : World} (ran : (s.declare id value).run u = .ok t v) :
      t.output = s.output := by
    unfold State.declare at ran
    obtain ⟨key, u', -, ran⟩ := of_bind_ok ran
    cases ran
    rfl
  cases tree with
  | variableDeclaration id part =>
    rw [execute] at ran
    obtain ⟨value, u, -, ran⟩ := of_bind_ok ran
    obtain ⟨⟨⟩, u', -, ran⟩ := of_bind_ok ran
    exact declared ran
  | functionDeclaration id parameters body =>
    rw [execute] at ran
    obtain ⟨identity, u, -, ran⟩ := of_bind_ok ran
    obtain ⟨⟨⟩, u', -, ran⟩ := of_bind_ok ran
    exact declared ran
  | assignment id part =>
    rw [execute] at ran
    obtain ⟨value, u, -, ran⟩ := of_bind_ok ran
    obtain ⟨name, u₁, -, ran⟩ := of_bind_ok ran
    obtain ⟨⟨⟩, u₂, -, ran⟩ := of_bind_ok ran
    obtain ⟨⟨⟩, u₃, -, ran⟩ := of_bind_ok ran
    cases ran
    rfl
  | printStatement part => cases silent
  | whileStatement | block => cases single
  | _ => cases ran

namespace Appended

variable {o o' : Output} {added : List Value}

theorem none (s : State) (w : World) : setup.Appended budget w [] s.output s.output [] :=
  ⟨(List.append_nil _).symm, .nil, fun _ => rfl, fun h => absurd rfl h⟩

theorem silent {visit : Visit} (silent : visit.isPrint = false)
    (later : w.nextIdentity ≤ v.nextIdentity) (rest : setup.Appended budget v visits o o' added) :
    setup.Appended budget w (visit :: visits) o o' added := by
  refine ⟨rest.values, ?_, rest.same, fun some => Nat.le_trans later (rest.new some)⟩
  rw [List.filter_cons_of_neg (by rw [silent]; exact Bool.false_ne_true)]
  exact rest.printed

theorem print {visit : Visit} {first : Output} {value : Value} (print : visit.isPrint = true)
    (prints : setup.Prints budget visit value) (appended : first.values = o.values ++ [value])
    (new : w.nextIdentity ≤ first.identity) (later : w.nextIdentity ≤ v.nextIdentity)
    (rest : setup.Appended budget v visits first o' added) :
    setup.Appended budget w (visit :: visits) o o' (value :: added) := by
  refine ⟨?_, ?_, nofun, fun _ => ?_⟩
  · rw [rest.values, appended, List.append_assoc, List.singleton_append]
  · rw [List.filter_cons_of_pos print]
    exact .cons prints rest.printed
  · by_cases last : added = []
    · rw [rest.same last]
      exact new
    · exact Nat.le_trans later (rest.new last)

end Appended

theorem Walk.appended {x : EStateM.Result Failure World State}
    (walk : Walk setup budget s w visits x) (ended : x = .ok t v) :
    ∃ added, setup.Appended budget w visits s.output t.output added := by
  induction walk with
  | done s w =>
    cases ended
    exact ⟨[], .none t v⟩
  | stopped | failing | failingCheck => cases ended
  | @statement tree s t' w v' visits _ single ran _ ih =>
    obtain ⟨added, rest⟩ := ih ended
    have later := (setup.counts_le_execute budget ran).2
    cases print : (Visit.statement tree s w).isPrint with
    | true =>
      cases tree with
      | printStatement part =>
        obtain ⟨value, prints, appended, new⟩ := printed_of_execute ran
        exact ⟨value :: added, .print rfl prints appended new later rest⟩
      | _ => cases print
    | false =>
      rw [output_of_execute single print ran] at rest
      exact ⟨added, .silent print later rest⟩
  | check ran _ ih =>
    obtain ⟨added, rest⟩ := ih ended
    have later := World.next_le ((setup.grows_condition budget _ _).le_of_ok ran)
    exact ⟨added, .silent rfl later rest⟩

theorem appended_of_execute {tree : Ast} (ran : (setup.execute budget tree s).run w = .ok t v) :
    ∃ added, setup.Appended budget w (setup.visits budget tree s w) s.output t.output added :=
  (walk_execute setup budget tree s w).appended ran

end Setup

def Bindings.Renamed (ρ : Nat → Nat) (b b' : Bindings) : Prop :=
  ∀ name, (b.value? name).map (Value.rename ρ) = b'.value? name

theorem Bindings.renamed_of_map {ρ : Nat → Nat} {b b' : Bindings}
    (h : b.map (fun entry => (entry.1, entry.2.rename ρ)) = b') : b.Renamed ρ b' := by
  intro name
  rw [← h, Renames.value?_map]

structure State.Within (s : State) (w : World) : Prop where
  env : s.env < w.size
  output : s.output.identity < w.nextIdentity

def View.appending (ρ : Nat → Nat) (before before' : List Value) : Conduct Unit :=
  ((View.whole ρ).conduct.tracing fun _ _ => True).printing fun o o' => ∃ added,
    o.values = before ++ added ∧ o'.values = before' ++ added.map (Value.rename ρ)

theorem View.executes_appending {ρ : Nat → Nat} (inj : ∀ i j, ρ i = ρ j → i = j) {setup : Setup}
    (uniform : ∀ entry ∈ setup.natives, entry.2.Uniform) (before before' : List Value) :
    (View.appending ρ before before').Executes setup setup := by
  have laws := View.executes (View.laws_whole inj uniform)
  have recorded := laws.tracing (T := fun _ _ => True) fun told =>
    (laws.recorded told).imp fun _ _ _ _ _ _ => trivial
  refine recorded.printing fun {_ _ _ _ _ v v'} appended same => ?_
  obtain ⟨added, first, second⟩ := appended
  have renamed : v.rename ρ = v' := same.1
  refine ⟨added ++ [v], ?_, ?_⟩
  · rw [first, List.append_assoc]
  · rw [second, List.map_append, List.map_singleton, renamed, List.append_assoc]

namespace Setup

/-- A statement that is executed in the same bindings, wherever they are and whatever was printed before,
comes to the same but for identities: to the same failure, also where it uses up its budget, or to the
same bindings with the same values appended to the output. These are one for each print statement that
is executed, in order, and the output is the one before exactly if there are none. -/
theorem execute_appends {setup : Setup} (uniform : ∀ entry ∈ setup.natives, entry.2.Uniform)
    {ρ : Nat → Nat} {s s' : State} {w w' : World} (within : s.Within w) (within' : s'.Within w')
    (renames : Renames ρ w.nextIdentity w'.nextIdentity)
    (same : (w.bindings s.env).Renamed ρ (w'.bindings s'.env)) (budget : Budget) (tree : Ast) :
    (∃ e u u', (setup.execute budget tree s).run w = .error e u ∧
      (setup.execute budget tree s').run w' = .error e u') ∨
    ∃ t t' u u' added, (setup.execute budget tree s).run w = .ok t u ∧
      (setup.execute budget tree s').run w' = .ok t' u' ∧
      (u.bindings t.env).Renamed ρ (u'.bindings t'.env) ∧
      (u.bindings s.env).Renamed ρ (u'.bindings s'.env) ∧
      setup.Appended budget w (setup.visits budget tree s w) s.output t.output added ∧
      setup.Appended budget w' (setup.visits budget tree s' w') s'.output t'.output
        (added.map (Value.rename ρ)) ∧
      (t.output.identity = s.output.identity ↔ added = []) ∧
      (t'.output.identity = s'.output.identity ↔ added = []) := by
  have laws := View.executes_appending renames.inj uniform s.output.values s'.output.values
  have along : (View.appending ρ s.output.values s'.output.values).Alongside () s.env w s'.env w' :=
    ⟨within.env, within'.env, same, renames, trivial⟩
  have alike : (View.appending ρ s.output.values s'.output.values).statement tree tree :=
    ⟨rfl, Content.any_tree tree, fun _ _ => trivial⟩
  have matched := Conduct.matches_execute laws budget alike along
    ⟨[], (List.append_nil _).symm, (List.append_nil _).symm⟩
  rcases matched.ended with ⟨e, e', u, u', ran, ran', same⟩ | ⟨_, t, t', u, u', ran, ran', courses⟩
  · obtain rfl : e = e' := same
    exact .inl ⟨e, u, u', ran, ran'⟩
  · have entry := courses.entry
    rw [courseOf_entry, courseOf_entry] at entry
    obtain ⟨added, output, output'⟩ := courses.output
    obtain ⟨printed, first⟩ := appended_of_execute ran
    obtain ⟨printed', second⟩ := appended_of_execute ran'
    -- Each run appends what it prints, so what the runs append alike is what they print.
    obtain rfl : printed = added := List.append_cancel_left (first.values.symm.trans output)
    obtain rfl : printed' = printed.map (Value.rename ρ) :=
      List.append_cancel_left (second.values.symm.trans output')
    refine .inr ⟨t, t', u, u', printed, ran, ran', courses.current, entry, first, second,
      first.identity within.output, ?_⟩
    rw [second.identity within'.output, List.map_eq_nil_iff]

def printingLoop : Ast :=
  let c := Ast.identifier (.scalar (.string "c"))
  let pack := Ast.identifier (.scalar (.string "pack"))
  .whileStatement c (.block (.list [.printStatement (.call pack (.list [c])),
    .assignment c (.booleanLiteral false)]))

def printingBindings : Bindings :=
  [(.ofString "pack", .builtin 0 (.native "pack" none 0)), (.ofString "c", .boolean true)]

theorem execute_appends_printingLoop :
    ∃ t t' u u',
      (packing.execute ⟨0, 2⟩ printingLoop ⟨0, ⟨1, []⟩⟩).run ⟨⟨#[printingBindings]⟩, 2, #[]⟩ =
        .ok t u ∧
      (packing.execute ⟨0, 2⟩ printingLoop ⟨1, ⟨3, [.undefined]⟩⟩).run
        ⟨⟨#[[], printingBindings]⟩, 4, #[]⟩ = .ok t' u' ∧
      t.output.values = [.array 2 [.boolean true]] ∧
      t'.output.values = [.undefined, .array 4 [.boolean true]] ∧
      t.output.identity ≠ 1 ∧ t'.output.identity ≠ 3 := by
  have uniform : ∀ entry ∈ packing.natives, entry.2.Uniform := by
    intro entry listed
    obtain rfl := List.mem_singleton.mp listed
    exact Native.pure_pack.uniform
  obtain ⟨ρ, moved, fixed⟩ : ∃ ρ, Renames ρ 2 4 ∧ ∀ i < 2, ρ i = i := Renames.exists_moved (by decide)
  have same : printingBindings.Renamed ρ printingBindings := by
    refine Bindings.renamed_of_map ?_
    simp [printingBindings, Value.rename, fixed 0 (by decide)]
  have within : State.Within ⟨0, ⟨1, []⟩⟩ ⟨⟨#[printingBindings]⟩, 2, #[]⟩ := ⟨by decide, by decide⟩
  have within' : State.Within ⟨1, ⟨3, [.undefined]⟩⟩ ⟨⟨#[[], printingBindings]⟩, 4, #[]⟩ :=
    ⟨by decide, by decide⟩
  rcases execute_appends uniform within within' moved same ⟨0, 2⟩ printingLoop with
    ⟨e, u, u', failed, -⟩ | ⟨t, t', u, u', added, ran, ran', -, -, first, second, old, old'⟩
  · cases failed
  · cases ran
    cases ran'
    have some : added ≠ [] := by
      rintro rfl
      cases first.values
    exact ⟨_, _, _, _, rfl, rfl, rfl, rfl, fun h => some (old.mp h), fun h => some (old'.mp h)⟩

end Setup

end DynamicScope
