import DynamicScope.Proofs.Run.Frame

/-! What execution does to a world at all.
Beside what their expressions do, statements give names of environments new values and record events
of their own, but none that tells of the run as a whole. So every relation of worlds that respects
such changes holds between the world before an execution and the one after, wherever the execution
starts and however it ends. -/

namespace DynamicScope

/-- A relation of worlds that is respected by what execution does to a world. -/
structure World.Lasting (R : World → World → Prop) : Prop where
  refl (w : World) : R w w
  trans {u v w : World} : R u v → R v w → R u w
  new (w : World) (b : Bindings) : R w { w with store := (w.store.new b).2 }
  overwrite (w : World) (env : EnvRef) (name : Name) (value : Value) :
    R w { w with store := w.store.overwrite env name value }
  next (w : World) (count : Nat) : R w { w with nextIdentity := w.nextIdentity + count }
  told (w : World) {e : Event} : 2 ≤ e.level → R w { w with trace := w.trace.push e }

theorem World.Lasting.steady {R : World → World → Prop} (lasting : World.Lasting R) :
    World.Steady R where
  refl := lasting.refl
  trans := lasting.trans
  new := lasting.new
  next := lasting.next
  traced w e h := lasting.told w <| by
    cases e with
    | call => exact Nat.le_refl 2
    | binary => exact Nat.le_succ 2
    | _ => exact h.elim

theorem World.lasting_counts : World.Lasting fun w v : World =>
    w.size ≤ v.size ∧ w.nextIdentity ≤ v.nextIdentity where
  refl _ := ⟨Nat.le_refl _, Nat.le_refl _⟩
  trans first second := ⟨Nat.le_trans first.1 second.1, Nat.le_trans first.2 second.2⟩
  new w b := ⟨size_le (w.le_new b), Nat.le_refl _⟩
  overwrite w env name value := ⟨Nat.le_of_eq (by simp [World.size]), Nat.le_refl _⟩
  next _ count := ⟨Nat.le_refl _, Nat.le_add_right _ count⟩
  told _ _ _ := ⟨Nat.le_refl _, Nat.le_refl _⟩

namespace Setup

open Machine

variable (setup : Setup) (budget : Budget) {R : World → World → Prop}

omit setup budget in
theorem follows_assign (refl : ∀ w, R w w)
    (overwrite : ∀ (w : World) env name value,
      R w { w with store := w.store.overwrite env name value })
    (env : EnvRef) (name : Json) (value : Value) : Follows R (assign env name value) := by
  intro w
  rw [after, run_assign]
  cases Name.ofJson? name with
  | error e => exact refl w
  | ok key =>
    cases bound : (w.store.bindings env).binds key with
    | true => simpa only [bound, if_true] using overwrite w env key value
    | false => simpa only [bound, Bool.false_eq_true, if_false] using refl w

omit setup budget in
theorem follows_declare (steady : World.Steady R) (s : State) (id : Ast) (value : Value) :
    Follows R (s.declare id value) :=
  follows_bind steady (follows_lift steady _) fun _ =>
    follows_bind steady (follows_merged steady _ _) fun _ => follows_pure steady _

variable (lasting : World.Lasting R)

include lasting

theorem follows_told {event : Unit → Except Failure Event}
    (told : ∀ e, event () = .ok e → 2 ≤ e.level) (level : Nat) :
    Follows R (record setup level event) :=
  follows_record lasting.steady (fun e formed w => lasting.told w (told e formed)) setup level

theorem follows_condition (env : EnvRef) (test : Ast) :
    Follows R (setup.condition budget env test) := by
  refine follows_bind lasting.steady (setup.follows_evaluate lasting.steady _ env test)
    fun value => ?_
  refine follows_bind lasting.steady (follows_told setup lasting (fun e formed => ?_) 3)
    fun _ => follows_lift lasting.steady _
  obtain ⟨text, -, formed⟩ := bind_eq_ok.mp formed
  cases formed
  exact Nat.le_succ 2

omit setup budget in
theorem follows_repeatWhile {test : Machine Bool} {body : State → Machine State}
    (checked : Follows R test) (each : ∀ s, Follows R (body s)) (iterations : Nat) (s : State) :
    Follows R (repeatWhile test body iterations s) := by
  induction iterations generalizing s with
  | zero => exact follows_throw lasting.steady _
  | succ iterations ih =>
    rw [repeatWhile]
    refine follows_bind lasting.steady checked fun again => ?_
    cases again with
    | true => exact follows_bind lasting.steady (each s) ih
    | false => exact follows_pure lasting.steady s

mutual

theorem follows_execute (tree : Ast) (s : State) : Follows R (setup.execute budget tree s) := by
  have evaluated (expression : Ast) :
      Follows R (setup.evaluate budget.calls s.env expression) :=
    setup.follows_evaluate lasting.steady _ s.env expression
  have steady := lasting.steady
  cases tree with
  | variableDeclaration id expression =>
    rw [execute]
    refine follows_bind steady (evaluated expression) fun value =>
      follows_bind steady (follows_told setup lasting (fun e formed => ?_) 2) fun _ =>
        follows_declare steady s id value
    obtain ⟨name, -, formed⟩ := bind_eq_ok.mp formed
    obtain ⟨shown, -, formed⟩ := bind_eq_ok.mp formed
    obtain ⟨text, -, formed⟩ := bind_eq_ok.mp formed
    cases formed
    exact Nat.le_refl 2
  | functionDeclaration id parameters expression =>
    rw [execute]
    refine follows_bind steady (follows_freshIdentity steady) fun identity =>
      follows_bind steady (follows_told setup lasting (fun e formed => ?_) 2) fun _ =>
        follows_declare steady s id _
    obtain ⟨name, -, formed⟩ := bind_eq_ok.mp formed
    obtain ⟨shown, -, formed⟩ := bind_eq_ok.mp formed
    obtain ⟨text, -, formed⟩ := bind_eq_ok.mp formed
    cases formed
    exact Nat.le_refl 2
  | assignment id expression =>
    rw [execute]
    refine follows_bind steady (evaluated expression) fun value =>
      follows_bind steady (follows_lift steady _) fun name =>
        follows_bind steady (follows_assign lasting.refl lasting.overwrite s.env name value) fun _ =>
          follows_bind steady (follows_told setup lasting (fun e formed => ?_) 2) fun _ =>
            follows_pure steady s
    obtain ⟨shown, -, formed⟩ := bind_eq_ok.mp formed
    obtain ⟨text, -, formed⟩ := bind_eq_ok.mp formed
    cases formed
    exact Nat.le_refl 2
  | printStatement expression =>
    rw [execute]
    refine follows_bind steady (evaluated expression) fun value =>
      follows_bind steady (follows_told setup lasting (fun e formed => ?_) 2) fun _ =>
        follows_bind steady (follows_freshIdentity steady) fun _ => follows_pure steady _
    obtain ⟨text, -, formed⟩ := bind_eq_ok.mp formed
    cases formed
    exact Nat.le_refl 2
  | whileStatement test body =>
    rw [execute]
    exact follows_repeatWhile lasting (setup.follows_condition budget lasting s.env test)
      (follows_execute body) budget.iterations s
  | block statements =>
    rw [execute]
    exact follows_executeParts statements s
  | _ => exact follows_throw steady _

theorem follows_executeParts (tree : Ast) (s : State) :
    Follows R (setup.executeParts budget tree s) := by
  cases tree with
  | list items =>
    rw [executeParts]
    exact follows_executeAll items s
  | scalar c =>
    cases c with
    | string t =>
      rw [executeParts]
      split
      · exact follows_pure lasting.steady s
      · exact follows_throw lasting.steady _
    | _ => exact follows_throw lasting.steady _
  | _ => exact follows_throw lasting.steady _

theorem follows_executeAll (items : List Ast) (s : State) :
    Follows R (setup.executeAll budget items s) := by
  cases items with
  | nil => exact follows_pure lasting.steady s
  | cons item items =>
    rw [executeAll]
    exact follows_bind lasting.steady (follows_execute item s) fun t => follows_executeAll items t

end

omit lasting in
theorem counts_le_execute {tree : Ast} {s t : State} {w v : World}
    (ran : (setup.execute budget tree s).run w = .ok t v) :
    w.size ≤ v.size ∧ w.nextIdentity ≤ v.nextIdentity := by
  rw [← after_of_ok ran]
  exact setup.follows_execute budget World.lasting_counts tree s w

end Setup

end DynamicScope
