import DynamicScope.Run.Execute

/-! How loops end.
A loop goes from check to check of its condition. Its run comes to the first check that is false or
fails, or to the first one after which the body fails, or it uses up the iterations it is given. -/

namespace DynamicScope

/-- So many iterations of a loop, from one check of its condition to another. -/
inductive Iterates (test : Machine Bool) (body : State → Machine State) :
    Nat → State → World → State → World → Prop
  | zero (s : State) (w : World) : Iterates test body 0 s w s w
  | succ {n : Nat} {s t s' : State} {w v u w' : World} (checked : test.run w = .ok true v)
    (ran : (body s).run v = .ok t u) (rest : Iterates test body n t u s' w') :
    Iterates test body (n + 1) s w s' w'

/-- What a loop comes to if it ends at the check in the given state. -/
inductive Stops (test : Machine Bool) (body : State → Machine State) (s : State) (w : World) :
    EStateM.Result Failure World State → Prop
  | done {v : World} (checked : test.run w = .ok false v) : Stops test body s w (.ok s v)
  | test {e : Failure} {v : World} (failed : test.run w = .error e v) :
    Stops test body s w (.error e v)
  | body {e : Failure} {v u : World} (checked : test.run w = .ok true v)
    (failed : (body s).run v = .error e u) : Stops test body s w (.error e u)

variable {test : Machine Bool} {body : State → Machine State} {n k : Nat} {s s' t : State}
  {w w' u v : World}

namespace Iterates

theorem trans (first : Iterates test body n s w t u) (second : Iterates test body k t u s' w') :
    Iterates test body (n + k) s w s' w' := by
  induction first with
  | zero s w => rwa [Nat.zero_add]
  | succ checked ran _ ih =>
    rw [Nat.add_right_comm]
    exact .succ checked ran (ih second)

theorem drop (first : Iterates test body n s w t u)
    (whole : Iterates test body (n + k) s w s' w') : Iterates test body k t u s' w' := by
  induction first with
  | zero s w => rwa [Nat.zero_add] at whole
  | succ checked ran _ ih =>
    rw [Nat.add_right_comm] at whole
    cases whole with
    | succ checked' ran' rest =>
      rw [checked] at checked'
      cases checked'
      rw [ran] at ran'
      cases ran'
      exact ih rest

theorem not_stops (run : Iterates test body (k + 1) s w s' w')
    {x : EStateM.Result Failure World State} : ¬ Stops test body s w x := by
  intro stops
  cases run with
  | succ checked ran rest =>
    cases stops with
    | done checked' => rw [checked] at checked'; cases checked'
    | test failed => rw [checked] at failed; cases failed
    | body checked' failed =>
      rw [checked] at checked'
      cases checked'
      rw [ran] at failed
      cases failed

theorem until_stop (first : Iterates test body n s w t u) (run : Iterates test body k s w s' w')
    {x : EStateM.Result Failure World State} (stops : Stops test body s' w' x) :
    ∃ j, Iterates test body j t u s' w' := by
  rcases Nat.lt_or_ge k n with less | enough
  · obtain ⟨j, rfl⟩ := Nat.exists_eq_add_of_lt less
    exact absurd stops (not_stops (drop run first))
  · obtain ⟨j, rfl⟩ := Nat.exists_eq_add_of_le enough
    exact ⟨j, drop first run⟩

end Iterates

theorem repeatWhile_ends (test : Machine Bool) (body : State → Machine State) (iterations : Nat)
    (s : State) (w : World) :
    (∃ t u, Iterates test body iterations s w t u ∧
      (repeatWhile test body iterations s).run w = .error .exhausted u) ∨
    ∃ n < iterations, ∃ t u, Iterates test body n s w t u ∧
      Stops test body t u ((repeatWhile test body iterations s).run w) := by
  induction iterations generalizing s w with
  | zero => exact .inl ⟨s, w, .zero s w, rfl⟩
  | succ iterations ih =>
    have now {x} (stops : Stops test body s w x) : ∃ n < iterations + 1, ∃ t u,
        Iterates test body n s w t u ∧ Stops test body t u x :=
      ⟨0, Nat.succ_pos _, s, w, .zero s w, stops⟩
    rw [repeatWhile, EStateM.run_bind]
    cases checked : test.run w with
    | error e v => exact .inr (now (.test checked))
    | ok again v =>
      cases again with
      | false => exact .inr (now (.done checked))
      | true =>
        dsimp only
        rw [if_pos rfl, EStateM.run_bind]
        cases ran : (body s).run v with
        | error e u => exact .inr (now (.body checked ran))
        | ok t u =>
          rcases ih t u with ⟨t', u', run, spent⟩ | ⟨n, less, t', u', run, stops⟩
          · exact .inl ⟨t', u', .succ checked ran run, spent⟩
          · exact .inr ⟨n + 1, Nat.succ_lt_succ less, t', u', .succ checked ran run, stops⟩

end DynamicScope
