import DynamicScope.Proofs.Run.Parts

/-! An execution as a walk through its visits.
Each visit of an execution begins where the one before it has ended, and what the execution comes to is
decided by the visits alone, but for a list that is none and a loop that has used up its iterations.
What is to be said of every execution can so be said of single statements and checks, and of walks by
going on from visit to visit. -/

namespace DynamicScope

open Machine

/-- Whether a tree is executed without executing others. -/
def Ast.isSingle : Ast → Bool
  | .whileStatement .. | .block _ => false
  | _ => true

namespace Setup

/-- From a state and a world through visits, in order, to what an execution comes to. -/
inductive Walk (setup : Setup) (budget : Budget) :
    State → World → List Visit → EStateM.Result Failure World State → Prop
  | done (s : State) (w : World) : Walk setup budget s w [] (.ok s w)
  /-- A failure that is not one of a visit. -/
  | stopped (e : Failure) (s : State) (w : World) : Walk setup budget s w [] (.error e w)
  | statement {tree : Ast} {s t : State} {w v : World} {visits : List Visit}
    {x : EStateM.Result Failure World State} (single : tree.isSingle = true)
    (ran : (setup.execute budget tree s).run w = .ok t v) (rest : Walk setup budget t v visits x) :
    Walk setup budget s w (.statement tree s w :: visits) x
  | failing {tree : Ast} {s : State} {w v : World} {e : Failure} (single : tree.isSingle = true)
    (ran : (setup.execute budget tree s).run w = .error e v) :
    Walk setup budget s w [.statement tree s w] (.error e v)
  | check {test : Ast} {env : EnvRef} {b : Bool} {s : State} {w v : World} {visits : List Visit}
    {x : EStateM.Result Failure World State}
    (ran : (setup.condition budget env test).run w = .ok b v)
    (rest : Walk setup budget s v visits x) :
    Walk setup budget s w (.condition test env w :: visits) x
  | failingCheck {test : Ast} {env : EnvRef} {s : State} {w v : World} {e : Failure}
    (ran : (setup.condition budget env test).run w = .error e v) :
    Walk setup budget s w [.condition test env w] (.error e v)

variable {setup : Setup} {budget : Budget} {s t : State} {w v : World}

namespace Walk

variable {visits later : List Visit} {x y : EStateM.Result Failure World State}

theorem trans (first : Walk setup budget s w visits y) (ended : y = .ok t v)
    (rest : Walk setup budget t v later x) : Walk setup budget s w (visits ++ later) x := by
  induction first with
  | done s w =>
    cases ended
    exact rest
  | stopped | failing | failingCheck => cases ended
  | statement single ran _ ih => exact .statement single ran (ih ended)
  | check ran _ ih => exact .check ran (ih ended)

theorem bind {m : Machine State} {f : State → Machine State} {next : State → World → List Visit}
    (first : Walk setup budget s w visits (m.run w))
    (rest : ∀ t v, m.run w = .ok t v → Walk setup budget t v (next t v) ((f t).run v)) :
    Walk setup budget s w (visits ++ following m w next) ((m >>= f).run w) := by
  rw [EStateM.run_bind, following]
  cases ran : m.run w with
  | ok t v => exact first.trans ran (rest t v ran)
  | error e v =>
    rw [ran] at first
    rwa [List.append_nil]

end Walk

theorem visits_single {tree : Ast} (single : tree.isSingle = true) (s : State) (w : World) :
    setup.visits budget tree s w = [.statement tree s w] := by
  cases tree <;> first | rfl | cases single

theorem walk_single {tree : Ast} (single : tree.isSingle = true) (s : State) (w : World) :
    Walk setup budget s w [.statement tree s w] ((setup.execute budget tree s).run w) := by
  cases ran : (setup.execute budget tree s).run w with
  | ok t v => exact .statement single ran (.done t v)
  | error e v => exact .failing single ran

theorem walk_repeatWhile {test : Ast} {env : EnvRef} {body : State → Machine State}
    {inside : State → World → List Visit}
    (each : ∀ s w, Walk setup budget s w (inside s w) ((body s).run w)) (iterations : Nat)
    (s : State) (w : World) :
    Walk setup budget s w
      (repeatVisits (.condition test env) (setup.condition budget env test) body inside iterations s w)
      ((repeatWhile (setup.condition budget env test) body iterations s).run w) := by
  induction iterations generalizing s w with
  | zero => exact .stopped _ s w
  | succ iterations ih =>
    rw [repeatWhile, repeatVisits_succ, EStateM.run_bind, following]
    cases checked : (setup.condition budget env test).run w with
    | error e v => exact .failingCheck checked
    | ok again v =>
      cases again with
      | false => exact .check checked (.done s v)
      | true => exact .check checked ((each s v).bind fun t u _ => ih t u)

variable (setup budget)

mutual

theorem walk_execute (tree : Ast) (s : State) (w : World) :
    Walk setup budget s w (setup.visits budget tree s w) ((setup.execute budget tree s).run w) := by
  cases tree with
  | whileStatement test body =>
    rw [execute, visits]
    exact walk_repeatWhile (walk_execute body) budget.iterations s w
  | block statements =>
    rw [execute, visits]
    exact walk_executeParts statements s w
  | _ => exact walk_single rfl s w

theorem walk_executeParts (tree : Ast) (s : State) (w : World) :
    Walk setup budget s w (setup.partVisits budget tree s w)
      ((setup.executeParts budget tree s).run w) := by
  cases tree with
  | list items =>
    rw [executeParts, partVisits]
    exact walk_executeAll items s w
  | scalar c =>
    cases c with
    | string t =>
      rw [executeParts]
      split
      · exact .done s w
      · exact .stopped _ s w
    | _ => exact .stopped _ s w
  | _ => exact .stopped _ s w

theorem walk_executeAll (items : List Ast) (s : State) (w : World) :
    Walk setup budget s w (setup.allVisits budget items s w)
      ((setup.executeAll budget items s).run w) := by
  cases items with
  | nil => exact .done s w
  | cons item items =>
    rw [executeAll, allVisits_cons]
    exact (walk_execute item s w).bind fun t v _ => walk_executeAll items t v

end

end Setup

end DynamicScope
