import DynamicScope.Proofs.Run.Parts
import DynamicScope.Proofs.Scoping.Stack

/-! How values are handed on.
A declaration, an assignment and a call bind the very values that they are given, and a name, a call,
a conditional, an array and a subscript answer the very values that they stand for. None of them
makes another object of it, and what else is bound in an environment is bound in its copies too. -/

namespace DynamicScope

open Machine

namespace Setup

variable (setup : Setup)

/-- Whether the second value is what some construct makes of the first one by handing it on. -/
inductive Passes : Value → Value → Prop
  /-- A declaration binds the value of its expression, whether or not the name is bound already. -/
  | declared {budget : Budget} {id part : Ast} {s t : State} {w₀ w u : World} {key : Name}
    {v v' : Value} (evaluated : (setup.evaluate budget.calls s.env part).run w₀ = .ok v w)
    (ran : (setup.execute budget (.variableDeclaration id part) s).run w₀ = .ok t u)
    (named : id.name?.bind Name.ofJson? = .ok key)
    (bound : (u.bindings t.env).value? key = some v') : Passes v v'
  | defined {budget : Budget} {id parameters body : Ast} {s t : State} {w u : World} {key : Name}
    {v' : Value}
    (ran : (setup.execute budget (.functionDeclaration id parameters body) s).run w = .ok t u)
    (named : id.name?.bind Name.ofJson? = .ok key)
    (bound : (u.bindings t.env).value? key = some v') :
    Passes (.function w.nextIdentity parameters body) v'
  | assigned {budget : Budget} {id part : Ast} {s t : State} {w₀ w u : World} {key : Name}
    {v v' : Value} (evaluated : (setup.evaluate budget.calls s.env part).run w₀ = .ok v w)
    (ran : (setup.execute budget (.assignment id part) s).run w₀ = .ok t u)
    (named : id.name?.bind Name.ofJson? = .ok key)
    (bound : (u.bindings t.env).value? key = some v') : Passes v v'
  | printed {budget : Budget} {part : Ast} {s t : State} {w₀ w u : World} {v v' : Value}
    (evaluated : (setup.evaluate budget.calls s.env part).run w₀ = .ok v w)
    (ran : (setup.execute budget (.printStatement part) s).run w₀ = .ok t u)
    (last : t.output.values.getLast? = some v') : Passes v v'
  | read {calls : Nat} {env : EnvRef} {name : Json} {key : Name} {w u : World} {v v' : Value}
    (named : Name.ofJson? name = .ok key) (bound : (w.bindings env).value? key = some v)
    (ran : (setup.evaluate calls env (.identifier name)).run w = .ok v' u) : Passes v v'
  /-- A call binds the arguments to the parameters. -/
  | passed {name : Json} {parameters : Ast} {vs : List Value} {frame : Frame} {env inner : EnvRef}
    {w u : World} {key : Name} {v v' : Value} (given : callBindings name parameters vs = .ok frame)
    (argument : frame.argument? key = some v)
    (entered : (setup.entrance name parameters vs env).run w = .ok inner u)
    (bound : (u.bindings inner).value? key = some v') : Passes v v'
  /-- A call answers what the body answers. -/
  | returned {calls : Nat} {env inner : EnvRef} {callee args body : Ast} {w w₁ w₂ u : World}
    {v v' : Value}
    (started : setup.Starts ⟨calls + 1, env, .call callee args, w⟩ ⟨calls, inner, body, w₁⟩)
    (answered : (setup.evaluate calls inner body).run w₁ = .ok v w₂)
    (ran : (setup.evaluate (calls + 1) env (.call callee args)).run w = .ok v' u) : Passes v v'
  | chosen {calls : Nat} {env : EnvRef} {test first second : Ast} {w w₁ w₂ u : World} {a : Value}
    {b : Bool} {v v' : Value} (decided : (setup.evaluate calls env test).run w = .ok a w₁)
    (truth : a.isTrue = .ok b)
    (evaluated : (setup.evaluate calls env (if b then first else second)).run w₁ = .ok v w₂)
    (ran : (setup.evaluate calls env (.conditional test first second)).run w = .ok v' u) :
    Passes v v'
  /-- An array has the values of the elements of its literal. -/
  | stored {calls : Nat} {env : EnvRef} {elements : Ast} {w w₁ u : World} {vs items : List Value}
    {i k : Nat} {v v' : Value}
    (evaluated : (setup.evaluateParts (setup.entering calls) env elements).run w = .ok vs w₁)
    (element : vs[k]? = some v)
    (ran : (setup.evaluate calls env (.arrayLiteral elements)).run w = .ok (.array i items) u)
    (item : items[k]? = some v') : Passes v v'
  | element {calls : Nat} {env : EnvRef} {array index : Ast} {w w₁ w₂ u : World}
    {items : List Value} {i k : Nat} {n : Number} {v v' : Value}
    (target : (setup.evaluate calls env array).run w = .ok (.array i items) w₁)
    (place : (setup.evaluate calls env index).run w₁ = .ok (.number n) w₂)
    (whole : n.toInt? = some (.ofNat k)) (item : items[k]? = some v)
    (ran : (setup.evaluate calls env (.subscript array index)).run w = .ok v' u) : Passes v v'
  /-- A declaration keeps what other names are bound to. -/
  | keptDeclaring {id : Ast} {value : Value} {s t : State} {w u : World} {key name : Name}
    {v v' : Value} (ran : (s.declare id value).run w = .ok t u)
    (named : id.name?.bind Name.ofJson? = .ok key) (other : key.key ≠ name.key)
    (bound : (w.bindings s.env).value? name = some v)
    (copied : (u.bindings t.env).value? name = some v') : Passes v v'
  /-- A call keeps what names other than the parameters are bound to. -/
  | keptCalling {name : Json} {parameters : Ast} {vs : List Value} {frame : Frame}
    {env inner : EnvRef} {w u : World} {key : Name} {v v' : Value}
    (given : callBindings name parameters vs = .ok frame) (other : frame.argument? key = none)
    (entered : (setup.entrance name parameters vs env).run w = .ok inner u)
    (bound : (w.bindings env).value? key = some v)
    (copied : (u.bindings inner).value? key = some v') : Passes v v'

variable {setup}

theorem store_of_record {level : Nat} {event : Unit → Except Failure Event} {w v : World}
    (ran : (record setup level event).run w = .ok () v) : v.store = w.store := by
  rw [run_record] at ran
  split at ran <;> cases ran <;> rfl

theorem bindings_of_declare {id : Ast} {value : Value} {s t : State} {w u : World} {key : Name}
    (ran : (s.declare id value).run w = .ok t u) (named : id.name?.bind Name.ofJson? = .ok key) :
    u.bindings t.env = (w.bindings s.env).insert key value := by
  unfold State.declare at ran
  rw [named, lift_ok_bind] at ran
  cases ran
  exact Store.bindings_new_self _ _

theorem bindings_of_entrance {name : Json} {parameters : Ast} {vs : List Value} {frame : Frame}
    {env inner : EnvRef} {w u : World} (given : callBindings name parameters vs = .ok frame)
    (entered : (setup.entrance name parameters vs env).run w = .ok inner u) :
    u.bindings inner = (w.bindings env).insertAll frame := by
  obtain ⟨_, v, traced, entered⟩ := of_bind_ok entered
  rw [run_callEnvironment, given] at entered
  cases entered
  rw [World.bindings, store_of_record traced]
  exact Store.bindings_new_self _ _

theorem bindings_of_assign {env : EnvRef} {name : Json} {value : Value} {w u : World} {key : Name}
    (ran : (assign env name value).run w = .ok () u) (named : Name.ofJson? name = .ok key) :
    u.bindings env = (w.bindings env).insert key value := by
  rw [run_assign, named] at ran
  dsimp only at ran
  split at ran
  · rename_i binds
    cases ran
    refine Store.bindings_overwrite_self _ _ _ _ (Nat.lt_of_not_le fun beyond => ?_)
    rw [Store.bindings, Array.getD_eq_getD_getElem?, Array.getElem?_eq_none beyond] at binds
    cases binds
  · cases ran

theorem eq_of_inserted {b : Bindings} {key : Name} {v v' : Value}
    (found : (b.insert key v).value? key = some v') : v' = v := by
  rw [Bindings.value?_insert, if_pos rfl] at found
  exact (Option.some.inj found).symm

theorem eq_of_returned {calls : Nat} {env inner : EnvRef} {callee args body : Ast}
    {w w₁ w₂ u : World} {v v' : Value}
    (started : setup.Starts ⟨calls + 1, env, .call callee args, w⟩ ⟨calls, inner, body, w₁⟩)
    (answered : (setup.evaluate calls inner body).run w₁ = .ok v w₂)
    (ran : (setup.evaluate (calls + 1) env (.call callee args)).run w = .ok v' u) : v' = v := by
  generalize same : (⟨calls, inner, body, w₁⟩ : Evaluation) = y at started
  cases started with
  | argument => cases same
  | body named found given entered =>
    cases same
    rw [evaluate_eq, evaluateWith, named, lift_ok_bind, run_bind_of_ok found,
      run_bind_of_ok given] at ran
    have called : (setup.entrance _ _ _ env).run _ = .ok inner w₁ := entered
    dsimp only at ran
    rw [call_function, run_bind_of_ok called] at ran
    exact (EStateM.Result.ok.inj (ran.symm.trans answered)).1

theorem Passes.eq {v v' : Value} (h : setup.Passes v v') : v' = v := by
  cases h with
  | declared evaluated ran named bound =>
    rw [execute, run_bind_of_ok evaluated] at ran
    obtain ⟨_, _, _, ran⟩ := of_bind_ok ran
    rw [bindings_of_declare ran named] at bound
    exact eq_of_inserted bound
  | defined ran named bound =>
    rw [execute] at ran
    obtain ⟨i, _, made, ran⟩ := of_bind_ok ran
    cases made
    dsimp only at ran
    obtain ⟨_, _, _, ran⟩ := of_bind_ok ran
    rw [bindings_of_declare ran named] at bound
    exact eq_of_inserted bound
  | assigned evaluated ran named bound =>
    rw [execute, run_bind_of_ok evaluated] at ran
    obtain ⟨name, _, answered, ran⟩ := of_bind_ok ran
    obtain ⟨found, rfl⟩ := of_lift_ok answered
    obtain ⟨_, _, changed, ran⟩ := of_bind_ok ran
    obtain ⟨_, _, traced, ran⟩ := of_bind_ok ran
    cases ran
    rw [found] at named
    rw [World.bindings, store_of_record traced, ← World.bindings,
      bindings_of_assign changed named] at bound
    exact eq_of_inserted bound
  | printed evaluated ran last =>
    rw [execute, run_bind_of_ok evaluated] at ran
    obtain ⟨_, _, _, ran⟩ := of_bind_ok ran
    cases ran
    rw [List.getLast?_concat] at last
    exact (Option.some.inj last).symm
  | read named bound ran =>
    rw [evaluate_eq, evaluateWith, Machine.read, run_bind_of_ok (run_lookup? named _)] at ran
    split at ran
    · rename_i present
      cases ran
      have found := Option.eq_some_of_filter_eq_some present
      exact Option.some.inj (found.symm.trans bound)
    · cases ran
  | passed given argument entered bound =>
    rw [bindings_of_entrance given entered, Bindings.value?_insertAll, argument] at bound
    exact (Option.some.inj bound).symm
  | returned started answered ran => exact eq_of_returned started answered ran
  | chosen decided truth evaluated ran =>
    rw [evaluate_conditional, run_bind_of_ok decided, truth, lift_ok_bind] at ran
    exact (EStateM.Result.ok.inj (ran.symm.trans evaluated)).1
  | stored evaluated element ran item =>
    rw [run_arrayLiteral, evaluated] at ran
    cases ran
    exact Option.some.inj (item.symm.trans element)
  | element target place whole item ran =>
    rw [evaluate_subscript, run_bind_of_ok target, run_bind_of_ok place] at ran
    obtain ⟨read, -⟩ := of_lift_ok ran
    injection read with same
    rw [Value.element, whole] at same
    dsimp only at same
    rw [← same, List.getD_eq_getElem?_getD, item]
    rfl
  | keptDeclaring ran named other bound copied =>
    rw [bindings_of_declare ran named, Bindings.value?_insert, if_neg other, bound] at copied
    exact (Option.some.inj copied).symm
  | keptCalling given other entered bound copied =>
    rw [bindings_of_entrance given entered, Bindings.value?_insertAll, other, Option.none_or,
      bound] at copied
    exact (Option.some.inj copied).symm

end Setup

end DynamicScope
