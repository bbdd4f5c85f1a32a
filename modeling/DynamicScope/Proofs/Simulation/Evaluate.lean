import DynamicScope.Proofs.Simulation.Basic

/-! Alike expressions evaluate alike.
The induction is on the tree and, for the bodies of functions, on the nested calls that are left. A
body is evaluated in an environment of its own; that the caller's environment is the same afterwards
is the growth of the world. -/

namespace DynamicScope

namespace Likeness

open Machine

variable {Stage : Type} [Preorder Stage] {r : Likeness Stage} {setup setup' : Setup} {κ : Stage}
  {env env' : EnvRef}

theorem Ends.outward {α α' : Type} {R : Stage → α → α' → Prop} {inner inner' : EnvRef}
    (laws : r.Simulates setup setup') {m : Machine α} {m' : Machine α'} {w w' : World}
    (linked : r.Linked κ env w env' w') (grows : Grows m) (grows' : Grows m')
    (h : r.Ends κ inner inner' R (m.run w) (m'.run w')) :
    r.Ends κ env env' R (m.run w) (m'.run w') := by
  have kept {κ' : Stage} {v v' : World} (up : κ ≤ κ') (left : w ≤ v) (right : w' ≤ v')
      (inside : r.Linked κ' inner v inner' v') : r.Linked κ' env v env' v' := by
    refine ⟨Nat.lt_of_lt_of_le linked.there (World.size_le left),
      Nat.lt_of_lt_of_le linked.there' (World.size_le right), ?_, inside.stores, inside.next,
      inside.trace⟩
    rw [World.bindings_eq left linked.there, World.bindings_eq right linked.there']
    exact laws.bindings_mono up linked.bindings
  have left := grows w
  have right := grows' w'
  unfold after at left right
  generalize m.run w = x at h left ⊢
  generalize m'.run w' = x' at h right ⊢
  cases h with
  | ok up related inside => exact .ok up related (kept up left right inside)
  | error up related inside => exact .error up related (kept up left right inside)

theorem Linked.new (laws : r.Simulates setup setup') {w w' : World} {b b' : Bindings}
    (linked : r.Linked κ env w env' w') (h : r.bindings κ b b') :
    r.Linked κ env { w with store := (w.store.new b).2 } env'
        { w' with store := (w'.store.new b').2 } ∧
      r.Linked κ (w.store.new b).1 { w with store := (w.store.new b).2 } (w'.store.new b').1
        { w' with store := (w'.store.new b').2 } := by
  have stores := laws.stores_new linked.stores h
  have left := w.le_new b
  have right := w'.le_new b'
  constructor
  · refine ⟨Nat.lt_of_lt_of_le linked.there (World.size_le left),
      Nat.lt_of_lt_of_le linked.there' (World.size_le right), ?_, stores, linked.next,
      linked.trace⟩
    rw [World.bindings_eq left linked.there, World.bindings_eq right linked.there']
    exact linked.bindings
  · refine ⟨by simp [World.size], by simp [World.size], ?_, stores, linked.next, linked.trace⟩
    simpa only [World.bindings, Store.bindings_new_self] using h

theorem Linked.rise (laws : r.Simulates setup setup') {w w' : World} {κ' : Stage} {n n' : Nat}
    (linked : r.Linked κ env w env' w') (up : κ ≤ κ') (next : r.next κ' n n') :
    r.Linked κ' env { w with nextIdentity := n } env' { w' with nextIdentity := n' } :=
  ⟨linked.there, linked.there', laws.bindings_mono up linked.bindings,
    laws.stores_mono up linked.stores, next, linked.trace⟩

omit [Preorder Stage] in
theorem Linked.traced {w w' : World} {trace trace' : Array Event}
    (linked : r.Linked κ env w env' w') (h : r.trace trace trace') :
    r.Linked κ env { w with trace } env' { w' with trace := trace' } :=
  ⟨linked.there, linked.there', linked.bindings, linked.stores, linked.next, h⟩

/-- Ways of evaluating bodies that add to worlds and make alike values of alike bodies. -/
structure Bodies (r : Likeness Stage) (enter enter' : BodyEvaluator) : Prop where
  grows (env : EnvRef) (body : Ast) : Grows (enter env body)
  grows' (env : EnvRef) (body : Ast) : Grows (enter' env body)
  alike (κ : Stage) (env env' : EnvRef) (body body' : Ast) : r.tree body body' →
    r.Pairs κ env env' r.value (enter env body) (enter' env' body')

section Steps

variable (laws : r.Simulates setup setup')

include laws

theorem pairs_record {level : Nat} {event event' : Unit → Except Failure Event}
    (h : r.Recorded κ level event event') :
    r.Pairs κ env env' (fun _ _ _ => True) (record setup level event)
      (record setup' level event') := by
  intro w w' linked
  rw [run_record, run_record]
  have both := laws.recorded h
  generalize recorded setup level event = x at both ⊢
  generalize recorded setup' level event' = x' at both ⊢
  cases both with
  | error related => exact .error (le_refl κ) related linked
  | @ok a b added =>
    have traced := added _ _ linked.trace
    cases a <;> cases b <;> exact .ok (le_refl κ) trivial (linked.traced traced)

theorem pairs_lookup? {name name' : Json} (h : r.name name name') :
    r.Pairs κ env env' (fun κ => Option.Rel (r.value κ)) (lookup? env name)
      (lookup? env' name') := by
  refine (Pairs.lift (R := fun _ => r.key) (laws.key h)).bind fun κ' key key' up same => ?_
  intro w w' linked
  exact .ok (le_refl κ') (laws.present linked.bindings same) linked

theorem pairs_read {name name' : Json} (h : r.name name name') :
    r.Pairs κ env env' r.value (read env name) (read env' name') := by
  refine Pairs.bind (pairs_lookup? laws h) fun κ' found found' up same => ?_
  cases same with
  | none => exact Pairs.throw (laws.undeclared h)
  | some related => exact Pairs.pure related

theorem pairs_array {vs vs' : List Value} (h : List.Forall₂ (r.value κ) vs vs') :
    r.Pairs κ env env' r.value (do return .array (← freshIdentity) vs)
      (do return .array (← freshIdentity) vs') := by
  intro w w' linked
  obtain ⟨κ', up, next, related⟩ := laws.array linked.next h
  exact .ok up related (linked.rise laws up next)

theorem pairs_callBuiltin {i i' : Nat} {f f' : Builtin} {vs vs' : List Value}
    (h : r.value κ (.builtin i f) (.builtin i' f')) (given : List.Forall₂ (r.value κ) vs vs') :
    r.Pairs κ env env' r.value (setup.callBuiltin f vs) (setup'.callBuiltin f' vs') := by
  intro w w' linked
  rw [Setup.run_callBuiltin, Setup.run_callBuiltin]
  have both := laws.answer h linked.next given
  generalize setup.answer f w.nextIdentity vs = x at both ⊢
  generalize setup'.answer f' w'.nextIdentity vs' = x' at both ⊢
  cases both with
  | error related => exact .error (le_refl κ) related linked
  | ok related =>
    obtain ⟨κ', up, next, related⟩ := related
    exact .ok up related (linked.rise laws up next)

theorem alike_callBindings {name name' : Json} {parameters parameters' : Ast}
    {vs vs' : List Value} (named : r.name name name')
    (counted : Alike Eq r.failure parameters.count? parameters'.count?)
    (parameterNames : Alike (List.Forall₂ r.name) r.failure
      parameters.parameterNames parameters'.parameterNames)
    (given : List.Forall₂ (r.value κ) vs vs') :
    Alike (fun others others' => ∀ κ', κ ≤ κ' → ∀ b b', r.bindings κ' b b' →
        r.bindings κ' (b.insertAll others) (b'.insertAll others')) r.failure
      (callBindings name parameters vs) (callBindings name' parameters' vs') := by
  refine counted.bind fun expected expected' same => ?_
  subst same
  have length := given.length_eq
  by_cases fits : vs.length = expected
  · rw [if_pos fits, if_pos (length ▸ fits)]
    refine parameterNames.bind fun names names' alike => ?_
    refine (Alike.mapM alike fun _ _ => laws.key).bind fun keys keys' same => ?_
    exact .ok fun κ' up b b' h =>
      laws.overlay h same (given.imp fun _ _ => laws.value_mono up)
  · rw [if_neg fits, if_neg (length ▸ fits), length]
    exact .error (laws.arity _ _ named)

theorem pairs_enter {enter enter' : BodyEvaluator} (bodies : r.Bodies enter enter')
    {body body' : Ast} {others others' : List (Name × Value)} (h : r.tree body body')
    (overlaid : ∀ b b', r.bindings κ b b' →
      r.bindings κ (b.insertAll others) (b'.insertAll others')) :
    r.Pairs κ env env' r.value (merged env others >>= fun inner => enter inner body)
      (merged env' others' >>= fun inner => enter' inner body') := by
  intro w w' linked
  obtain ⟨outer, inner⟩ := linked.new laws (overlaid _ _ linked.bindings)
  have ended := bodies.alike _ _ _ body body' h _ _ inner
  have seen := Ends.outward laws outer (bodies.grows _ body) (bodies.grows' _ body') ended
  exact seen

theorem pairs_call {enter enter' : BodyEvaluator} (bodies : r.Bodies enter enter')
    {name name' : Json} {f f' : Value} {vs vs' : List Value} (named : r.name name name')
    (same : r.value κ f f')    (given : List.Forall₂ (r.value κ) vs vs') :
    r.Pairs κ env env' r.value (setup.call enter name f vs env)
      (setup'.call enter' name' f' vs' env') := by
  have recorded : r.Pairs κ env env' (fun _ _ _ => True)
      (record setup 2 fun _ => do return .call (← name.plainText) (← Value.toTextAll vs))
      (record setup' 2 fun _ => do return .call (← name'.plainText) (← Value.toTextAll vs')) :=
    pairs_record laws (.call named given)
  cases laws.called same with
  | builtin i i' f f' =>
    refine recorded.bind fun κ' _ _ up _ => ?_
    exact pairs_callBuiltin laws (laws.value_mono up same)
      (given.imp fun _ _ => laws.value_mono up)
  | function counted parameterNames h =>
    refine recorded.bind fun κ' _ _ up _ => ?_
    simp only [callEnvironment_eq, bind_assoc]
    have bound := alike_callBindings laws named counted parameterNames
      (given.imp fun _ _ => laws.value_mono up)
    refine (Pairs.lift (R := fun _ others others' => ∀ κ'', κ' ≤ κ'' → ∀ b b',
      r.bindings κ'' b b' → r.bindings κ'' (b.insertAll others) (b'.insertAll others')) bound).bind
        fun κ'' others others' up' overlaid => ?_
    exact pairs_enter laws bodies h (overlaid κ'' up')
  | other none none' h =>
    rw [setup.call_of_kind_ne _ _ _ _ none, setup'.call_of_kind_ne _ _ _ _ none']
    exact recorded.bind fun κ' _ _ up _ => Pairs.throw (h _ _ named)

end Steps

variable {enter enter' : BodyEvaluator}

mutual

/-- Alike trees have alike values, or fail alike. -/
theorem pairs_evaluateWith (laws : r.Simulates setup setup')
    (bodies : r.Bodies enter enter') (κ : Stage) (env env' : EnvRef) (tree tree' : Ast)
    (h : r.tree tree tree') :
    r.Pairs κ env env' r.value (setup.evaluateWith enter env tree)
      (setup'.evaluateWith enter' env' tree') := by
  cases laws.expression h with
  | numeral same =>
    rw [Setup.evaluateWith, Setup.evaluateWith]
    refine (Pairs.lift (R := fun κ x y => r.value κ (.double x) (.double y)) (same κ)).bind
      fun κ' x y up related => ?_
    exact Pairs.pure related
  | booleanLiteral b => exact Pairs.pure (laws.boolean κ b)
  | identifier named => exact pairs_read laws named
  | @unary _ _ part part' op same =>
    rw [Setup.evaluateWith, Setup.evaluateWith]
    have operand := pairs_evaluateWith laws bodies κ env env' part part' same
    exact operand.bind fun κ' v v' up related => Pairs.lift (laws.unary op related)
  | @binary _ _ left left' right right' op first second =>
    rw [Setup.evaluateWith, Setup.evaluateWith]
    have firstOperand := pairs_evaluateWith laws bodies κ env env' left left' first
    refine firstOperand.bind fun κ' a a' up relatedLeft => ?_
    have secondOperand := pairs_evaluateWith laws bodies κ' env env' right right' second
    refine secondOperand.bind fun κ'' b b' up' relatedRight => ?_
    have lifted := laws.value_mono up' relatedLeft
    refine (pairs_record laws (.binary lifted op relatedRight)).bind
      fun κ₃ _ _ up'' _ => ?_
    exact Pairs.lift (laws.binary op (laws.value_mono up'' lifted)
      (laws.value_mono up'' relatedRight))
  | @conditional test test' whenTrue whenTrue' whenFalse whenFalse' chosen first second =>
    rw [Setup.evaluateWith, Setup.evaluateWith]
    have condition := pairs_evaluateWith laws bodies κ env env' test test' chosen
    refine condition.bind fun κ' v v' up related => ?_
    refine (Pairs.lift (R := fun _ => Eq) (laws.isTrue related)).bind fun κ'' b b' up' same => ?_
    subst same
    cases b with
    | true => exact pairs_evaluateWith laws bodies κ'' env env' whenTrue whenTrue' first
    | false => exact pairs_evaluateWith laws bodies κ'' env env' whenFalse whenFalse' second
  | @arrayLiteral elements elements' same =>
    rw [Setup.evaluateWith, Setup.evaluateWith]
    have items := pairs_evaluateParts laws bodies κ env env' elements elements' same
    exact items.bind fun κ' vs vs' up related => pairs_array laws related
  | @subscript array array' index index' first second =>
    rw [Setup.evaluateWith, Setup.evaluateWith]
    have target := pairs_evaluateWith laws bodies κ env env' array array' first
    refine target.bind fun κ' a a' up relatedArray => ?_
    have place := pairs_evaluateWith laws bodies κ' env env' index index' second
    exact place.bind fun κ'' b b' up' relatedIndex =>
      Pairs.lift (laws.subscript (laws.value_mono up' relatedArray) relatedIndex)
  | @call callee callee' args args' named same =>
    rw [Setup.evaluateWith, Setup.evaluateWith]
    refine (Pairs.lift (R := fun _ => r.name) named).bind fun κ' name name' up named => ?_
    refine (pairs_lookup? laws named).bind fun κ'' found found' up' relatedFound => ?_
    have arguments := pairs_evaluateParts laws bodies κ'' env env' args args' same
    refine arguments.bind fun κ₃ vs vs' up'' given => ?_
    cases relatedFound with
    | none => exact Pairs.throw (laws.undeclared named)
    | some related =>
      exact pairs_call laws bodies named (laws.value_mono up'' related) given
  | other none none' same =>
    rw [setup.evaluateWith_of_not_isExpression _ _ none,
      setup'.evaluateWith_of_not_isExpression _ _ none']
    exact Pairs.throw same

theorem pairs_evaluateParts (laws : r.Simulates setup setup')
    (bodies : r.Bodies enter enter') (κ : Stage) (env env' : EnvRef) (tree tree' : Ast)
    (h : r.Parts r.tree .notAnExpression tree tree') :
    r.Pairs κ env env' (fun κ => List.Forall₂ (r.value κ)) (setup.evaluateParts enter env tree)
      (setup'.evaluateParts enter' env' tree') := by
  cases h with
  | @list items items' same =>
    rw [Setup.evaluateParts, Setup.evaluateParts]
    exact pairs_evaluateAll laws bodies κ env env' items items' same
  | other none none' same =>
    rw [setup.evaluateParts_of_ne_list _ _ none, setup'.evaluateParts_of_ne_list _ _ none']
    exact (Pairs.lift (R := fun _ _ _ => True) same).bind fun κ' _ _ up _ => Pairs.pure .nil

theorem pairs_evaluateAll (laws : r.Simulates setup setup')
    (bodies : r.Bodies enter enter') (κ : Stage) (env env' : EnvRef) (items items' : List Ast)
    (h : List.Forall₂ r.tree items items') :
    r.Pairs κ env env' (fun κ => List.Forall₂ (r.value κ)) (setup.evaluateAll enter env items)
      (setup'.evaluateAll enter' env' items') := by
  match items, items', h with
  | [], [], .nil => exact Pairs.pure .nil
  | item :: items, item' :: items', .cons head tail =>
    rw [Setup.evaluateAll, Setup.evaluateAll]
    have first := pairs_evaluateWith laws bodies κ env env' item item' head
    refine first.bind fun κ' v v' up related => ?_
    have rest := pairs_evaluateAll laws bodies κ' env env' items items' tail
    exact rest.bind fun κ'' vs vs' up' others =>
      Pairs.pure (.cons (laws.value_mono up' related) others)

end

theorem pairs_evaluate (laws : r.Simulates setup setup') (calls : Nat) (κ : Stage)
    (env env' : EnvRef) (tree tree' : Ast) (h : r.tree tree tree') :
    r.Pairs κ env env' r.value (setup.evaluate calls env tree)
      (setup'.evaluate calls env' tree') := by
  induction calls generalizing κ env env' tree tree' with
  | zero =>
    have ended (env : EnvRef) (body : Ast) :
        Grows ((fun _ _ => throw .exhausted : BodyEvaluator) env body) := grows_throw _
    have bodies : r.Bodies (fun _ _ => throw .exhausted) (fun _ _ => throw .exhausted) :=
      ⟨ended, ended, fun _ _ _ _ _ _ => Pairs.throw laws.exhausted⟩
    exact pairs_evaluateWith laws bodies κ env env' tree tree' h
  | succ calls ih =>
    have bodies : r.Bodies (setup.evaluate calls) (setup'.evaluate calls) :=
      ⟨setup.grows_evaluate calls, setup'.grows_evaluate calls, ih⟩
    exact pairs_evaluateWith laws bodies κ env env' tree tree' h

end Likeness

end DynamicScope
