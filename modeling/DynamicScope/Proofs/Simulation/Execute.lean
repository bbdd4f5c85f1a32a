import DynamicScope.Proofs.Run.Frame
import DynamicScope.Proofs.Simulation.Evaluate

/-! Alike statements execute alike.
Both runs use the same places for their environments, so that an assignment changes alike bindings
in both. A loop checks its condition in the environment it started with, which need not be the one
its body has come to; that is why all environments are compared and not only the current ones. -/

namespace DynamicScope

namespace Ast

def isStatement : Ast → Bool
  | .variableDeclaration .. | .functionDeclaration .. | .assignment .. | .printStatement _
  | .whileStatement .. | .block _ => true
  | _ => false

end Ast

def Output.array (o : Output) : Value := .array o.identity o.values

namespace Setup

variable (setup : Setup) (budget : Budget)

theorem execute_of_not_isStatement {tree : Ast} (h : tree.isStatement = false) (s : State) :
    setup.execute budget tree s = throw (.notAStatement tree.qualifiedClass) := by
  cases tree <;> first | rfl | cases h

theorem executeParts_of_ne_list {tree : Ast} (h : ∀ items, tree ≠ .list items) (s : State) :
    setup.executeParts budget tree s = (do
      Machine.lift (tree.noParts .notAStatement)
      return s) := by
  cases tree with
  | list items => exact absurd rfl (h items)
  | scalar c =>
    cases c with
    | string t =>
      rw [executeParts, Ast.noParts]
      split <;> rfl
    | _ => rfl
  | _ => rfl

end Setup

variable {Stage : Type}

/-- When the parts of two executions are alike: also their statements, the names that statements
assign to, and their outputs. -/
structure Conduct (Stage : Type) extends Likeness Stage where
  statement : Ast → Ast → Prop
  target : Json → Json → Prop
  output : Stage → Output → Output → Prop

namespace Likeness

structure Lockstep (r : Likeness Stage) (κ : Stage) (s s' : Store) : Prop where
  size : s.environments.size = s'.environments.size
  bindings : ∀ env < s.environments.size, r.bindings κ (s.bindings env) (s'.bindings env)

theorem Lockstep.new {r : Likeness Stage} {κ : Stage} {s s' : Store} {b b' : Bindings}
    (h : r.Lockstep κ s s') (same : r.bindings κ b b') :
    r.Lockstep κ (s.new b).2 (s'.new b').2 := by
  have size := h.size
  refine ⟨by rw [Store.size_new, Store.size_new, size], fun env there => ?_⟩
  rcases Store.lt_or_eq_of_lt_new there with old | rfl
  · rw [Store.bindings_new_of_lt s b env old, Store.bindings_new_of_lt s' b' env (size ▸ old)]
    exact h.bindings env old
  · have last := Store.bindings_new_self s' b'
    rw [Store.place_new, ← size] at last
    rw [last]
    exact (Store.bindings_new_self s b).symm ▸ same

theorem Lockstep.overwrite {r : Likeness Stage} {κ : Stage} {s s' : Store} {env : EnvRef}
    {key key' : Name} {v v' : Value} (h : r.Lockstep κ s s') (there : env < s.environments.size)
    (same : r.bindings κ ((s.bindings env).insert key v) ((s'.bindings env).insert key' v')) :
    r.Lockstep κ (s.overwrite env key v) (s'.overwrite env key' v') := by
  have size := h.size
  refine ⟨by simp [size], fun other there' => ?_⟩
  by_cases changed : other = env
  · subst changed
    rw [Store.bindings_overwrite_self _ _ _ _ there,
      Store.bindings_overwrite_self _ _ _ _ (size ▸ there)]
    exact same
  · rw [Store.bindings_overwrite_of_ne _ _ _ _ _ changed,
      Store.bindings_overwrite_of_ne _ _ _ _ _ changed]
    exact h.bindings other (by simpa using there')

theorem pairs_condition [Preorder Stage] {r : Likeness Stage} {setup setup' : Setup} {κ : Stage}
    (laws : r.Simulates setup setup') (budget : Budget) {env env' : EnvRef} {test test' : Ast}
    (h : r.tree test test') :
    r.Pairs κ env env' (fun _ => Eq) (setup.condition budget env test)
      (setup'.condition budget env' test') := by
  refine (pairs_evaluate laws budget.calls κ env env' test test' h).bind
    fun κ' v v' up related => ?_
  refine (pairs_record laws (.condition related)).bind fun κ'' _ _ up' _ => ?_
  exact Pairs.lift (R := fun _ => Eq) (laws.isTrue (laws.value_mono up' related))

end Likeness

namespace Conduct

open Machine Likeness

inductive Statement [LE Stage] (c : Conduct Stage) : Ast → Ast → Prop
  | variableDeclaration {id id' part part' : Ast}
    (named : Alike c.name c.failure id.name? id'.name?) (h : c.tree part part') :
    Statement c (.variableDeclaration id part) (.variableDeclaration id' part')
  | functionDeclaration {id id' parameters parameters' body body' : Ast}
    (named : Alike c.name c.failure id.name? id'.name?)
    (made : ∀ κ n n', c.next κ n n' → ∃ κ', κ ≤ κ' ∧ c.next κ' (n + 1) (n' + 1) ∧
      c.value κ' (.function n parameters body) (.function n' parameters' body')) :
    Statement c (.functionDeclaration id parameters body)
      (.functionDeclaration id' parameters' body')
  | assignment {id id' part part' : Ast} (named : Alike c.target c.failure id.name? id'.name?)
    (h : c.tree part part') : Statement c (.assignment id part) (.assignment id' part')
  | printStatement {part part' : Ast} (h : c.tree part part') :
    Statement c (.printStatement part) (.printStatement part')
  | whileStatement {test test' body body' : Ast} (checked : c.tree test test')
    (h : c.statement body body') :
    Statement c (.whileStatement test body) (.whileStatement test' body')
  | block {statements statements' : Ast}
    (h : c.Parts c.statement .notAStatement statements statements') :
    Statement c (.block statements) (.block statements')
  | other {tree tree' : Ast} (none : tree.isStatement = false) (none' : tree'.isStatement = false)
    (h : c.failure (.notAStatement tree.qualifiedClass) (.notAStatement tree'.qualifiedClass)) :
    Statement c tree tree'

/-- What makes two executions stay alike, where the environments of both have the same places. -/
structure Executes [Preorder Stage] (c : Conduct Stage) (setup setup' : Setup) : Prop
    extends c.toLikeness.Simulates setup setup' where
  stores {κ : Stage} {s s' : Store} : c.stores κ s s' ↔ c.Lockstep κ s s'
  statement {tree tree' : Ast} : c.statement tree tree' → c.Statement tree tree'
  named {name name' : Json} : c.target name name' → c.name name name'
  binds {κ : Stage} {b b' : Bindings} {name name' : Json} {key key' : Name} :
    c.bindings κ b b' → c.target name name' → Name.ofJson? name = .ok key →
      Name.ofJson? name' = .ok key' → b.binds key = b'.binds key'
  unassigned {name name' : Json} : c.target name name' →
    c.failure (Fault.assignmentToUndeclared name).raised (Fault.assignmentToUndeclared name').raised
  output_mono {κ κ' : Stage} {o o' : Output} (h : κ ≤ κ') : c.output κ o o' → c.output κ' o o'
  printed {κ : Stage} {n n' : Nat} {o o' : Output} {v v' : Value} :
    c.next κ n n' → c.output κ o o' → c.value κ v v' →
      ∃ κ', κ ≤ κ' ∧ c.next κ' (n + 1) (n' + 1) ∧
        c.output κ' ⟨n, o.values ++ [v]⟩ ⟨n', o'.values ++ [v']⟩

variable [Preorder Stage] {c : Conduct Stage} {setup setup' : Setup} {κ : Stage} {s s' : State}
  {w w' : World}

/-- Two states with the same environment, which is alike in their worlds, as the outputs are. -/
structure Joined (c : Conduct Stage) (κ : Stage) (s : State) (w : World) (s' : State)
    (w' : World) : Prop where
  env : s.env = s'.env
  linked : c.Linked κ s.env w s.env w'
  output : c.output κ s.output s'.output

/-- Executions that both return or both fail, with worlds that are alike at some stage. -/
inductive Halts (c : Conduct Stage) (κ : Stage) : EStateM.Result Failure World State →
    EStateM.Result Failure World State → Prop
  | ok {κ' : Stage} {t t' : State} {v v' : World} (up : κ ≤ κ') (joined : c.Joined κ' t v t' v') :
    Halts c κ (.ok t v) (.ok t' v')
  | error {κ' : Stage} {e e' : Failure} {v v' : World} (up : κ ≤ κ') (h : c.failure e e')
    (stores : c.stores κ' v.store v'.store) (next : c.next κ' v.nextIdentity v'.nextIdentity)
    (trace : c.trace v.trace v'.trace) : Halts c κ (.error e v) (.error e' v')

theorem Halts.rise {κ' : Stage} {x x' : EStateM.Result Failure World State} (up : κ ≤ κ')
    (h : c.Halts κ' x x') : c.Halts κ x x' := by
  cases h with
  | ok up' joined => exact .ok (le_trans up up') joined
  | error up' related stores next trace => exact .error (le_trans up up') related stores next trace

theorem Joined.fails {e e' : Failure} (joined : c.Joined κ s w s' w') (h : c.failure e e') :
    c.Halts κ (.error e w) (.error e' w') :=
  .error (le_refl κ) h joined.linked.stores joined.linked.next joined.linked.trace

theorem Halts.throw {e e' : Failure} (h : c.failure e e') (joined : c.Joined κ s w s' w') :
    c.Halts κ ((throw e : Machine State).run w) ((throw e' : Machine State).run w') :=
  joined.fails h

theorem Halts.after {α α' : Type} {R : Stage → α → α' → Prop} {m : Machine α} {m' : Machine α'}
    {f : α → Machine State} {f' : α' → Machine State} (laws : c.Executes setup setup')
    (joined : c.Joined κ s w s' w') (first : c.Ends κ s.env s.env R (m.run w) (m'.run w'))
    (rest : ∀ κ' a a' v v', m.run w = .ok a v → κ ≤ κ' → R κ' a a' → c.Joined κ' s v s' v' →
      c.Halts κ' ((f a).run v) ((f' a').run v')) :
    c.Halts κ ((m >>= f).run w) ((m' >>= f').run w') := by
  rw [EStateM.run_bind, EStateM.run_bind]
  generalize m.run w = x at first rest ⊢
  generalize m'.run w' = x' at first ⊢
  cases first with
  | ok up related linked =>
    have onward := rest _ _ _ _ _ rfl up related
      ⟨joined.env, linked, laws.output_mono up joined.output⟩
    exact onward.rise up
  | error up related linked =>
    exact .error up related linked.stores linked.next linked.trace

theorem Halts.recorded {event event' : Unit → Except Failure Event} {m m' : Machine State}
    (laws : c.Executes setup setup') (joined : c.Joined κ s w s' w')
    (h : c.Recorded κ 2 event event')
    (rest : ∀ κ' v v', κ ≤ κ' → c.Joined κ' s v s' v' → c.Halts κ' (m.run v) (m'.run v')) :
    c.Halts κ ((record setup 2 event >>= fun _ => m).run w)
      ((record setup' 2 event' >>= fun _ => m').run w') :=
  Halts.after laws joined (pairs_record laws.toSimulates h w w' joined.linked)
    fun κ' _ _ v v' _ up _ joined => rest κ' v v' up joined

omit [Preorder Stage] in
theorem run_declaration_of_nameless {id : Ast} {e : Failure} (h : id.name? = .error e)
    (setup : Setup) (event : Json → Except Failure Event) (s : State) (v : Value) (w : World) :
    (record setup 2 (fun _ => id.name? >>= event) >>= fun _ => s.declare id v).run w =
      .error e w := by
  rw [EStateM.run_bind, run_record, recorded, h]
  by_cases shown : 2 ≤ setup.level
  · rw [if_pos shown]
    rfl
  · rw [if_neg shown]
    unfold State.declare
    rw [h]
    rfl

theorem Halts.trans {m m' : Machine State} {f f' : State → Machine State}
    (first : c.Halts κ (m.run w) (m'.run w'))
    (rest : ∀ κ' t t' v v', m.run w = .ok t v → c.Joined κ' t v t' v' →
      c.Halts κ' ((f t).run v) ((f' t').run v')) :
    c.Halts κ ((m >>= f).run w) ((m' >>= f').run w') := by
  rw [EStateM.run_bind, EStateM.run_bind]
  generalize m.run w = x at first rest ⊢
  generalize m'.run w' = x' at first ⊢
  cases first with
  | ok up joined => exact (rest _ _ _ _ _ rfl joined).rise up
  | error up related stores next trace => exact .error up related stores next trace

section Steps

variable (laws : c.Executes setup setup') (budget : Budget)

include laws

theorem Joined.elsewhere {env : EnvRef} (joined : c.Joined κ s w s' w') (there : env < w.size) :
    c.Linked κ env w env w' := by
  have lockstep := laws.stores.mp joined.linked.stores
  exact ⟨there, Nat.lt_of_lt_of_eq there lockstep.size, lockstep.bindings env there,
    joined.linked.stores, joined.linked.next, joined.linked.trace⟩

theorem halts_declare {id id' : Ast} {v v' : Value} (joined : c.Joined κ s w s' w')
    (named : Alike c.name c.failure id.name? id'.name?) (h : c.value κ v v') :
    c.Halts κ ((s.declare id v).run w) ((s'.declare id' v').run w') := by
  unfold State.declare
  have keys : Alike c.key c.failure (id.name?.bind Name.ofJson?) (id'.name?.bind Name.ofJson?) :=
    named.bind fun _ _ => laws.key
  refine Halts.after laws joined
    (Pairs.lift (R := fun _ => c.key) keys _ _ joined.linked)
    fun κ' key key' u u' _ up same joined => ?_
  obtain ⟨env, output⟩ := s
  obtain ⟨env', output'⟩ := s'
  obtain ⟨rfl, linked, printed⟩ := joined
  have overlaid := laws.overlay linked.bindings (.cons same .nil)
    (.cons (laws.value_mono up h) .nil)
  obtain ⟨-, inner⟩ := linked.new laws.toSimulates overlaid
  have size : u.size = u'.size := (laws.stores.mp linked.stores).size
  have placed : c.Linked κ' u.size _ u'.size _ := inner
  rw [← size] at placed
  exact .ok (le_refl κ') ⟨size, placed, printed⟩

theorem halts_declaration {id id' : Ast} {event event' : Json → Except Failure Event}
    {v v' : Value} (joined : c.Joined κ s w s' w')
    (named : Alike c.name c.failure id.name? id'.name?) (h : c.value κ v v')
    (shown : ∀ name name', c.name name name' →
      c.Recorded κ 2 (fun _ => event name) (fun _ => event' name')) :
    c.Halts κ ((record setup 2 (fun _ => id.name? >>= event) >>= fun _ => s.declare id v).run w)
      ((record setup' 2 (fun _ => id'.name? >>= event') >>= fun _ => s'.declare id' v').run w') := by
  have declared (κ' : Stage) (u u' : World) (up : κ ≤ κ') (joined : c.Joined κ' s u s' u') :
      c.Halts κ' ((s.declare id v).run u) ((s'.declare id' v').run u') :=
    halts_declare laws joined named (laws.value_mono up h)
  cases read : id.name? with
  | ok name =>
    cases read' : id'.name? with
    | ok name' =>
      rw [read, read'] at named
      cases named with
      | ok related => exact Halts.recorded laws joined (shown name name' related) declared
    | error e' =>
      rw [read, read'] at named
      cases named
  | error e =>
    cases read' : id'.name? with
    | ok name' =>
      rw [read, read'] at named
      cases named
    | error e' =>
      rw [read, read'] at named
      cases named with
      | error related =>
        rw [← read, ← read', run_declaration_of_nameless read, run_declaration_of_nameless read']
        exact joined.fails related

theorem pairs_assign {env : EnvRef} {name name' : Json} {v v' : Value} (named : c.target name name')
    (h : c.value κ v v') :
    c.Pairs κ env env (fun _ _ _ => True) (assign env name v) (assign env name' v') := by
  intro w w' linked
  rw [run_assign, run_assign]
  have keys := laws.key (laws.named named)
  have both (key key' : Name) : Name.ofJson? name = .ok key → Name.ofJson? name' = .ok key' →
      (w.bindings env).binds key = (w'.bindings env).binds key' :=
    laws.binds linked.bindings named
  generalize Name.ofJson? name = x at keys both ⊢
  generalize Name.ofJson? name' = x' at keys both ⊢
  cases keys with
  | error related => exact .error (le_refl κ) related linked
  | @ok key key' same =>
    have both := both key key' rfl rfl
    simp only [World.bindings] at both
    simp only [← both]
    cases (w.store.bindings env).binds key with
    | false => exact .error (le_refl κ) (laws.unassigned named) linked
    | true =>
      have written := laws.overlay linked.bindings (.cons same .nil) (.cons h .nil)
      have lockstep := (laws.stores.mp linked.stores).overwrite linked.there written
      refine .ok (le_refl κ) trivial
        ⟨?_, ?_, ?_, laws.stores.mpr lockstep, linked.next, linked.trace⟩
      · simpa [World.size] using linked.there
      · simpa [World.size] using linked.there'
      · exact lockstep.bindings env (by simpa using linked.there)

theorem halts_print {v v' : Value} (joined : c.Joined κ s w s' w') (h : c.value κ v v') :
    c.Halts κ ((s.print v).run w) ((s'.print v').run w') := by
  unfold State.print
  obtain ⟨κ', up, next, related⟩ := laws.printed joined.linked.next joined.output h
  exact .ok up ⟨joined.env, joined.linked.rise laws.toSimulates up next, related⟩

theorem halts_repeatWhile {env : EnvRef} {test test' body body' : Ast} (h : c.tree test test')
    (each : ∀ κ s s' w w', c.Joined κ s w s' w' →
      c.Halts κ ((setup.execute budget body s).run w) ((setup'.execute budget body' s').run w'))
    (iterations : Nat) (joined : c.Joined κ s w s' w') (there : env < w.size) :
    c.Halts κ
      ((repeatWhile (setup.condition budget env test) (setup.execute budget body)
        iterations s).run w)
      ((repeatWhile (setup'.condition budget env test') (setup'.execute budget body')
        iterations s').run w') := by
  induction iterations generalizing κ s s' w w' with
  | zero => exact Halts.throw laws.exhausted joined
  | succ iterations ih =>
    have grows := setup.grows_condition budget env test
    have checked := Ends.outward laws.toSimulates joined.linked grows
      (setup'.grows_condition budget env test')
      (pairs_condition laws.toSimulates budget h w w' (joined.elsewhere laws there))
    rw [repeatWhile, repeatWhile]
    refine Halts.after laws joined checked
      fun κ' again again' v v' ran up same joined => ?_
    subst same
    have there' : env < v.size :=
      Nat.lt_of_lt_of_le there (World.size_le (grows.le_of_ok ran))
    cases again with
    | false => exact .ok (le_refl κ') joined
    | true =>
      refine (each κ' s s' v v' joined).trans fun κ'' t t' u u' executed joined' => ?_
      have framed := setup.framed_execute budget body s v joined.linked.there
      rw [executed] at framed
      cases framed with
      | ok altered _ _ => exact ih joined' (Nat.lt_of_lt_of_le there' altered.size)

end Steps

mutual

/-- Alike trees leave alike states and worlds, or fail alike. -/
theorem halts_execute (laws : c.Executes setup setup') (budget : Budget) (κ : Stage)
    (tree tree' : Ast) (h : c.statement tree tree') (s s' : State) (w w' : World) (joined : c.Joined κ s w s' w') :
    c.Halts κ ((setup.execute budget tree s).run w) ((setup'.execute budget tree' s').run w') := by
  have evaluated (part part' : Ast) (h : c.tree part part') :
      c.Ends κ s.env s.env c.value ((setup.evaluate budget.calls s.env part).run w)
        ((setup'.evaluate budget.calls s'.env part').run w') :=
    joined.env ▸ pairs_evaluate laws.toSimulates budget.calls κ s.env s.env part part' h w w'
      joined.linked
  cases laws.statement h with
  | @variableDeclaration id id' part part' named same =>
    rw [Setup.execute, Setup.execute]
    refine Halts.after laws joined (evaluated part part' same)
      fun κ' v v' _ _ _ up related joined => ?_
    exact halts_declaration laws joined named related fun _ _ named => .declaration named related
  | @functionDeclaration id id' parameters parameters' body body' named made =>
    rw [Setup.execute, Setup.execute]
    obtain ⟨κ', up, next, related⟩ := made κ _ _ joined.linked.next
    have risen := joined.linked.rise laws.toSimulates up next
    refine Halts.after laws joined
      (R := fun κ n n' => c.value κ (.function n parameters body) (.function n' parameters' body'))
      (.ok up related risen) fun κ' n n' _ _ _ up related joined => ?_
    exact halts_declaration laws joined named related fun _ _ named => .definition named related
  | @assignment id id' part part' named same =>
    rw [Setup.execute, Setup.execute]
    refine Halts.after laws joined (evaluated part part' same)
      fun κ' v v' u u' _ up related joined => ?_
    refine Halts.after laws joined
      (Pairs.lift (R := fun _ => c.target) named u u' joined.linked)
      fun κ₂ name name' u₂ u₂' _ up' named joined => ?_
    have lifted := laws.value_mono up' related
    have assigned : c.Ends κ₂ s.env s.env (fun _ _ _ => True)
        ((assign s.env name v).run u₂) ((assign s'.env name' v').run u₂') :=
      joined.env ▸ pairs_assign laws named lifted u₂ u₂' joined.linked
    refine Halts.after laws joined assigned
      fun κ₃ _ _ _ _ _ up'' _ joined => ?_
    exact Halts.recorded laws joined (.assignment (laws.named named) (laws.value_mono up'' lifted))
      fun κ₄ _ _ _ joined => .ok (le_refl κ₄) joined
  | @printStatement part part' same =>
    rw [Setup.execute, Setup.execute]
    refine Halts.after laws joined (evaluated part part' same)
      fun κ' v v' _ _ _ up related joined => ?_
    refine Halts.recorded laws joined (.print related) fun κ'' _ _ up' joined => ?_
    exact halts_print laws joined (laws.value_mono up' related)
  | @whileStatement test test' body body' checked same =>
    rw [Setup.execute, Setup.execute, ← joined.env]
    have each (κ : Stage) (s s' : State) (w w' : World) (joined : c.Joined κ s w s' w') :=
      halts_execute laws budget κ body body' same s s' w w' joined
    exact halts_repeatWhile laws budget checked each budget.iterations joined joined.linked.there
  | @block statements statements' same =>
    rw [Setup.execute, Setup.execute]
    exact halts_executeParts laws budget κ statements statements' same s s' w w' joined
  | other none none' same =>
    rw [setup.execute_of_not_isStatement budget none,
      setup'.execute_of_not_isStatement budget none']
    exact Halts.throw same joined

theorem halts_executeParts (laws : c.Executes setup setup') (budget : Budget) (κ : Stage)
    (tree tree' : Ast) (h : c.Parts c.statement .notAStatement tree tree') (s s' : State) (w w' : World)
    (joined : c.Joined κ s w s' w') :
    c.Halts κ ((setup.executeParts budget tree s).run w)
      ((setup'.executeParts budget tree' s').run w') := by
  cases h with
  | @list items items' same =>
    rw [Setup.executeParts, Setup.executeParts]
    exact halts_executeAll laws budget κ items items' same s s' w w' joined
  | other none none' same =>
    rw [setup.executeParts_of_ne_list budget none, setup'.executeParts_of_ne_list budget none']
    have failed := Pairs.lift (R := fun _ _ _ => True) same w w' joined.linked
    exact Halts.after laws joined failed
      fun κ' _ _ _ _ _ _ _ joined => .ok (le_refl κ') joined

theorem halts_executeAll (laws : c.Executes setup setup') (budget : Budget) (κ : Stage)
    (items items' : List Ast) (h : List.Forall₂ c.statement items items') (s s' : State) (w w' : World)
    (joined : c.Joined κ s w s' w') :
    c.Halts κ ((setup.executeAll budget items s).run w)
      ((setup'.executeAll budget items' s').run w') := by
  match items, items', h with
  | [], [], .nil => exact .ok (le_refl κ) joined
  | item :: items, item' :: items', .cons head tail =>
    rw [Setup.executeAll, Setup.executeAll]
    have first := halts_execute laws budget κ item item' head s s' w w' joined
    exact first.trans fun κ' t t' v v' _ joined =>
      halts_executeAll laws budget κ' items items' tail t t' v v' joined

end

end Conduct

end DynamicScope
