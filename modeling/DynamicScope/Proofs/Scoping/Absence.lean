import DynamicScope.Proofs.Simulation.View
import DynamicScope.Proofs.Soundness.Kept

/-! Names that are bound to an absent value.
Looking up such a name is looking up a name that is not bound at all, so no expression can tell the
two apart, nor can a statement that does not assign to the name. An assignment can: it asks whether
the name is bound, to whatever value. -/

namespace DynamicScope

open Machine

namespace Bindings

theorem value?_congr (b : Bindings) {name other : Name} (same : name.key = other.key) :
    b.value? name = b.value? other := by
  induction b with
  | nil => rfl
  | cons entry rest ih => rw [value?_cons, value?_cons, same, ih]

theorem value?_filter (b : Bindings) {p : Name → Bool}
    (respects : ∀ name other, name.key = other.key → p name = p other) (name : Name) :
    value? (b.filter fun entry => p entry.1) name = if p name then b.value? name else none := by
  induction b with
  | nil => simp
  | cons entry rest ih =>
    obtain ⟨n, v⟩ := entry
    by_cases here : n.key = name.key
    · have same := respects n name here
      cases kept : p name <;> simp [value?_cons, ih, here, same, kept]
    · cases kept : p n <;> simp [value?_cons, ih, here, kept]

/-- The bindings without the names that are bound to an absent value. -/
def withoutAbsent (b : Bindings) : Bindings := b.filter fun entry => (b.present? entry.1).isSome

theorem value?_withoutAbsent (b : Bindings) (name : Name) :
    b.withoutAbsent.value? name = b.present? name := by
  have respects (name other : Name) (same : name.key = other.key) :
      (b.present? name).isSome = (b.present? other).isSome := by
    rw [present?, present?, b.value?_congr same]
  refine (b.value?_filter respects name).trans ?_
  cases found : b.present? name with
  | none => rfl
  | some v => exact Option.eq_some_of_filter_eq_some found

end Bindings

def presence (assigned : Name → Prop) : View where
  content := ⟨fun _ => True, fun _ => True, fun _ => True, fun _ => True⟩
  rename := id
  seen name o o' := o.filter Value.isPresent = o'.filter Value.isPresent ∧
    (assigned name → o.isSome = o'.isSome)
  assigned := assigned

namespace Presence

variable {assigned : Name → Prop}

theorem tree (t : Ast) : (presence assigned).content.Tree t := Content.any_tree t

theorem value (v : Value) : (presence assigned).content.Value v := Content.any_value v

theorem laws (setup : Setup) : (presence assigned).Laws setup setup where
  content := by constructor <;> intros <;> first | trivial | exact value _
  inj _ _ same := same
  level := rfl
  answer _ next := Renames.answer_id setup next
  bound _ := by
    change _ ∧ _
    rw [show (presence assigned).rename = id from rfl, Value.rename_id]
    exact ⟨rfl, fun _ => rfl⟩
  present := by
    rintro name o o' - ⟨same, -⟩
    rw [← same]
    cases o.filter Value.isPresent with
    | none => exact .none
    | some v => exact .some ⟨Value.rename_id v, value v⟩
  binds _ named seen := seen.2 named

theorem bound_withoutAbsent {b : Bindings}
    (h : ∀ name, assigned name → b.binds name = true → (b.present? name).isSome) :
    (presence assigned).Bound b b.withoutAbsent := by
  intro name
  rw [Bindings.value?_withoutAbsent]
  refine ⟨?_, fun named => ?_⟩
  · rw [Bindings.present?, Option.filter_filter]
    simp
  · have present := h name named
    rw [Bindings.binds] at present
    cases found : b.value? name with
    | none => rw [Bindings.present?, found]; rfl
    | some v =>
      rw [found] at present
      exact (present rfl).symm

end Presence

namespace Setup

/-- An environment and another one in which the names bound to an absent value are not bound at all
cannot be told apart by an expression, nor by a statement that does not assign to such a name: values
and failures, outputs, and what is used up are the same, and so is what every name is looked up to in
the environments that they leave. -/
theorem evaluate_execute_withoutAbsent (setup : Setup) {env env' : EnvRef} {w w' : World}
    (there : env < w.size) (there' : env' < w'.size) (supply : w.supply = w'.supply)
    (bindings : w'.bindings env' = (w.bindings env).withoutAbsent) :
    (∀ calls tree, supplied ((setup.evaluate calls env tree).run w) =
      supplied ((setup.evaluate calls env' tree).run w')) ∧
    ∀ budget tree output,
      (∀ name, tree.Assigns name → (w.bindings env).binds name = true →
        ((w.bindings env).present? name).isSome) →
      SameUpTo (fun b b' => ∀ name, b.present? name = b'.present? name)
        (tracked ⟨env, output⟩ ((setup.execute budget tree ⟨env, output⟩).run w))
        (tracked ⟨env', output⟩ ((setup.execute budget tree ⟨env', output⟩).run w')) := by
  constructor
  · intro calls tree
    have bound : (presence fun _ => False).Bound (w.bindings env) (w'.bindings env') :=
      bindings ▸ Presence.bound_withoutAbsent fun _ named => named.elim
    exact View.evaluate_same (Presence.laws setup) rfl there there' supply bound calls
      (Presence.tree tree)
  · intro budget tree output h
    have bound : (presence tree.Assigns).Bound (w.bindings env) (w'.bindings env') :=
      bindings ▸ Presence.bound_withoutAbsent h
    have same := View.execute_same (Presence.laws setup) rfl there there' supply bound budget
      (Presence.tree tree) (fun _ assigned => assigned) output
    exact same.imp fun b b' seen name => (seen name).1

def holding (x : Option Value) : World :=
  .alone ((x.map fun v => (Name.ofString "x", v)).toList ++ [(.ofString "y", .boolean true)])
    ⟨1, #[]⟩

def falsify (name : String) : Ast := .assignment (.named name) (.booleanLiteral false)

theorem evaluate_execute_withoutAbsent_falsify :
    (∃ x, supplied ((bare.evaluate 0 0 (.named "x")).run (holding (some .undefined))) =
      .error (.fault (.undeclared (.scalar (.string "x")))) x) ∧
    SameUpTo (fun b b' => ∀ name, b.present? name = b'.present? name)
      (tracked ⟨0, ⟨0, []⟩⟩ ((bare.execute ⟨0, 0⟩ (falsify "y") ⟨0, ⟨0, []⟩⟩).run
        (holding (some .undefined))))
      (tracked ⟨0, ⟨0, []⟩⟩ ((bare.execute ⟨0, 0⟩ (falsify "y") ⟨0, ⟨0, []⟩⟩).run
        (holding none))) := by
  have there (x : Option Value) : 0 < (holding x).size := Nat.zero_lt_one
  obtain ⟨evaluated, executed⟩ := evaluate_execute_withoutAbsent bare (there (some .undefined))
    (there none) rfl rfl
  refine ⟨⟨_, (evaluated 0 (.named "x")).trans rfl⟩, executed ⟨0, 0⟩ (falsify "y") ⟨0, []⟩ ?_⟩
  rintro name ⟨target, listed, same⟩ -
  obtain rfl := List.mem_singleton.mp listed
  rw [Bindings.present?, Bindings.value?_congr _ same.symm]
  rfl

/-- An assignment to `x` itself goes through where `x` is undefined, and fails where it is not
bound. -/
theorem execute_falsify_absent :
    (holding none).bindings 0 = ((holding (some .undefined)).bindings 0).withoutAbsent ∧
    (∃ t u, (bare.execute ⟨0, 0⟩ (falsify "x") ⟨0, ⟨0, []⟩⟩).run (holding (some .undefined)) =
      .ok t u) ∧
    ∃ u, (bare.execute ⟨0, 0⟩ (falsify "x") ⟨0, ⟨0, []⟩⟩).run (holding none) =
      .error (.fault (.assignmentToUndeclared (.scalar (.string "x")))) u :=
  ⟨rfl, ⟨_, _, rfl⟩, _, rfl⟩

end Setup

end DynamicScope
