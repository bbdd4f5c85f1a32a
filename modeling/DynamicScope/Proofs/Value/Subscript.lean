import Mathlib.Data.List.GetD
import DynamicScope.Proofs.Number.Value
import DynamicScope.Proofs.Run.Parts

/-! What a subscript reads.
The exact value of a number decides: if it is the place of an element, that element is read, and the
undefined value otherwise, so no number counts from the end or is rounded. The elements of an array that
is written out have their values before the index has one, each in its turn. -/

namespace DynamicScope

open Machine

namespace Number

def IsExactly (n : Number) (k : Int) : Prop :=
  n.value? = some (((k : ℚ) : WithTop ℚ) : WithBot (WithTop ℚ))

theorem toInt?_eq_some_iff_place {n : Number} {k : Int} :
    n.toInt? = some k ↔ n.place? = some (.at (k * unitsPerOne)) := by
  have scale : (unitsPerOne : Int) ≠ 0 := Int.ne_of_gt (Int.natCast_pos.mpr unitsPerOne_pos)
  cases n with
  | integer m =>
    rw [toInt?, place?, Option.some_inj, Option.some_inj, Place.at.injEq]
    exact (Int.mul_eq_mul_right_iff scale).symm
  | double x =>
    cases x with
    | nan => exact ⟨nofun, nofun⟩
    | infinity negative => cases negative <;> exact ⟨nofun, nofun⟩
    | finite negative units rep =>
      rw [toInt?, Double.toInt?_finite_iff, place?, Double.place?, Option.some_inj, Place.at.injEq]

theorem toInt?_eq_some_iff {n : Number} {k : Int} : n.toInt? = some k ↔ n.IsExactly k := by
  have same : n.IsExactly k ↔ n.value? = (integer k).value? := Iff.rfl
  rw [toInt?_eq_some_iff_place, same, value?_eq, value?_eq,
    (Option.map_injective Place.value_injective).eq_iff]
  rfl

end Number

namespace Value

/-- What is read of a list of values at a number: the element in the place that is its exact value, and
the undefined value if there is none. -/
inductive Reads (items : List Value) (n : Number) : Value → Prop
  | element {k : Nat} (inside : k < items.length) (exact : n.IsExactly k) :
    Reads items n items[k]
  | outside (elsewhere : ∀ k < items.length, ¬ n.IsExactly k) :
    Reads items n .undefined

theorem element_of_exact {items : List Value} {n : Number} {k : Nat}
    (exact : n.IsExactly k) : element items n = items.getD k .undefined := by
  have integer : n.toInt? = some (k : Int) := Number.toInt?_eq_some_iff.mpr exact
  rw [element, integer]

theorem element_of_elsewhere {items : List Value} {n : Number}
    (elsewhere : ∀ k < items.length, ¬ n.IsExactly k) :
    element items n = .undefined := by
  unfold element
  split
  · rename_i k integer
    have exact : n.IsExactly k := Number.toInt?_eq_some_iff.mp integer
    have beyond : items.length ≤ k := Nat.le_of_not_lt fun inside => elsewhere k inside exact
    rw [List.getD_eq_default items .undefined beyond]
  · rfl

theorem reads_iff {items : List Value} {n : Number} {v : Value} :
    Reads items n v ↔ v = element items n := by
  constructor
  · intro read
    cases read with
    | element inside exact => rw [element_of_exact exact, List.getD_eq_getElem _ _ inside]
    | outside elsewhere => exact (element_of_elsewhere elsewhere).symm
  · rintro rfl
    by_cases there : ∃ k < items.length, n.IsExactly k
    · obtain ⟨k, inside, exact⟩ := there
      rw [element_of_exact exact, List.getD_eq_getElem _ _ inside]
      exact .element inside exact
    · have elsewhere : ∀ k < items.length, ¬ n.IsExactly k :=
        fun k inside exact => there ⟨k, inside, exact⟩
      rw [element_of_elsewhere elsewhere]
      exact .outside elsewhere

theorem subscript_of_kind_ne {t i : Value} (h : t.kind ≠ .array ∨ i.kind ≠ .number) :
    subscript t i = .error (.fault (.subscript t.kind i.kind)) := by
  unfold subscript
  split
  · rcases h with target | index
    · exact absurd rfl target
    · exact absurd rfl index
  · rfl

theorem kind_eq_array {t : Value} (h : t.kind = .array) : ∃ identity items, t = .array identity items := by
  cases t with
  | array identity items => exact ⟨identity, items, rfl⟩
  | _ => cases h

theorem kind_eq_number {i : Value} (h : i.kind = .number) : ∃ n, i = .number n := by
  cases i with
  | number n => exact ⟨n, rfl⟩
  | _ => cases h

end Value

namespace Setup

/-- Expressions that are evaluated one after another to these values, each of them in the world that
the one before it has left. -/
inductive InTurn (setup : Setup) (calls : Nat) (env : EnvRef) :
    List Ast → World → List Value → World → Prop
  | nil (w : World) : InTurn setup calls env [] w [] w
  | cons {item : Ast} {items : List Ast} {value : Value} {values : List Value} {w v u : World}
    (first : (setup.evaluate calls env item).run w = .ok value v)
    (rest : InTurn setup calls env items v values u) :
    InTurn setup calls env (item :: items) w (value :: values) u

variable {setup : Setup} {calls : Nat} {env : EnvRef} {items : List Ast} {vs : List Value} {w u v : World}

theorem InTurn.at (h : setup.InTurn calls env items w vs u) {k : Nat} (inside : k < items.length) :
    ∃ value w₁ w₂, vs[k]? = some value ∧ setup.InTurn calls env (items.take k) w (vs.take k) w₁ ∧
      (setup.evaluate calls env items[k]).run w₁ = .ok value w₂ ∧
      setup.InTurn calls env (items.drop (k + 1)) w₂ (vs.drop (k + 1)) u := by
  induction h generalizing k with
  | nil => cases inside
  | cons first rest ih =>
    cases k with
    | zero => exact ⟨_, _, _, rfl, .nil _, first, rest⟩
    | succ k =>
      obtain ⟨value, w₁, w₂, found, before, here, later⟩ := ih (Nat.lt_of_succ_lt_succ inside)
      exact ⟨value, w₁, w₂, found, .cons first before, here, later⟩

theorem run_evaluateAll_of_inTurn (h : setup.InTurn calls env items w vs u) :
    (setup.evaluateAll (setup.entering calls) env items).run w = .ok vs u := by
  induction h with
  | nil => rfl
  | cons first _ ih =>
    rw [evaluateAll_cons, run_bind_of_ok first, run_bind_of_ok ih]
    rfl

theorem inTurn_or_error (setup : Setup) (calls : Nat) (env : EnvRef) (items : List Ast) (w : World) :
    (∃ vs u, setup.InTurn calls env items w vs u) ∨
      ∃ before item later vs u e v, items = before ++ item :: later ∧
        setup.InTurn calls env before w vs u ∧ (setup.evaluate calls env item).run u = .error e v ∧
        (setup.evaluateAll (setup.entering calls) env items).run w = .error e v := by
  induction items generalizing w with
  | nil => exact .inl ⟨[], w, .nil w⟩
  | cons item items ih =>
    rw [evaluateAll_cons, EStateM.run_bind]
    cases first : (setup.evaluate calls env item).run w with
    | error e v => exact .inr ⟨[], item, items, [], w, e, v, rfl, .nil w, first, rfl⟩
    | ok value u =>
      rcases ih u with ⟨vs, x, rest⟩ | ⟨before, failing, later, vs, x, e, v, rfl, rest, failed, ran⟩
      · exact .inl ⟨value :: vs, x, .cons first rest⟩
      · refine .inr ⟨item :: before, failing, later, value :: vs, x, e, v, rfl, .cons first rest, failed, ?_⟩
        dsimp only
        rw [EStateM.run_bind, ran]

theorem InTurn.reads (h : setup.InTurn calls env items w vs u) {n : Number} {a : Value}
    (read : Value.Reads vs n a) {k : Nat} (inside : k < items.length) (exact : n.IsExactly k) :
    ∃ w₁ w₂, setup.InTurn calls env (items.take k) w (vs.take k) w₁ ∧
      (setup.evaluate calls env items[k]).run w₁ = .ok a w₂ ∧
      setup.InTurn calls env (items.drop (k + 1)) w₂ (vs.drop (k + 1)) u := by
  obtain ⟨value, w₁, w₂, found, before, here, later⟩ := h.at inside
  have same : a = value := by
    rw [Value.reads_iff.mp read, Value.element_of_exact exact, List.getD_eq_getElem?_getD, found]
    rfl
  exact ⟨w₁, w₂, before, same ▸ here, later⟩

theorem run_arrayLiteral_of_inTurn (h : setup.InTurn calls env items w vs u) :
    (setup.evaluate calls env (.arrayLiteral (.list items))).run w =
      .ok (.array u.nextIdentity vs) { u with nextIdentity := u.nextIdentity + 1 } := by
  rw [run_arrayLiteral, evaluateParts, run_evaluateAll_of_inTurn h]

variable {array index : Ast}

theorem run_subscript {t i : Value} (target : (setup.evaluate calls env array).run w = .ok t u)
    (place : (setup.evaluate calls env index).run u = .ok i v) :
    (setup.evaluate calls env (.subscript array index)).run w = (lift (Value.subscript t i)).run v := by
  rw [evaluate_subscript, run_bind_of_ok target, run_bind_of_ok place]

theorem run_subscript_number {identity : Nat} {n : Number}
    (target : (setup.evaluate calls env array).run w = .ok (.array identity vs) u)
    (place : (setup.evaluate calls env index).run u = .ok (.number n) v) :
    (setup.evaluate calls env (.subscript array index)).run w = .ok (Value.element vs n) v :=
  run_subscript target place

theorem run_subscript_of_array_error {e : Failure}
    (failed : (setup.evaluate calls env array).run w = .error e v) :
    (setup.evaluate calls env (.subscript array index)).run w = .error e v := by
  rw [evaluate_subscript, EStateM.run_bind, failed]

theorem subscript_invalid_iff {t i : Value}
    (target : (setup.evaluate calls env array).run w = .ok t u)
    (place : (setup.evaluate calls env index).run u = .ok i v) :
    (∃ f x, (setup.evaluate calls env (.subscript array index)).run w = .error (.fault f) x ∧
        f.kind = .invalidSubscript) ↔
      t.kind ≠ .array ∨ i.kind ≠ .number := by
  constructor
  · rintro ⟨f, x, failed, -⟩
    by_contra valid
    obtain ⟨isArray, isNumber⟩ := not_or.mp valid
    obtain ⟨identity, items, rfl⟩ := Value.kind_eq_array (not_ne_iff.mp isArray)
    obtain ⟨n, rfl⟩ := Value.kind_eq_number (not_ne_iff.mp isNumber)
    rw [run_subscript_number target place] at failed
    cases failed
  · intro invalid
    refine ⟨.subscript t.kind i.kind, v, ?_, rfl⟩
    rw [run_subscript target place, Value.subscript_of_kind_ne invalid]
    rfl

/-- A subscript of two values is invalid exactly if the first is not an array or the second is not a
number. Otherwise it returns the element in the place that the number is exactly, and the undefined value
if it is none. If the array is written out, its elements are evaluated first, one after another, and the
first that fails is the failure of all; what is read afterwards is the value of the expression in its
place, between the expressions before it and those after it. -/
theorem subscript_reads (setup : Setup) (calls : Nat) (env : EnvRef) (index : Ast) (w : World) :
    (∀ (array : Ast) (t i : Value) (u v : World), (setup.evaluate calls env array).run w = .ok t u →
      (setup.evaluate calls env index).run u = .ok i v →
      ((∃ f x, (setup.evaluate calls env (.subscript array index)).run w = .error (.fault f) x ∧
          f.kind = .invalidSubscript) ↔
        t.kind ≠ .array ∨ i.kind ≠ .number) ∧
      ∀ identity items n, t = .array identity items → i = .number n →
        ∃ a, (setup.evaluate calls env (.subscript array index)).run w = .ok a v ∧
          Value.Reads items n a) ∧
    ∀ items : List Ast,
      let array := Ast.arrayLiteral (.list items)
      (∃ before item later vs u e v, items = before ++ item :: later ∧
        setup.InTurn calls env before w vs u ∧ (setup.evaluate calls env item).run u = .error e v ∧
        (setup.evaluate calls env (.subscript array index)).run w = .error e v) ∨
      ∃ vs u, setup.InTurn calls env items w vs u ∧
        let next := { u with nextIdentity := u.nextIdentity + 1 }
        (setup.evaluate calls env array).run w = .ok (.array u.nextIdentity vs) next ∧
        ∀ n v, (setup.evaluate calls env index).run next = .ok (.number n) v →
          ∃ a, (setup.evaluate calls env (.subscript array index)).run w = .ok a v ∧
            Value.Reads vs n a ∧
            ∀ (k : Nat) (inside : k < items.length), n.IsExactly k →
              ∃ w₁ w₂, setup.InTurn calls env (items.take k) w (vs.take k) w₁ ∧
                (setup.evaluate calls env items[k]).run w₁ = .ok a w₂ ∧
                setup.InTurn calls env (items.drop (k + 1)) w₂ (vs.drop (k + 1)) u := by
  refine ⟨fun array t i u v target place => ⟨subscript_invalid_iff target place, ?_⟩,
    fun items => ?_⟩
  · rintro identity items n rfl rfl
    exact ⟨_, run_subscript_number target place, Value.reads_iff.mpr rfl⟩
  · intro array
    rcases setup.inTurn_or_error calls env items w with
      ⟨vs, u, inTurn⟩ | ⟨before, item, later, vs, u, e, v, split, inTurn, failed, ran⟩
    · have target := run_arrayLiteral_of_inTurn inTurn
      refine .inr ⟨vs, u, inTurn, target, fun n v place => ?_⟩
      have reads : Value.Reads vs n (Value.element vs n) := Value.reads_iff.mpr rfl
      exact ⟨_, run_subscript_number target place, reads, fun k inside => inTurn.reads reads inside⟩
    · refine .inl ⟨before, item, later, vs, u, e, v, split, inTurn, failed, ?_⟩
      refine run_subscript_of_array_error ?_
      rw [run_arrayLiteral, evaluateParts, ran]

def trueAndFalse : Ast := .arrayLiteral (.list [.booleanLiteral true, .booleanLiteral false])

theorem subscript_reads_negativeZero :
    let setup : Setup := ⟨0, []⟩
    let zero := Ast.numeral (.scalar (.number (.double (.zero true))))
    (∃ v, (setup.evaluate 0 0 (.subscript trueAndFalse zero)).run setup.startWorld =
      .ok (.boolean true) v) ∧
    ∃ f x, (setup.evaluate 0 0 (.subscript trueAndFalse (.booleanLiteral true))).run setup.startWorld =
      .error (.fault f) x ∧ f.kind = .invalidSubscript := by
  intro setup zero
  have target : (setup.evaluate 0 0 trueAndFalse).run setup.startWorld = .ok _ _ :=
    run_arrayLiteral_of_inTurn (.cons rfl (.cons rfl (.nil _)))
  have first : (Number.double (.zero true)).IsExactly (0 : Nat) :=
    Number.toInt?_eq_some_iff.mp (by decide +kernel)
  constructor
  · obtain ⟨-, reads⟩ := (setup.subscript_reads 0 0 zero _).1 _ _ _ _ _ target rfl
    obtain ⟨a, ran, read⟩ := reads _ _ _ rfl rfl
    rw [Value.reads_iff.mp read, Value.element_of_exact first] at ran
    exact ⟨_, ran⟩
  · have invalid := ((setup.subscript_reads 0 0 (.booleanLiteral true) _).1 _ _ _ _ _ target rfl).1
    exact invalid.mpr (.inr (by decide))

end Setup

end DynamicScope
