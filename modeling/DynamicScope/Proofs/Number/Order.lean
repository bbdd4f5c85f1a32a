import Mathlib.Algebra.Order.Field.Rat
import Mathlib.Algebra.Order.Ring.Cast
import DynamicScope.Proofs.Number.Value
import DynamicScope.Proofs.Value.Doubles

/-! Order and equality of numbers.
The relational operators compare the exact values of two numbers, whether these are doubles,
infinities or integers of any size, and so they order all numbers in one line. NaN has no value: it is
unequal to everything and in no other relation to anything. -/

namespace DynamicScope

theorem Place.less_iff (a b : Place) : a.less b = true ↔ a.value < b.value := by
  have positive : (0 : ℚ) < unitsPerOne := Nat.cast_pos.mpr unitsPerOne_pos
  unfold value
  -- Only that the scale is positive matters here; as a numeral it would be too large.
  generalize (unitsPerOne : ℚ) = scale at positive
  cases a with
  | «at» m =>
    cases b with
    | bottom => simp [less]
    | «at» n =>
      rw [less_at, WithBot.coe_lt_coe, WithTop.coe_lt_coe, div_lt_div_iff_of_pos_right positive,
        Int.cast_lt]
    | top =>
      rw [← WithBot.coe_top, WithBot.coe_lt_coe]
      exact iff_of_true rfl (WithTop.coe_lt_top _)
  | _ => cases b <;> simp [less]

namespace Number

/-- The exact values of numbers, in their order. -/
abbrev ExactValue := WithBot (WithTop ℚ)

/-- The relations of numbers that have an operator. -/
inductive Relation
  | comparison (op : Comparison)
  | equal
  | unequal
  deriving DecidableEq

namespace Relation

def symbol : Relation → String
  | .comparison op => op.symbol
  | .equal => "=="
  | .unequal => "!="

def Holds : Relation → ExactValue → ExactValue → Prop
  | .comparison .less, p, q => p < q
  | .comparison .lessEqual, p, q => p ≤ q
  | .comparison .greater, p, q => q < p
  | .comparison .greaterEqual, p, q => q ≤ p
  | .equal, p, q => p = q
  | .unequal, p, q => p ≠ q

def answer (r : Relation) (m n : Number) : Except Failure Value :=
  Value.binary (Value.written r.symbol) (.number m) (.number n)

def Relates (r : Relation) (m n : Number) : Prop := r.answer m n = .ok (.boolean true)

def test : Relation → Number → Number → Bool
  | .comparison op, m, n => op.apply m n
  | .equal, m, n => m.equal n
  | .unequal, m, n => !m.equal n

theorem answer_eq (r : Relation) (m n : Number) : r.answer m n = .ok (.boolean (r.test m n)) := by
  cases r with
  | comparison op => exact Value.binary_comparison op m n
  | equal | unequal => rfl

theorem relates_iff_test {r : Relation} {m n : Number} : r.Relates m n ↔ r.test m n = true := by
  rw [Relates, answer_eq, Except.ok.injEq, Value.boolean.injEq]

end Relation

variable {m n : Number} {p q : ExactValue}

theorem value_of_ne_nan (h : m ≠ .double .nan) : ∃ p, m.value? = some p := by
  cases m with
  | integer k => exact ⟨_, rfl⟩
  | double x =>
    cases x with
    | nan => exact absurd rfl h
    | infinity | finite => exact ⟨_, rfl⟩

theorem place_of_value (h : m.value? = some p) : ∃ a, m.place? = some a ∧ a.value = p :=
  Option.map_eq_some_iff.mp (m.value?_eq.symm.trans h)

theorem less_iff (hp : m.value? = some p) (hq : n.value? = some q) : m.less n = true ↔ p < q := by
  obtain ⟨a, place, rfl⟩ := place_of_value hp
  obtain ⟨b, place', rfl⟩ := place_of_value hq
  rw [less, place, place']
  exact a.less_iff b

theorem equal_iff (hp : m.value? = some p) (hq : n.value? = some q) : m.equal n = true ↔ p = q := by
  obtain ⟨a, place, rfl⟩ := place_of_value hp
  obtain ⟨b, place', rfl⟩ := place_of_value hq
  rw [equal, place, place']
  exact decide_eq_true_iff.trans Place.value_injective.eq_iff.symm

theorem lessEqual_iff (hp : m.value? = some p) (hq : n.value? = some q) :
    m.lessEqual n = true ↔ p ≤ q := by
  rw [lessEqual, Bool.or_eq_true, less_iff hp hq, equal_iff hp hq, le_iff_lt_or_eq]

theorem relates_iff_holds (hp : m.value? = some p) (hq : n.value? = some q) (r : Relation) :
    r.Relates m n ↔ r.Holds p q := by
  rw [Relation.relates_iff_test]
  cases r with
  | comparison op =>
    cases op with
    | less => exact less_iff hp hq
    | lessEqual => exact lessEqual_iff hp hq
    | greater => exact less_iff hq hp
    | greaterEqual => exact lessEqual_iff hq hp
  | equal => exact equal_iff hp hq
  | unequal =>
    rw [Relation.test, Bool.not_eq_true', ← Bool.not_eq_true]
    exact not_congr (equal_iff hp hq)

theorem less_nan (m : Number) : m.less (.double .nan) = false := by
  unfold less
  cases m.place? <;> rfl

theorem equal_nan (m : Number) : m.equal (.double .nan) = false := by
  unfold equal
  cases m.place? <;> rfl

theorem test_of_nan (h : m = .double .nan ∨ n = .double .nan) (r : Relation) :
    r.test m n = decide (r = .unequal) := by
  have unrelated : m.less n = false ∧ n.less m = false ∧ m.equal n = false ∧ n.equal m = false := by
    rcases h with rfl | rfl
    · exact ⟨rfl, less_nan n, rfl, equal_nan n⟩
    · exact ⟨less_nan m, rfl, equal_nan m, rfl⟩
  obtain ⟨less, greater, equal, reversed⟩ := unrelated
  rcases r with op | _ | _
  · cases op <;> simp [Relation.test, Comparison.apply, lessEqual, less, greater, equal, reversed]
  · simp [Relation.test, equal]
  · simp [Relation.test, equal]

theorem ne_nan_of_relates {r : Relation} (related : r.Relates m n) (h : r ≠ .unequal) :
    m ≠ .double .nan ∧ n ≠ .double .nan := by
  rw [Relation.relates_iff_test] at related
  by_contra nan
  rw [test_of_nan (by tauto) r, decide_eq_true_iff] at related
  exact h related

theorem existsUnique_holds (p q : ExactValue) :
    ∃! r, r ∈ [.comparison .less, .equal, .comparison .greater] ∧ Relation.Holds r p q := by
  have listed (r : Relation) : r ∈ [.comparison .less, .equal, .comparison .greater] ↔
      r = .comparison .less ∨ r = .equal ∨ r = .comparison .greater := by simp
  rcases lt_trichotomy p q with less | equal | greater
  · refine ⟨.comparison .less, ⟨by simp, less⟩, fun r ⟨one, held⟩ => ?_⟩
    rcases (listed r).mp one with rfl | rfl | rfl
    · rfl
    · exact absurd held less.ne
    · exact absurd held less.asymm
  · refine ⟨.equal, ⟨by simp, equal⟩, fun r ⟨one, held⟩ => ?_⟩
    rcases (listed r).mp one with rfl | rfl | rfl
    · exact absurd equal held.ne
    · rfl
    · exact absurd equal held.ne'
  · refine ⟨.comparison .greater, ⟨by simp, greater⟩, fun r ⟨one, held⟩ => ?_⟩
    rcases (listed r).mp one with rfl | rfl | rfl
    · exact absurd held greater.asymm
    · exact absurd held greater.ne'
    · rfl

theorem Relation.Holds.trans {r : Relation} (listed : r ∈ [.comparison .less, .equal])
    {p q s : ExactValue} (first : r.Holds p q) (second : r.Holds q s) : r.Holds p s := by
  rcases List.mem_pair.mp listed with rfl | rfl
  · exact lt_trans first second
  · exact Eq.trans first second

/-- The operators never fail on numbers. Of numbers with values they answer by these, so exactly one of
being less, equal and greater is true and the other relations follow from these; being less and being
equal are transitive; and of NaN it is only true that it is unequal. -/
theorem relations_consistent (a b c : Number) :
    (∀ r : Relation, ∃ t, r.answer a b = .ok (.boolean t)) ∧
    (∀ p q, a.value? = some p → b.value? = some q → ∀ r : Relation, r.Relates a b ↔ r.Holds p q) ∧
    (a ≠ .double .nan → b ≠ .double .nan →
      (∃! r, r ∈ [.comparison .less, .equal, .comparison .greater] ∧ Relation.Relates r a b) ∧
      ((Relation.comparison .lessEqual).Relates a b ↔
        (Relation.comparison .less).Relates a b ∨ Relation.equal.Relates a b) ∧
      ((Relation.comparison .greaterEqual).Relates a b ↔
        (Relation.comparison .greater).Relates a b ∨ Relation.equal.Relates a b) ∧
      (Relation.unequal.Relates a b ↔ ¬ Relation.equal.Relates a b)) ∧
    (∀ r ∈ [.comparison .less, .equal],
      Relation.Relates r a b → Relation.Relates r b c → Relation.Relates r a c) ∧
    (a = .double .nan ∨ b = .double .nan → ∀ r : Relation,
      r.answer a b = .ok (.boolean (decide (r = .unequal)))) := by
  refine ⟨fun r => ⟨_, r.answer_eq a b⟩, fun p q hp hq => relates_iff_holds hp hq, ?_, ?_, ?_⟩
  · intro numberA numberB
    obtain ⟨p, hp⟩ := value_of_ne_nan numberA
    obtain ⟨q, hq⟩ := value_of_ne_nan numberB
    simp only [relates_iff_holds hp hq]
    exact ⟨existsUnique_holds p q, le_iff_lt_or_eq, le_iff_lt_or_eq.trans (or_congr_right eq_comm), Iff.rfl⟩
  · intro r listed first second
    have ordered : r ≠ .unequal := by
      rintro rfl
      simp at listed
    obtain ⟨p, hp⟩ := value_of_ne_nan (ne_nan_of_relates first ordered).1
    obtain ⟨q, hq⟩ := value_of_ne_nan (ne_nan_of_relates second ordered).1
    obtain ⟨s, hs⟩ := value_of_ne_nan (ne_nan_of_relates second ordered).2
    rw [relates_iff_holds hp hq] at first
    rw [relates_iff_holds hq hs] at second
    exact (relates_iff_holds hp hs r).mpr (first.trans listed second)
  · intro nan r
    rw [Relation.answer_eq, test_of_nan nan]

theorem relations_beyond_doubles :
    let a := Number.double (.ofInt (2 ^ 53))
    let b := Number.integer (2 ^ 53 + 1)
    let c := Number.double (.infinity false)
    let less := Relation.comparison .less
    less.Relates a b ∧ ¬ Relation.equal.Relates a b ∧ less.Relates b c ∧ less.Relates a c ∧
      ¬ less.Relates (.double .nan) b ∧ Relation.unequal.Relates (.double .nan) b := by
  intro a b c less
  have first : less.Relates a b := Relation.relates_iff_test.mpr (by decide +kernel)
  obtain ⟨-, -, consistent, transitive, -⟩ := relations_consistent a b c
  obtain ⟨-, exact, -⟩ := relations_consistent b c c
  obtain ⟨-, -, -, -, nan⟩ := relations_consistent (.double .nan) b c
  have second : less.Relates b c := (exact _ _ rfl rfl less).mpr (WithBot.coe_lt_coe.mpr
    (WithTop.coe_lt_top _))
  have unequal : ¬ Relation.equal.Relates a b := by
    intro equal
    obtain ⟨numberA, numberB⟩ := ne_nan_of_relates first (by decide)
    obtain ⟨r, -, unique⟩ := (consistent numberA numberB).1
    exact absurd ((unique less ⟨by simp [less], first⟩).trans (unique .equal ⟨by simp, equal⟩).symm)
      (by decide)
  refine ⟨first, unequal, second, transitive less (by simp [less]) first second, ?_, nan (.inl rfl) _⟩
  rw [Relation.Relates, nan (.inl rfl)]
  simp [less]

end Number

end DynamicScope
