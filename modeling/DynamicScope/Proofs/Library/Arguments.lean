import DynamicScope.Proofs.Double.Exponential
import DynamicScope.Proofs.Value.Truth

/-! The library functions on arbitrary arguments.
All functions but the norm look at their first argument only, and make NaN of no argument at all. A call
fails exactly if an argument that is looked at is no number, with an error that names the function and
the kind of the first such argument. Otherwise it answers a double, and the arguments for which the
exact result is undefined or infinite have the results of a table. -/

namespace DynamicScope

namespace Double

def belowZero (x : Double) : Bool := (Number.double x).less (.integer 0)

theorem belowZero_finite (negative : Bool) {units : Nat} (rep : Representable units) :
    belowZero (.finite negative units rep) = (negative && decide (units ≠ 0)) := by
  have placed : belowZero (.finite negative units rep) =
      decide (signed negative units < 0 * unitsPerOne) := rfl
  rw [placed, Int.zero_mul]
  cases negative with
  | false => simp [signed]
  | true =>
    rw [Bool.true_and, decide_eq_decide, signed, if_pos rfl]
    omega

theorem eq_nan_iff_of {f : Double → Double} (atNan : f .nan = .nan)
    (atInfinity : ∀ negative, f (.infinity negative) = if negative then .nan else .infinity false)
    (atFinite : ∀ negative units rep, ∃ a b, a ≠ .nan ∧ b ≠ .nan ∧
      f (.finite negative units rep) = if units = 0 then a else if negative then .nan else b)
    (x : Double) : f x = .nan ↔ x.isNaN = true ∨ belowZero x = true := by
  cases x with
  | nan => exact iff_of_true atNan (.inl rfl)
  | infinity negative =>
    rw [atInfinity]
    cases negative <;> decide +kernel
  | finite negative units rep =>
    obtain ⟨a, b, number, number', there⟩ := atFinite negative units rep
    rw [there, belowZero_finite]
    by_cases zero : units = 0
    · simp [zero, number, isNaN]
    · cases negative <;> simp [zero, number', isNaN]

theorem sqrt_eq_nan_iff (x : Double) : x.sqrt = .nan ↔ x.isNaN = true ∨ belowZero x = true :=
  eq_nan_iff_of rfl (fun _ => rfl)
    (fun _ _ _ => ⟨_, _, by rintro ⟨⟩, ofRatio_ne_nan _ _ _, rfl⟩) x

theorem ln_eq_nan_iff (x : Double) : x.ln = .nan ↔ x.isNaN = true ∨ belowZero x = true :=
  eq_nan_iff_of rfl (fun _ => rfl)
    (fun _ _ _ => ⟨_, _, by rintro ⟨⟩, ofRatio_ne_nan _ _ _, rfl⟩) x

end Double

namespace MathFunction

open Double

/-- The arguments that a function looks at: all of them for the norm, else the first one. -/
def used : MathFunction → List Value → List Value
  | .hypot, arguments => arguments
  | _, arguments => arguments.take 1

/-- What a function makes of one double. -/
def onDouble : MathFunction → Double → Double
  | .sqrt, x => x.sqrt
  | .sin, x => x.sin
  | .cos, x => x.cos
  | .ln, x => x.ln
  | .exp, x => x.exp
  | .hypot, x => Double.hypot [x]

def onDoubles : MathFunction → List Double → Double
  | .hypot, xs => Double.hypot xs
  | f, xs => f.onDouble (xs.headD .nan)

/-- The results of functions of one double that need no computation. -/
def specialAt? (f : MathFunction) (x : Double) : Option Double :=
  if x.isNaN then some .nan
  else match f with
    | .sqrt => if belowZero x then some .nan else none
    | .sin => if x.isInfinite then some .nan else none
    | .cos => if x.isInfinite then some .nan else none
    | .ln => if belowZero x then some .nan else if x.isZero then some (.infinity true) else none
    | .exp =>
      if (Number.double greatestExponent).less (.double x) then some (.infinity false) else none
    | .hypot => none

/-- The results that need no computation. In the norm an infinity outweighs NaN. -/
def special? : MathFunction → List Double → Option Double
  | .hypot, xs =>
    if xs.any isInfinite then some (.infinity false) else if xs.any isNaN then some .nan else none
  | f, xs => f.specialAt? (xs.headD .nan)

theorem special?_of_ne_hypot {f : MathFunction} (one : f ≠ .hypot) (xs : List Double) :
    f.special? xs = f.specialAt? (xs.headD .nan) := by
  cases f with
  | hypot => exact absurd rfl one
  | _ => rfl

theorem onDoubles_of_ne_hypot {f : MathFunction} (one : f ≠ .hypot) (xs : List Double) :
    f.onDoubles xs = f.onDouble (xs.headD .nan) := by
  cases f with
  | hypot => exact absurd rfl one
  | _ => rfl

/-! ### Which arguments count -/

theorem firstArgument_take (f : MathFunction) (arguments : List Value) :
    f.firstArgument (arguments.take 1) = f.firstArgument arguments := by
  cases arguments with
  | nil => rfl
  | cons v others => cases v <;> rfl

theorem apply_used (f : MathFunction) (arguments : List Value) :
    f.apply (f.used arguments) = f.apply arguments := by
  cases f with
  | hypot => rfl
  | _ => simp only [apply, used, firstArgument_take]

theorem numericArguments_of_find? (f : MathFunction) {arguments : List Value} {v : Value}
    (h : arguments.find? (fun v => v.kind ≠ .number) = some v) :
    f.numericArguments arguments = .error (.fault (.argumentKind f.name v.kind)) := by
  induction arguments with
  | nil => cases h
  | cons w others ih =>
    cases w with
    | number n =>
      rw [List.find?_cons_of_neg (by simp [Value.kind])] at h
      rw [numericArguments, ih h]
      rfl
    | _ =>
      cases h
      rfl

theorem firstArgument_of_find? (f : MathFunction) {arguments : List Value} {v : Value}
    (h : (arguments.take 1).find? (fun v => v.kind ≠ .number) = some v) :
    f.firstArgument arguments = .error (.fault (.argumentKind f.name v.kind)) := by
  cases arguments with
  | nil => cases h
  | cons w others =>
    cases w <;> cases h
    all_goals rfl

theorem apply_of_find? {f : MathFunction} {arguments : List Value} {v : Value}
    (h : (f.used arguments).find? (fun v => v.kind ≠ .number) = some v) :
    f.apply arguments = .error (.fault (.argumentKind f.name v.kind)) := by
  cases f with
  | hypot =>
    have failed : hypot.numericArguments arguments = _ := numericArguments_of_find? _ h
    rw [apply, failed]
    rfl
  | _ =>
    rw [apply, firstArgument_of_find? _ h]
    rfl

/-! ### Arguments that are doubles -/

theorem numericArguments_map (f : MathFunction) (xs : List Double) :
    f.numericArguments (xs.map .double) = .ok (xs.map .double) := by
  induction xs with
  | nil => rfl
  | cons x xs ih =>
    change (do return Number.double x :: (← f.numericArguments (xs.map .double)) :
      Except Failure (List Number)) = _
    rw [ih]
    rfl

theorem rootOf_eq (x : Double) : rootOf (.double x) = .ok x.sqrt := by
  change (if belowZero x = true then _ else Except.ok x.sqrt) = _
  split
  · rename_i h
    rw [(sqrt_eq_nan_iff x).mpr (.inr h)]
  · rfl

theorem apply_doubles (f : MathFunction) {arguments : List Value} {xs : List Double}
    (h : f.used arguments = xs.map .double) :
    f.apply arguments = .ok (.double (f.onDoubles xs)) := by
  rw [← apply_used, h]
  cases f with
  | hypot =>
    rw [apply, numericArguments_map]
    change (do return .double (Double.hypot (← Value.liftNumber
      ((xs.map Number.double).mapM Number.toDouble))) : Except Failure Value) = _
    rw [mapM_toDouble]
    rfl
  | sqrt =>
    have first : firstArgument .sqrt (xs.map .double) = .ok (.double (xs.headD .nan)) := by
      cases xs <;> rfl
    rw [apply, first]
    change (do return .double (← Value.liftNumber (rootOf (.double (xs.headD .nan)))) :
      Except Failure Value) = _
    rw [rootOf_eq]
    rfl
  | _ => cases xs <;> rfl

/-! ### Special results -/

theorem ln_of_isZero {x : Double} (h : x.isZero = true) : x.ln = .infinity true := by
  obtain ⟨negative, rfl⟩ := isZero_iff.mp h
  rfl

theorem ofFixed_ne_nan (negative : Bool) (value : Int) : ofFixed negative value ≠ .nan :=
  ofRatio_ne_nan _ _ _

theorem eq_nan_of_isNaN {x : Double} (h : x.isNaN = true) : x = .nan := by
  cases x with
  | nan => rfl
  | infinity | finite => cases h

theorem onDouble_of_specialAt? {f : MathFunction} {x z : Double} (h : f.specialAt? x = some z) :
    f.onDouble x = z := by
  unfold specialAt? at h
  split at h
  · rename_i undefined
    rw [eq_nan_of_isNaN undefined, ← Option.some.inj h]
    cases f <;> rfl
  · cases f with
    | sqrt =>
      obtain ⟨below, same⟩ := Option.ite_none_right_eq_some.mp h
      exact ((sqrt_eq_nan_iff x).mpr (.inr below)).trans (Option.some.inj same)
    | sin | cos =>
      obtain ⟨infinite, same⟩ := Option.ite_none_right_eq_some.mp h
      obtain ⟨negative, rfl⟩ := isInfinite_iff.mp infinite
      exact Option.some.inj same
    | ln =>
      dsimp only at h
      split at h
      · rename_i below
        exact ((ln_eq_nan_iff x).mpr (.inr below)).trans (Option.some.inj h)
      · obtain ⟨zero, same⟩ := Option.ite_none_right_eq_some.mp h
        exact (ln_of_isZero zero).trans (Option.some.inj same)
    | exp =>
      obtain ⟨above, same⟩ := Option.ite_none_right_eq_some.mp h
      exact (exp_eq_infinity_iff.mpr above).trans (Option.some.inj same)
    | hypot => cases h

theorem onDoubles_of_special? {f : MathFunction} {xs : List Double} {z : Double}
    (h : f.special? xs = some z) : f.onDoubles xs = z := by
  by_cases one : f = .hypot
  · subst one
    rw [special?] at h
    rw [onDoubles, Double.hypot]
    split at h
    · rename_i infinite
      rw [if_pos infinite, Option.some.inj h]
    · rename_i bounded
      obtain ⟨undefined, same⟩ := Option.ite_none_right_eq_some.mp h
      rw [if_neg bounded, if_pos undefined, Option.some.inj same]
  · rw [special?_of_ne_hypot one] at h
    rw [onDoubles_of_ne_hypot one]
    exact onDouble_of_specialAt? h

theorem onDouble_ne_nan {f : MathFunction} {x : Double} (one : f ≠ .hypot)
    (h : f.specialAt? x = none) : f.onDouble x ≠ .nan := by
  unfold specialAt? at h
  split at h
  · cases h
  · rename_i defined
    have number : x.isNaN = false := Bool.eq_false_iff.mpr defined
    cases f with
    | sqrt =>
      have above : ¬ belowZero x = true := by simpa using h
      exact fun undefined => ((sqrt_eq_nan_iff x).mp undefined).elim defined above
    | sin | cos =>
      cases x with
      | finite =>
        rw [onDouble]
        exact ofFixed_ne_nan _ _
      | nan => cases number
      | infinity => cases h
    | ln =>
      dsimp only at h
      split at h
      · cases h
      · rename_i above
        exact fun undefined => ((ln_eq_nan_iff x).mp undefined).elim defined above
    | exp =>
      cases x with
      | nan => cases number
      | infinity negative => cases negative <;> nofun
      | finite negative units rep =>
        rw [onDouble, exp_of_place? rfl]
        exact (zero_lessEqual_exponentialAt _).ne_nan
    | hypot => exact absurd rfl one

theorem onDoubles_ne_nan {f : MathFunction} {xs : List Double} (h : f.special? xs = none) :
    f.onDoubles xs ≠ .nan := by
  by_cases one : f = .hypot
  · subst one
    rw [special?] at h
    rw [onDoubles, Double.hypot]
    split at h
    · cases h
    · rename_i bounded
      split at h
      · cases h
      · rename_i defined
        rw [if_neg bounded, if_neg defined]
        exact ofRatio_ne_nan _ _ _
  · rw [special?_of_ne_hypot one] at h
    rw [onDoubles_of_ne_hypot one]
    exact onDouble_ne_nan one h

theorem onDoubles_exp_ne_infinity {xs : List Double} (h : exp.special? xs = none) :
    exp.onDoubles xs ≠ .infinity false := by
  intro infinite
  have above : (Number.double greatestExponent).less (.double (xs.headD .nan)) = true :=
    exp_eq_infinity_iff.mp infinite
  rw [special?_of_ne_hypot (by decide : MathFunction.exp ≠ .hypot), specialAt?] at h
  split at h <;> cases h

/-! ### Calls -/

theorem exists_doubles {arguments : List Value}
    (noInteger : ∀ i : Int, Value.number (.integer i) ∉ arguments)
    (numbers : ∀ v ∈ arguments, v.kind = .number) :
    ∃ xs : List Double, arguments = xs.map .double := by
  induction arguments with
  | nil => exact ⟨[], rfl⟩
  | cons v others ih =>
    obtain ⟨first, rest⟩ := List.forall_mem_cons.mp numbers
    obtain ⟨xs, rfl⟩ := ih (fun i listed => noInteger i (.tail _ listed)) rest
    cases v with
    | number n =>
      cases n with
      | double x => exact ⟨x :: xs, rfl⟩
      | integer i => exact absurd List.mem_cons_self (noInteger i)
    | _ => cases first

/-- Of the arguments none of which that counts is an integer: what does not count does not matter; a
call fails exactly if an argument that counts is no number, by the first such; and otherwise it answers
a double, with the special results where there are any and else a number, and the exponential is only
infinite for large arguments. -/
theorem apply_arguments (f : MathFunction) (arguments : List Value)
    (noInteger : ∀ i : Int, Value.number (.integer i) ∉ f.used arguments) :
    (∀ others, f.used others = f.used arguments → f.apply others = f.apply arguments) ∧
    (∀ e, f.apply arguments = .error e ↔
      ∃ v, (f.used arguments).find? (fun v => v.kind ≠ .number) = some v ∧
        e = .fault (.argumentKind f.name v.kind)) ∧
    ((∀ v ∈ f.used arguments, v.kind = .number) →
      ∃ (xs : List Double) (y : Double), f.used arguments = xs.map .double ∧
        f.apply arguments = .ok (.double y) ∧
        (∀ z, f.special? xs = some z → y = z) ∧
        (f.special? xs = none → y ≠ .nan ∧ (f = .exp → y ≠ .infinity false))) := by
  refine ⟨fun others same => ?_, fun e => ?_, fun numbers => ?_⟩
  · rw [← apply_used, same, apply_used]
  · cases found : (f.used arguments).find? (fun v => v.kind ≠ .number) with
    | some v =>
      rw [apply_of_find? found, Except.error.injEq]
      constructor
      · rintro rfl
        exact ⟨v, rfl, rfl⟩
      · rintro ⟨w, same, rfl⟩
        rw [Option.some.inj same]
    | none =>
      have numbers : ∀ v ∈ f.used arguments, v.kind = .number := by
        simpa using List.find?_eq_none.mp found
      obtain ⟨xs, doubles⟩ := exists_doubles noInteger numbers
      rw [apply_doubles f doubles]
      exact ⟨nofun, nofun⟩
  · obtain ⟨xs, doubles⟩ := exists_doubles noInteger numbers
    refine ⟨xs, _, doubles, apply_doubles f doubles, fun z special => onDoubles_of_special? special,
      fun ordinary => ⟨onDoubles_ne_nan ordinary, ?_⟩⟩
    rintro rfl
    exact onDoubles_exp_ne_infinity ordinary

theorem apply_arguments_mixed :
    hypot.apply [.double (.infinity true), .boolean true, .undefined] =
      .error (.fault (.argumentKind "hypot" .boolean)) ∧
    ln.apply [.double (.zero true), .boolean true] = .ok (.double (.infinity true)) := by
  constructor
  · exact ((apply_arguments hypot [.double (.infinity true), .boolean true, .undefined]
      (fun i => by simp [used, Value.double])).2.1 _).mpr ⟨.boolean true, rfl, rfl⟩
  · obtain ⟨xs, y, same, answered, special, -⟩ :=
      (apply_arguments ln [.double (.zero true), .boolean true]
        (fun i => by simp [used, Value.double])).2.2 (by simp [used, Value.double, Value.kind])
    have listed : xs = [.zero true] := by
      simpa [used, Value.double, List.map_eq_cons_iff, eq_comm] using same
    rw [answered, special (.infinity true) (by rw [listed]; decide +kernel)]

end MathFunction

end DynamicScope
