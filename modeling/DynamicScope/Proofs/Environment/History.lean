import DynamicScope.Proofs.Run.Frame

/-! Environments by what has been done to them.
An environment is a copy, and only a set of its own changes it. So what a name in it stands for is read
off the history of all environments: first come the sets that succeeded in it, the last one first, then
the bindings it was made with, then what its source had at that moment. An environment is reached by its
place, however many holders share it. -/

namespace DynamicScope

open Machine

namespace Bindings

theorem value?_append (b b' : Bindings) (name : Name) :
    value? (b ++ b') name = (b.value? name).or (b'.value? name) := by
  induction b with
  | nil => rfl
  | cons entry rest ih =>
    rw [List.cons_append, value?_cons, value?_cons, ih]
    split <;> rfl

theorem value?_insertAll_eq (b : Bindings) (others : List (Name × Value)) (name : Name) :
    (b.insertAll others).value? name = value? (others.reverse ++ b) name := by
  induction others generalizing b with
  | nil => rfl
  | cons other rest ih =>
    calc (b.insertAll (other :: rest)).value? name
        = value? (rest.reverse ++ b.insert other.1 other.2) name := ih _
      _ = value? (rest.reverse ++ (other :: b)) name := by
        rw [value?_append, value?_append, value?_insert, value?_cons]
      _ = value? ((other :: rest).reverse ++ b) name := by
        rw [List.reverse_cons, List.append_assoc, List.singleton_append]

theorem insertAll_append (b : Bindings) (others later : List (Name × Value)) :
    b.insertAll (others ++ later) = (b.insertAll others).insertAll later :=
  List.foldl_append

def keys (b : Bindings) : List Scalar.Key := b.map fun entry => entry.1.key

def Distinct (b : Bindings) : Prop := b.keys.Nodup

theorem key_mem_keys {b : Bindings} {name : Name} : name.key ∈ b.keys ↔ b.binds name = true := by
  induction b with
  | nil => simp [keys, binds]
  | cons entry rest ih =>
    rw [keys, List.map_cons, List.mem_cons, ← keys, ih, binds, binds, value?_cons]
    by_cases here : entry.1.key = name.key
    · simp [here]
    · simp [here, Ne.symm here]

theorem keys_insert_of_not_binds {b : Bindings} {name : Name} (free : b.binds name = false)
    (value : Value) : (b.insert name value).keys = b.keys ++ [name.key] := by
  induction b with
  | nil => rfl
  | cons entry rest ih =>
    obtain ⟨n, v⟩ := entry
    rw [binds, value?_cons] at free
    by_cases same : n.key = name.key
    · rw [if_pos same] at free
      cases free
    · rw [if_neg same] at free
      rw [insert, if_neg same]
      exact congrArg (n.key :: ·) (ih free)

theorem keys_insert_of_binds {b : Bindings} {name : Name} (bound : b.binds name = true)
    (value : Value) : (b.insert name value).keys = b.keys := by
  have names := congrArg (List.map Scalar.key) (names_insert b name value bound)
  rwa [List.map_map, List.map_map] at names

namespace Distinct

variable {b : Bindings}

theorem insert (h : b.Distinct) (name : Name) (value : Value) : (b.insert name value).Distinct := by
  rw [Distinct]
  cases bound : b.binds name with
  | true => exact keys_insert_of_binds bound value ▸ h
  | false =>
    have new : name.key ∉ b.keys := by simp [key_mem_keys, bound]
    rw [keys_insert_of_not_binds bound]
    exact List.nodup_append.mpr ⟨h, List.pairwise_singleton _ _, fun key listed other last => by
      rw [List.mem_singleton.mp last]
      exact fun same => new (same ▸ listed)⟩

theorem insertAll (h : b.Distinct) (others : List (Name × Value)) : (b.insertAll others).Distinct := by
  induction others generalizing b with
  | nil => exact h
  | cons other rest ih => exact ih (h.insert other.1 other.2)

end Distinct

end Bindings

namespace Store

theorem bindings_new (s : Store) (b : Bindings) (env : EnvRef) :
    (s.new b).2.bindings env = if env = s.environments.size then b else s.bindings env := by
  by_cases last : env = s.environments.size
  · rw [if_pos last, last]
    exact s.bindings_new_self b
  · simp [new, bindings, Array.getD_eq_getD_getElem?, Array.getElem?_push, last]

theorem lt_of_binds {s : Store} {env : EnvRef} {name : Name}
    (bound : (s.bindings env).binds name = true) : env < s.environments.size := by
  refine Nat.lt_of_not_le fun beyond => ?_
  have nothing : s.bindings env = [] := by simp [bindings, Array.getD_eq_getD_getElem?, beyond]
  rw [nothing] at bound
  cases bound

theorem bindings_overwrite {s : Store} {env : EnvRef} {name : Name}
    (bound : (s.bindings env).binds name = true) (value : Value) (other : EnvRef) :
    (s.overwrite env name value).bindings other =
      if other = env then (s.bindings env).insert name value else s.bindings other := by
  by_cases here : other = env
  · subst here
    rw [if_pos rfl, bindings_overwrite_self _ _ _ _ (lt_of_binds bound)]
  · rw [if_neg here, bindings_overwrite_of_ne _ _ _ _ _ here]

/-- What can be done to environments: one is made, of nothing or as a copy of another, or a name in one
is set. -/
inductive Change
  | new (entries : List (Name × Value))
  | extended (env : EnvRef) (name : Name) (value : Value)
  | merged (env : EnvRef) (others : List (Name × Value))
  | set (env : EnvRef) (name : Json) (value : Value)

namespace Change

def step : Change → Machine (Option EnvRef)
  | .new entries => do return some (← newEnvironment (Bindings.insertAll [] entries))
  | .extended env name value => do return some (← Machine.extended env name value)
  | .merged env others => do return some (← Machine.merged env others)
  | .set env name value => do assign env name value; return none

/-- For a change that makes an environment, what the source has and what is laid over it. -/
def creation? (w : World) : Change → Option (Bindings × List (Name × Value))
  | .new entries => some ([], entries)
  | .extended env name value => some (w.bindings env, [(name, value)])
  | .merged env others => some (w.bindings env, others)
  | .set .. => none

/-- For a set in an environment that succeeds, what it binds. -/
def setOn (env : EnvRef) (w : World) : Change → Option (Name × Value)
  | .set other name value =>
    match Name.ofJson? name, (set other name value).step.run w with
    | .ok key, .ok _ _ => if other = env then some (key, value) else none
    | _, _ => none
  | _ => none

/-- All that a change can do to the world: an environment is there behind the others, or a name that is
bound has a new value, or everything is as it was. -/
inductive Effect (w : World) (c : Change) : World → Prop
  | made {source : Bindings} {entries : List (Name × Value)}
    (creates : c.creation? w = some (source, entries)) (unset : ∀ env, c.setOn env w = none) :
    Effect w c { w with store := (w.store.new (source.insertAll entries)).2 }
  | set {env : EnvRef} {key : Name} {value : Value} (unmade : c.creation? w = none)
    (sets : ∀ other, c.setOn other w = if env = other then some (key, value) else none)
    (bound : (w.store.bindings env).binds key = true) :
    Effect w c { w with store := w.store.overwrite env key value }
  | unchanged (unmade : c.creation? w = none) (unset : ∀ env, c.setOn env w = none) : Effect w c w

theorem set_cases (env : EnvRef) (name : Json) (value : Value) (w : World) :
    (∃ key, Name.ofJson? name = .ok key ∧ (w.store.bindings env).binds key = true ∧
      (set env name value).step.run w =
        .ok none { w with store := w.store.overwrite env key value }) ∨
    (∃ key, Name.ofJson? name = .ok key ∧ (w.store.bindings env).binds key = false ∧
      (set env name value).step.run w = .error (Fault.assignmentToUndeclared name).raised w) ∨
    ∃ e, Name.ofJson? name = .error e ∧ (set env name value).step.run w = .error e w := by
  rw [step, EStateM.run_bind, run_assign]
  cases Name.ofJson? name with
  | error e => exact .inr (.inr ⟨e, rfl, rfl⟩)
  | ok key =>
    dsimp only
    cases bound : (w.store.bindings env).binds key with
    | true => exact .inl ⟨key, rfl, bound, rfl⟩
    | false => exact .inr (.inl ⟨key, rfl, bound, rfl⟩)

theorem effect (c : Change) (w : World) : Effect w c (c.step.after w) := by
  cases c with
  | new | extended | merged => exact .made rfl fun _ => rfl
  | set env name value =>
    rw [after]
    rcases set_cases env name value w with
      ⟨key, named, bound, ran⟩ | ⟨key, named, -, ran⟩ | ⟨e, unnamed, ran⟩
    · rw [ran]
      exact .set rfl (fun other => by rw [setOn, named, ran]) bound
    · rw [ran]
      exact .unchanged rfl fun other => by rw [setOn, named, ran]
    · rw [ran]
      exact .unchanged rfl fun other => by rw [setOn, unnamed]

end Change

end Store

open Store (Change)

namespace World

/-- The world after changes, one after another. One that fails does not keep the next from being made. -/
def history (w : World) (changes : List Change) : World :=
  changes.foldl (fun w c => c.step.after w) w

def setsOn (env : EnvRef) : World → List Change → List (Name × Value)
  | _, [] => []
  | w, c :: changes => (c.setOn env w).toList ++ setsOn env (c.step.after w) changes

theorem history_append (w : World) (before : List Change) (c : Change) (later : List Change) :
    w.history (before ++ c :: later) = (c.step.after (w.history before)).history later :=
  List.foldl_append

variable {w : World} {c : Change} {env : EnvRef} {source : Bindings} {entries : List (Name × Value)}

theorem run_of_creation (creates : c.creation? w = some (source, entries)) :
    c.step.run w = .ok (some w.size) { w with store := (w.store.new (source.insertAll entries)).2 } := by
  cases c with
  | set => cases creates
  | new | extended | merged =>
    cases creates
    rfl

theorem size_after_of_creation (creates : c.creation? w = some (source, entries)) :
    (c.step.after w).size = w.size + 1 := by
  rw [after_of_ok (run_of_creation creates), size, Store.size_new]

theorem bindings_of_creation (creates : c.creation? w = some (source, entries)) :
    (c.step.after w).bindings w.size = source.insertAll entries := by
  rw [after_of_ok (run_of_creation creates)]
  exact Store.bindings_new_self _ _

theorem bindings_after (c : Change) (there : env < w.size) :
    (c.step.after w).bindings env = (w.bindings env).insertAll (c.setOn env w).toList := by
  have effect := c.effect w
  generalize c.step.after w = u at effect ⊢
  cases effect with
  | made creates unset =>
    rw [unset]
    exact Store.bindings_new_of_lt _ _ _ there
  | @set other key value unmade sets bound =>
    rw [bindings, Store.bindings_overwrite bound, sets]
    by_cases here : env = other
    · subst here
      rw [if_pos rfl, if_pos rfl]
      rfl
    · rw [if_neg here, if_neg (Ne.symm here)]
      rfl
  | unchanged unmade unset =>
    rw [unset]
    rfl

theorem size_after_of_set (unmade : c.creation? w = none) : (c.step.after w).size = w.size := by
  have effect := c.effect w
  generalize c.step.after w = u at effect ⊢
  cases effect with
  | made creates => cases unmade.symm.trans creates
  | set => exact Store.size_overwrite _ _ _ _
  | unchanged => rfl

theorem size_le_after (c : Change) (w : World) : w.size ≤ (c.step.after w).size := by
  cases creates : c.creation? w with
  | none => exact Nat.le_of_eq (size_after_of_set creates).symm
  | some made => exact size_after_of_creation creates ▸ Nat.le_succ _

theorem bindings_history (changes : List Change) (there : env < w.size) :
    (w.history changes).bindings env = (w.bindings env).insertAll (w.setsOn env changes) := by
  induction changes generalizing w with
  | nil => rfl
  | cons c changes ih =>
    rw [setsOn, Bindings.insertAll_append, ← bindings_after c there]
    exact ih (Nat.lt_of_lt_of_le there (size_le_after c w))

theorem value?_of_creation (creates : c.creation? w = some (source, entries)) (later : List Change)
    (name : Name) :
    (((c.step.after w).history later).bindings w.size).value? name =
      Bindings.value? ((entries ++ (c.step.after w).setsOn w.size later).reverse ++ source) name := by
  have there : w.size < (c.step.after w).size :=
    size_after_of_creation creates ▸ Nat.lt_succ_self w.size
  rw [bindings_history later there, bindings_of_creation creates, ← Bindings.insertAll_append,
    Bindings.value?_insertAll_eq]

theorem exists_creation {changes : List Change} (new : w.size ≤ env)
    (there : env < (w.history changes).size) :
    ∃ before c later source entries, changes = before ++ c :: later ∧
      (w.history before).size = env ∧ c.creation? (w.history before) = some (source, entries) := by
  induction changes generalizing w with
  | nil => exact absurd there (Nat.not_lt_of_le new)
  | cons c changes ih =>
    by_cases now : (c.step.after w).size ≤ env
    · obtain ⟨before, d, later, source, entries, rfl, size, creates⟩ := ih now there
      exact ⟨c :: before, d, later, source, entries, rfl, size, creates⟩
    · cases creates : c.creation? w with
      | none => exact absurd new (size_after_of_set creates ▸ now)
      | some made =>
        have last : w.size = env := by
          have size := size_after_of_creation creates
          omega
        exact ⟨[], c, changes, made.1, made.2, rfl, last, creates⟩

theorem distinct_after (distinct : ∀ env, (w.bindings env).Distinct) (c : Change) (env : EnvRef) :
    ((c.step.after w).bindings env).Distinct := by
  have effect := c.effect w
  generalize c.step.after w = u at effect ⊢
  cases effect with
  | @made source entries creates =>
    have given : source.Distinct := by
      cases c with
      | set => cases creates
      | new => cases creates; exact List.nodup_nil
      | extended | merged => cases creates; exact distinct _
    rw [bindings, Store.bindings_new]
    split
    · exact given.insertAll entries
    · exact distinct env
  | @set other key value unmade sets bound =>
    rw [bindings, Store.bindings_overwrite bound]
    split
    · exact (distinct other).insert key value
    · exact distinct env
  | unchanged => exact distinct env

theorem distinct_history (distinct : ∀ env, (w.bindings env).Distinct) (changes : List Change) :
    ∀ env, ((w.history changes).bindings env).Distinct := by
  induction changes generalizing w with
  | nil => exact distinct
  | cons c changes ih => exact ih (distinct_after distinct c)

theorem bindings_startWorld (setup : Setup) (env : EnvRef) : setup.startWorld.bindings env = [] := by
  simp [Setup.startWorld, bindings, Store.bindings, Store.empty]

end World

namespace Store.Change

variable {w : World} {env : EnvRef} {name : Json} {value : Value}

theorem setOn_of_ne {c : Change} (other : ∀ name value, c ≠ .set env name value) :
    c.setOn env w = none := by
  cases c with
  | set place name value =>
    have elsewhere : place ≠ env := by
      rintro rfl
      exact other name value rfl
    rw [setOn]
    split
    · exact if_neg elsewhere
    · rfl
  | _ => rfl

theorem eq_of_set_error {e : Failure} {u : World}
    (failed : (set env name value).step.run w = .error e u) : u = w := by
  rcases set_cases env name value w with ⟨_, -, -, ran⟩ | ⟨_, -, -, ran⟩ | ⟨_, -, ran⟩ <;>
    cases ran.symm.trans failed
  · rfl
  · rfl

theorem set_undeclared_iff :
    (∃ f u, (set env name value).step.run w = .error (.fault f) u ∧ f.kind = .undeclaredIdentifier) ↔
      ∃ key, Name.ofJson? name = .ok key ∧ (w.bindings env).value? key = none ∧ name.isShort := by
  rcases set_cases env name value w with
    ⟨key, named, bound, ran⟩ | ⟨key, named, free, ran⟩ | ⟨e, unnamed, ran⟩
  · refine iff_of_false ?_ ?_
    · rintro ⟨f, u, failed, -⟩
      cases ran.symm.trans failed
    · rintro ⟨_, same, free, -⟩
      cases named.symm.trans same
      cases (congrArg Option.isSome free).symm.trans bound
  · have absent := Option.not_isSome_iff_eq_none.mp (Bool.not_eq_true _ ▸ free)
    by_cases short : name.isShort
    · refine iff_of_true ⟨.assignmentToUndeclared name, w, ran.trans ?_, rfl⟩ ⟨key, named, absent, short⟩
      rw [Fault.raised_of_short rfl short]
    · refine iff_of_false ?_ fun ⟨_, _, _, short'⟩ => short short'
      rintro ⟨f, u, failed, -⟩
      rw [Fault.raised_of_not_short rfl short] at ran
      cases ran.symm.trans failed
  · refine iff_of_false ?_ ?_
    · rintro ⟨f, u, failed, -⟩
      cases ran.symm.trans failed
      cases name <;> cases unnamed
    · rintro ⟨_, same, -⟩
      cases unnamed.symm.trans same

theorem set_succeeds_iff :
    (∃ made u, (set env name value).step.run w = .ok made u) ↔
      ∃ key, Name.ofJson? name = .ok key ∧ ((w.bindings env).value? key).isSome = true := by
  rcases set_cases env name value w with
    ⟨key, named, bound, ran⟩ | ⟨key, named, free, ran⟩ | ⟨e, unnamed, ran⟩
  · exact iff_of_true ⟨_, _, ran⟩ ⟨key, named, bound⟩
  · refine iff_of_false ?_ ?_
    · rintro ⟨made, u, succeeded⟩
      cases ran.symm.trans succeeded
    · rintro ⟨_, same, bound⟩
      cases named.symm.trans same
      cases free.symm.trans bound
  · refine iff_of_false ?_ ?_
    · rintro ⟨made, u, succeeded⟩
      cases ran.symm.trans succeeded
    · rintro ⟨_, same, -⟩
      cases unnamed.symm.trans same

theorem length_after_set (w : World) (env other : EnvRef) (name : Json) (value : Value) :
    (((set env name value).step.after w).bindings other).length = (w.bindings other).length := by
  have effect := (set env name value).effect w
  generalize (set env name value).step.after w = u at effect ⊢
  cases effect with
  | made creates => cases creates
  | set unmade sets bound =>
    rw [World.bindings, bindings_overwrite bound]
    split
    · rename_i here
      subst here
      exact Bindings.length_insert_of_binds _ _ _ bound
    · rfl
  | unchanged => rfl

end Store.Change

/-- Of whatever is done to environments, each of them comes to this. It was made and returned by one of
the changes, behind those that there were, and a name in it stands for what the last set that succeeded in
it since then has bound, or else for the last of the bindings it was made with, or else for what its
source had when it was made; no name in it is bound twice. A set succeeds exactly if its name is bound; one
that fails leaves every environment as it was, and fails for an undeclared name exactly if nothing is
bound to it and the name is short enough to be quoted; no set changes how many bindings there are.
Whatever is not a set in an environment leaves it as it was. -/
theorem Setup.environments_by_history (setup : Setup) (changes : List Change) :
    let start := setup.startWorld
    let now := start.history changes
    (∀ env < now.size, (now.bindings env).Distinct ∧
      ∃ before c later source entries, changes = before ++ c :: later ∧
        (start.history before).size = env ∧
        c.step.run (start.history before) = .ok (some env) (c.step.after (start.history before)) ∧
        c.creation? (start.history before) = some (source, entries) ∧
        ∀ name, (now.bindings env).value? name = Bindings.value?
          ((entries ++ (c.step.after (start.history before)).setsOn env later).reverse ++ source) name) ∧
    (∀ env name value,
      ((∃ made u, (Change.set env name value).step.run now = .ok made u) ↔
        ∃ key, Name.ofJson? name = .ok key ∧ ((now.bindings env).value? key).isSome = true) ∧
      (∀ e u, (Change.set env name value).step.run now = .error e u → u = now) ∧
      ((∃ f u, (Change.set env name value).step.run now = .error (.fault f) u ∧
          f.kind = .undeclaredIdentifier) ↔
        ∃ key, Name.ofJson? name = .ok key ∧ (now.bindings env).value? key = none ∧ name.isShort) ∧
      ∀ other, (((Change.set env name value).step.after now).bindings other).length =
        (now.bindings other).length) ∧
    ∀ (c : Change) (env : EnvRef), env < now.size → (∀ name value, c ≠ .set env name value) →
      (c.step.after now).bindings env = now.bindings env := by
  intro start now
  refine ⟨fun env there => ⟨?_, ?_⟩, fun env name value => ⟨?_, ?_, ?_, ?_⟩, fun c env there other => ?_⟩
  · refine World.distinct_history (fun env => ?_) changes env
    rw [World.bindings_startWorld]
    exact List.nodup_nil
  · obtain ⟨before, c, later, source, entries, rfl, last, creates⟩ :=
      World.exists_creation (Nat.zero_le env) there
    subst last
    have ran := World.run_of_creation creates
    refine ⟨before, c, later, source, entries, rfl, rfl, after_of_ok ran ▸ ran, creates, fun name => ?_⟩
    rw [show now = _ from World.history_append start before c later]
    exact World.value?_of_creation creates later name
  · exact Change.set_succeeds_iff
  · exact fun e u => Change.eq_of_set_error
  · exact Change.set_undeclared_iff
  · exact fun other => Change.length_after_set now env other name value
  · rw [World.bindings_after c there, Change.setOn_of_ne other]
    rfl

/-- A set in an environment does not reach a copy that was made before. -/
example :
    let x := Name.ofString "x"
    let now := (Setup.startWorld ⟨0, []⟩).history [.new [(x, .boolean true)],
      .extended 0 (.ofString "y") .undefined, .set 0 (.scalar x) (.boolean false)]
    (now.bindings 0).value? x = some (.boolean false) ∧
      (now.bindings 1).value? x = some (.boolean true) := ⟨rfl, rfl⟩

end DynamicScope
