import DynamicScope.Proofs.Run.Growth
import DynamicScope.Proofs.Run.Parts
import DynamicScope.Proofs.Simulation.Invariant

/-! Accounting for objects.
Arrays and functions of the language have identities. A log of those that were made so far accounts
for a world if every one that can be found in an environment, however deep in arrays, is in the log,
and if the log has them in the order of their identities, all of which are used up. -/

namespace DynamicScope

open Machine

namespace Store

variable {s : Store} {env other : EnvRef} {entry : Name × Value}

theorem mem_bindings_new {b : Bindings} (h : entry ∈ (s.new b).2.bindings env) :
    entry ∈ s.bindings env ∨ entry ∈ b := by
  by_cases there : env < s.environments.size
  · rw [bindings_new_of_lt s b env there] at h
    exact .inl h
  · by_cases new : env = s.environments.size
    · subst new
      rw [← place_new s b, bindings_new_self] at h
      exact .inr h
    · have beyond : (s.new b).2.environments.size ≤ env := by
        rw [size_new]
        exact Nat.lt_of_le_of_ne (Nat.le_of_not_lt there) (Ne.symm new)
      rw [bindings, Array.getD_eq_getD_getElem?, Array.getElem?_eq_none beyond] at h
      cases h

theorem mem_bindings_overwrite {name : Name} {value : Value}
    (h : entry ∈ (s.overwrite env name value).bindings other) :
    entry ∈ s.bindings other ∨ entry.2 = value := by
  by_cases same : other = env
  · subst same
    by_cases there : other < s.environments.size
    · rw [bindings_overwrite_self s other name value there] at h
      exact Bindings.mem_insert h
    · rw [bindings, Array.getD_eq_getD_getElem?, Array.getElem?_eq_none (by simpa using there)] at h
      cases h
  · rw [bindings_overwrite_of_ne s env other name value same] at h
    exact .inl h

end Store

namespace Value

def identity? : Value → Option Nat
  | .array i _ => some i
  | .function i _ _ => some i
  | _ => none

abbrev IsObject (v : Value) : Prop := ∃ i, v.identity? = some i

/-- Whether all objects in a value are in the log. -/
def From (log : List Value) (v : Value) : Prop :=
  ∀ part, v.Contains part → part.IsObject → part ∈ log

variable {log log' : List Value} {v : Value} {items : List Value} {i : Nat}

theorem from_iff : v.From log ↔ (v.IsObject → v ∈ log) ∧ ∀ element ∈ v.elements, element.From log :=
  forall_contains_iff

theorem From.mem (h : v.From log) (object : v.IsObject) : v ∈ log := (from_iff.mp h).1 object

theorem From.element (h : (array i items).From log) {item : Value} (listed : item ∈ items) :
    item.From log := (from_iff.mp h).2 item listed

theorem From.mono (more : log <+: log') (h : v.From log) : v.From log' :=
  fun part inside object => more.subset (h part inside object)

theorem from_of_not_isObject (elements : v.elements = []) (plain : v.identity? = none) :
    v.From log := by
  refine from_iff.mpr ⟨?_, by simp [elements]⟩
  rintro ⟨i, same⟩
  rw [plain] at same
  cases same

theorem from_of_isPlain (h : v.isPlain = true) : v.From log :=
  from_of_not_isObject (elements_of_isPlain h) (by cases v <;> first | rfl | cases h)

theorem from_undefined : undefined.From log := from_of_not_isObject rfl rfl

theorem from_array (held : ∀ item ∈ items, item.From log) :
    (array i items).From (log ++ [array i items]) :=
  from_iff.mpr ⟨fun _ => List.mem_append_right _ (.head _),
    fun item listed => (held item listed).mono (List.prefix_append _ _)⟩

theorem from_function (parameters body : Ast) :
    (function i parameters body).From (log ++ [function i parameters body]) :=
  from_iff.mpr ⟨fun _ => List.mem_append_right _ (.head _), nofun⟩

theorem equal_eq_of_identity? {a b : Value} {i j : Nat} (left : a.identity? = some i)
    (right : b.identity? = some j) (kind : a.kind = b.kind) : a.equal b = decide (i = j) := by
  cases a with
  | array _ _ | function _ _ _ =>
    cases left
    cases b with
    | array _ _ | function _ _ _ =>
      cases right
      first | rfl | cases kind
    | _ => cases right
  | _ => cases left

theorem equal_of_kind_ne {a b : Value} (kind : a.kind ≠ b.kind) : a.equal b = false := by
  cases a <;> cases b <;> first | rfl | exact absurd rfl kind

theorem binary_equal {a b : Value} (kind : a.kind = b.kind) :
    binary (.scalar (.string (.proper "=="))) a b = .ok (.boolean (a.equal b)) := by
  have operands : equalOperands "==" a b = .ok (a.equal b) := if_pos kind
  change applyOperator "==" a b .equal = _
  rw [applyOperator, operands]
  rfl

theorem binary_unequal {a b : Value} (kind : a.kind = b.kind) :
    binary (.scalar (.string (.proper "!="))) a b = .ok (.boolean !(a.equal b)) := by
  have operands : equalOperands "!=" a b = .ok (a.equal b) := if_pos kind
  change applyOperator "!=" a b .unequal = _
  rw [applyOperator, operands]
  rfl

end Value

/-- A log that has all objects that can be found in a world, in the order of their identities. -/
structure World.Accounted (log : List Value) (w : World) : Prop where
  bound : ∀ env, ∀ entry ∈ w.bindings env, entry.2.From log
  used : ∀ v ∈ log, ∃ i < w.nextIdentity, v.identity? = some i
  ordered : log.Pairwise fun a b => ∀ i j, a.identity? = some i → b.identity? = some j → i < j

namespace World.Accounted

variable {log : List Value} {w : World}

theorem traced (h : w.Accounted log) (trace : Array Event) : { w with trace }.Accounted log :=
  ⟨h.bound, h.used, h.ordered⟩

theorem skipped (h : w.Accounted log) (count : Nat) :
    { w with nextIdentity := w.nextIdentity + count }.Accounted log := by
  refine ⟨h.bound, fun v listed => ?_, h.ordered⟩
  obtain ⟨i, old, same⟩ := h.used v listed
  exact ⟨i, Nat.lt_add_right count old, same⟩

theorem new (h : w.Accounted log) {b : Bindings} (held : ∀ entry ∈ b, entry.2.From log) :
    { w with store := (w.store.new b).2 }.Accounted log := by
  refine ⟨fun env entry listed => ?_, h.used, h.ordered⟩
  rcases Store.mem_bindings_new listed with old | here
  · exact h.bound env entry old
  · exact held entry here

theorem merged (h : w.Accounted log) (env : EnvRef) {others : List (Name × Value)}
    (held : ∀ other ∈ others, other.2.From log) :
    { w with store := (w.store.merged env others).2 }.Accounted log := by
  refine h.new fun entry listed => ?_
  rcases Bindings.mem_insertAll listed with old | ⟨other, given, same⟩
  · exact h.bound env entry old
  · exact same ▸ held other given

theorem overwrite (h : w.Accounted log) (env : EnvRef) (name : Name) {value : Value}
    (held : value.From log) : { w with store := w.store.overwrite env name value }.Accounted log := by
  refine ⟨fun other entry listed => ?_, h.used, h.ordered⟩
  rcases Store.mem_bindings_overwrite listed with old | same
  · exact h.bound other entry old
  · exact same ▸ held

theorem made (h : w.Accounted log) {v : Value} (identity : v.identity? = some w.nextIdentity) :
    { w with nextIdentity := w.nextIdentity + 1 }.Accounted (log ++ [v]) := by
  refine ⟨fun env entry listed => (h.bound env entry listed).mono (List.prefix_append _ _),
    fun u listed => ?_, List.pairwise_append.mpr ⟨h.ordered, List.pairwise_singleton _ v, ?_⟩⟩
  · rcases List.mem_append.mp listed with old | new
    · exact (h.skipped 1).used u old
    · obtain rfl := List.mem_singleton.mp new
      exact ⟨w.nextIdentity, Nat.lt_succ_self _, identity⟩
  · intro a old b new i j left right
    obtain rfl := List.mem_singleton.mp new
    obtain ⟨i', below, same⟩ := h.used a old
    rw [left] at same
    rw [identity] at right
    cases same
    cases right
    exact below

theorem lookup? (h : w.Accounted log) {env : EnvRef} {name : Json} {f : Value} {v : World}
    (found : (Machine.lookup? env name).run w = .ok (some f) v) : f.From log := by
  obtain ⟨key, -, bound⟩ := value?_of_lookup? found
  obtain ⟨entry, listed, same⟩ := Bindings.mem_of_value? bound
  exact same ▸ h.bound env entry listed

end World.Accounted

end DynamicScope
