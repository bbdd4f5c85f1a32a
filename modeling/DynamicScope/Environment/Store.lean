import DynamicScope.Environment.Bindings

/-!
Environments. An environment is a place in the store, so whoever holds the same environment sees the
same bindings. Only `overwrite` changes an existing one; a new one is added at the end.
-/

namespace DynamicScope

abbrev EnvRef := Nat

structure Store where
  environments : Array Bindings

namespace Store

def empty : Store := ⟨#[]⟩

def bindings (s : Store) (env : EnvRef) : Bindings := s.environments.getD env []

def new (s : Store) (b : Bindings) : EnvRef × Store :=
  (s.environments.size, ⟨s.environments.push b⟩)

def merged (s : Store) (env : EnvRef) (others : List (Name × Value)) : EnvRef × Store :=
  s.new ((s.bindings env).insertAll others)

def extended (s : Store) (env : EnvRef) (name : Name) (value : Value) : EnvRef × Store :=
  s.merged env [(name, value)]

def overwrite (s : Store) (env : EnvRef) (name : Name) (value : Value) : Store :=
  ⟨s.environments.modify env fun b => b.insert name value⟩

theorem bindings_new_self (s : Store) (b : Bindings) : (s.new b).2.bindings (s.new b).1 = b := by
  simp [new, bindings]

theorem bindings_new_of_lt (s : Store) (b : Bindings) (env : EnvRef)
    (h : env < s.environments.size) : (s.new b).2.bindings env = s.bindings env := by
  simp [new, bindings, Array.getD_eq_getD_getElem?, Array.getElem?_push, Nat.ne_of_lt h]

theorem bindings_overwrite_self (s : Store) (env : EnvRef) (name : Name) (value : Value)
    (h : env < s.environments.size) :
    (s.overwrite env name value).bindings env = (s.bindings env).insert name value := by
  simp [overwrite, bindings, Array.getD_eq_getD_getElem?, Array.getElem_modify, h]

theorem bindings_overwrite_of_ne (s : Store) (env other : EnvRef) (name : Name) (value : Value)
    (h : other ≠ env) : (s.overwrite env name value).bindings other = s.bindings other := by
  simp [overwrite, bindings, Array.getD_eq_getD_getElem?, Array.getElem?_modify, Ne.symm h]

end Store

end DynamicScope
