import DynamicScope.Environment.Name
import DynamicScope.Value.Basic

/-!
Bindings of names to values. A name has at most one value: inserting replaces the value of a bound
name, which keeps its spelling, and otherwise adds the name at the end.
-/

namespace DynamicScope

abbrev Bindings := List (Name × Value)

namespace Bindings

def value? (b : Bindings) (name : Name) : Option Value :=
  match b with
  | [] => none
  | (n, v) :: rest => if n.key = name.key then some v else value? rest name

/-- The value of a name that counts as bound: the undefined value and nothing count as absent. -/
def present? (b : Bindings) (name : Name) : Option Value := (b.value? name).filter Value.isPresent

/-- Whether the name is bound, to whatever value. -/
def binds (b : Bindings) (name : Name) : Bool := (b.value? name).isSome

def insert (b : Bindings) (name : Name) (value : Value) : Bindings :=
  match b with
  | [] => [(name, value)]
  | (n, v) :: rest =>
    if n.key = name.key then (n, value) :: rest else (n, v) :: insert rest name value

/-- The bindings overlaid by others, the last of a repeated name. -/
def insertAll (b : Bindings) (others : List (Name × Value)) : Bindings :=
  others.foldl (fun b entry => b.insert entry.1 entry.2) b

/-- The bindings in the order of their names, if all names are of one sort. -/
def sorted? (b : Bindings) : Option Bindings :=
  match b with
  | [] => some []
  | (name, value) :: rest =>
    if rest.all fun entry => (name.before? entry.1).isSome then
      some (((name, value) :: rest).mergeSort fun x y => !(y.1.before? x.1).getD false)
    else none

@[simp] theorem value?_nil (name : Name) : value? [] name = none := rfl

theorem value?_cons (n name : Name) (v : Value) (b : Bindings) :
    value? ((n, v) :: b) name = if n.key = name.key then some v else value? b name := rfl

theorem value?_insert (b : Bindings) (name other : Name) (value : Value) :
    (b.insert name value).value? other =
      if name.key = other.key then some value else b.value? other := by
  induction b with
  | nil => simp [insert, value?_cons]
  | cons entry rest ih =>
    obtain ⟨n, v⟩ := entry
    by_cases same : n.key = name.key
    · by_cases here : name.key = other.key <;> simp [insert, value?_cons, same, here]
    · simp only [insert, if_neg same, value?_cons, ih]
      by_cases here : n.key = other.key
      · rw [if_pos here, if_pos here, if_neg fun h => same (here.trans h.symm)]
      · rw [if_neg here, if_neg here]

theorem length_insert_of_binds (b : Bindings) (name : Name) (value : Value)
    (h : b.binds name = true) : (b.insert name value).length = b.length := by
  induction b with
  | nil => simp [binds] at h
  | cons entry rest ih =>
    obtain ⟨n, v⟩ := entry
    by_cases same : n.key = name.key
    · simp [insert, same]
    · simp only [binds, value?_cons, if_neg same] at h
      simp [insert, same, ih h]

end Bindings

end DynamicScope
