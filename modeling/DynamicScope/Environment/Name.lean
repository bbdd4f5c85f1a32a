import DynamicScope.Failure

/-!
Names of bindings. Any scalar can be a name, and names with the same key are the same name, however
they are spelled.
-/

namespace DynamicScope

abbrev Name := Scalar

namespace Name

def ofString (s : String) : Name := .string s

def ofJson? : Json → Except Failure Name
  | .scalar s => .ok s
  | document => .error (.notAName document.className)

/-- Whether one name comes before another: numbers by their places, texts by their code points. Names
of two sorts have no order. -/
def before? (a b : Name) : Option Bool :=
  match a.key, b.key with
  | .number (some p), .number (some q) => some (p.less q)
  | .number _, .number _ => some false
  | .text s, .text t => some (s.less t)
  | _, _ => none

end Name

end DynamicScope
