import DynamicScope.Text.Basic

/-!
Events of a run, as its trace shows them. The first level tells of the run as a whole, the second of
statements and calls, the third of binary operations and loop conditions.
-/

namespace DynamicScope

inductive Event
  | started
  | finished (printed : Nat)
  | declaration (name value : Text)
  | definition (name function : Text)
  | assignment (name value : Text)
  | print (value : Text)
  | call (name : Text) (arguments : List Text)
  | binary (left operator right : Text)
  | condition (value : Text)
  deriving DecidableEq

namespace Event

def level : Event → Nat
  | .started => 1
  | .finished _ => 1
  | .binary .. => 3
  | .condition _ => 3
  | _ => 2

def text : Event → Text
  | .started => "run program"
  | .finished printed => s!"finished with {printed} printed value(s)"
  | .declaration name value => .join ["declare ", name, " = ", value]
  | .definition name function => .join ["define function ", name, function]
  | .assignment name value => .join ["assign ", name, " = ", value]
  | .print value => .join ["print ", value]
  | .call name arguments => .join ["call ", name, "(", .intercalate ", " arguments, ")"]
  | .binary left operator right => .join ["binary ", left, " ", operator, " ", right]
  | .condition value => .join ["while condition ", value]

end Event

end DynamicScope
