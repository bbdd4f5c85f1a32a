import DynamicScope.Value.Basic

/-!
Native functions, which a host adds to the library. A native function is given the first identity
that is free and its arguments, and answers a value and how many identities it used; so it can make
arrays, but it cannot change anything.
-/

namespace DynamicScope

structure Native where
  name : String
  arity : Option Nat
  apply : Nat → List Value → Except Failure (Value × Nat)

namespace Native

def plain (name : String) (arity : Option Nat)
    (apply : List Value → Except Failure Value) : Native :=
  ⟨name, arity, fun _ arguments => do return (← apply arguments, 0)⟩

def count : Native :=
  plain "count" (some 1) fun arguments => .ok (.double (Double.ofInt arguments.length))

def length : Native :=
  plain "length" none fun arguments => match arguments with
    | .array _ items :: _ => .ok (.number (.integer items.length))
    | _ => .ok .undefined

def first : Native :=
  plain "first" none fun arguments => .ok (arguments.headD .undefined)

def pack : Native := ⟨"pack", none, fun identity arguments => .ok (.array identity arguments, 1)⟩

def fail : Native :=
  plain "fail" none fun _ => .error (.fault (.reported .invalidOperandType "native failure"))

end Native

end DynamicScope
