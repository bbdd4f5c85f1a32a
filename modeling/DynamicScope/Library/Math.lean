import DynamicScope.Double.Circular
import DynamicScope.Double.Exponential
import DynamicScope.Double.Root
import DynamicScope.Environment.Bindings

/-!
The mathematical library: `pi` and six functions. All but `hypot` look at their first argument only,
and without one they work on NaN. Domain errors give the special values of doubles.
-/

namespace DynamicScope

namespace MathFunction

/-- The first argument, which has to be a number; NaN without one. -/
def firstArgument (f : MathFunction) : List Value → Except Failure Number
  | [] => .ok (.double .nan)
  | .number n :: _ => .ok n
  | value :: _ => .error (.fault (.argumentKind f.name value.kind))

def numericArguments (f : MathFunction) : List Value → Except Failure (List Number)
  | [] => .ok []
  | .number n :: rest => do return n :: (← numericArguments f rest)
  | value :: _ => .error (.fault (.argumentKind f.name value.kind))

def atDouble (f : Double → Double) (n : Number) : Except NumberError Double := do
  return f (← n.toDouble)

/-- The square root, NaN for every negative number, also for an integer beyond the doubles. -/
def rootOf (n : Number) : Except NumberError Double :=
  if n.less (.integer 0) then .ok .nan else atDouble Double.sqrt n

/-- The exponential, infinite for every integer beyond the doubles. -/
def exponentialOf (n : Number) : Double :=
  match n.toDouble with
  | .ok x => x.exp
  | .error _ => .infinity false

def apply (f : MathFunction) (arguments : List Value) : Except Failure Value := do
  match f with
  | .sqrt => return .double (← Value.liftNumber (rootOf (← f.firstArgument arguments)))
  | .sin => return .double (← Value.liftNumber (atDouble Double.sin (← f.firstArgument arguments)))
  | .cos => return .double (← Value.liftNumber (atDouble Double.cos (← f.firstArgument arguments)))
  | .ln => return .double (← Value.liftNumber (atDouble Double.ln (← f.firstArgument arguments)))
  | .exp => return .double (exponentialOf (← f.firstArgument arguments))
  | .hypot =>
    let numbers ← f.numericArguments arguments
    return .double (Double.hypot (← Value.liftNumber (numbers.mapM Number.toDouble)))

def value (f : MathFunction) (identity : Nat) : Value := .builtin identity (.math f)

end MathFunction

/-- The names of the library, its functions with identities from `first` on. -/
def mathBindings (first : Nat) : Bindings :=
  (.ofString "pi", .double .pi) ::
    MathFunction.all.zipIdx.map fun (f, i) => (.ofString f.name, f.value (first + i))

end DynamicScope
