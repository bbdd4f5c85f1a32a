import DynamicScope.Ast.Basic

/-!
What can end a run early. A fault is an error of the language and has a kind and a detail. The other
failures come from malformed trees, from integers beyond the double range, and from a run that is
longer than it is allowed to be.
-/

namespace DynamicScope

inductive Kind
  | number
  | boolean
  | array
  | function
  | undefined
  | text
  | nothing
  deriving DecidableEq

def Kind.name : Kind → String
  | .number => "number"
  | .boolean => "boolean"
  | .array => "array"
  | .function => "function"
  | .undefined => "undefined"
  | .text => "str"
  | .nothing => "NoneType"

inductive FaultKind
  | undeclaredIdentifier
  | invalidOperandType
  | invalidOperator
  | divisionByZero
  | invalidSubscript
  | notAFunction
  | arityMismatch
  deriving DecidableEq

namespace FaultKind

def name : FaultKind → String
  | .undeclaredIdentifier => "UndeclaredIdentifier"
  | .invalidOperandType => "InvalidOperandType"
  | .invalidOperator => "InvalidOperator"
  | .divisionByZero => "DivisionByZero"
  | .invalidSubscript => "InvalidSubscript"
  | .notAFunction => "NotAFunction"
  | .arityMismatch => "ArityMismatch"

def all : List FaultKind :=
  [.undeclaredIdentifier, .invalidOperandType, .invalidOperator, .divisionByZero,
    .invalidSubscript, .notAFunction, .arityMismatch]

def ofName? (name : String) : Option FaultKind := all.find? (·.name = name)

end FaultKind

inductive Fault
  | undeclared (name : Json)
  | assignmentToUndeclared (name : Json)
  | negatedKind (kind : Kind)
  | operandKinds (operator : String) (left right : Kind)
  | argumentKind (function : String) (kind : Kind)
  | unaryOperator (operator : Json)
  | binaryOperator (operator : Json)
  | divisionByZero (operator : String)
  | subscript (target index : Kind)
  | notAFunction (name : Json) (kind : Kind)
  | arity (name : Json) (expected given : Nat)
  /-- An error that a native function reports. -/
  | reported (kind : FaultKind) (detail : String)

structure Report where
  name : String
  detail : String

namespace Report

def text (r : Report) : String := s!"BellaError: {r.name}: {r.detail}"

def record (r : Report) : String :=
  s!"Error(name={Text.quotedString r.name}, message={Text.quotedString r.detail})"

end Report

namespace Fault

def kind : Fault → FaultKind
  | .undeclared _ => .undeclaredIdentifier
  | .assignmentToUndeclared _ => .undeclaredIdentifier
  | .negatedKind _ => .invalidOperandType
  | .operandKinds .. => .invalidOperandType
  | .argumentKind .. => .invalidOperandType
  | .unaryOperator _ => .invalidOperator
  | .binaryOperator _ => .invalidOperator
  | .divisionByZero _ => .divisionByZero
  | .subscript .. => .invalidSubscript
  | .notAFunction .. => .notAFunction
  | .arity .. => .arityMismatch
  | .reported kind _ => kind

def detail : Fault → String
  | .undeclared name => s!"Identifier '{name.plain}' was undeclared"
  | .assignmentToUndeclared name => s!"cannot assign to undeclared identifier '{name.plain}'"
  | .negatedKind kind => s!"Invalid operand type for '-' operator: {kind.name}"
  | .operandKinds operator left right =>
    s!"Invalid operand types for '{operator}' operator: {left.name} and {right.name}"
  | .argumentKind function kind => s!"{function} expects numeric arguments, got {kind.name}"
  | .unaryOperator operator => s!"Invalid unary operator '{operator.plain}'"
  | .binaryOperator operator => s!"Invalid binary operator '{operator.plain}'"
  | .divisionByZero operator => s!"Division by zero in '{operator}'"
  | .subscript target index =>
    s!"Invalid subscript expression: cannot index {target.name} with {index.name}"
  | .notAFunction name kind => s!"'{name.plain}' is not a function, got {kind.name}"
  | .arity name expected given => s!"{name.plain} expects {expected} arguments, got {given}"
  | .reported _ detail => detail

def report (f : Fault) : Report := ⟨f.kind.name, f.detail⟩

def quoted? : Fault → Option Json
  | .undeclared name | .assignmentToUndeclared name | .notAFunction name _ | .arity name _ _ =>
    some name
  | .unaryOperator operator | .binaryOperator operator => some operator
  | _ => none

end Fault

inductive Failure
  | fault (f : Fault)
  | number (e : NumberError)
  | notAStatement (tree : String)
  | notAnExpression (tree : String)
  /-- A part that a value of this class does not have. -/
  | missingPart (className part : String)
  /-- A scalar or node where statements, elements, arguments or parameters are due. -/
  | notAList (className : String)
  /-- Parameters that cannot be counted. -/
  | notCountable (className : String)
  /-- A name or operator that is an array or an object. -/
  | notAName (className : String)
  /-- A parameter name that is not a string, where the names are shown. -/
  | parameterName (position : Nat) (className : String)
  | numeralText (text : Text)
  | numeralClass (className : String)
  | notAnIndex (className : String)
  /-- An integer of more digits than are shown. -/
  | oversizedInteger
  /-- A surrogate that stands alone in a line of the trace. -/
  | unwritable (run : Text.SurrogateRun)
  /-- A value that has no document. -/
  | noDocument (className : String)
  /-- The run is longer or deeper than allowed. -/
  | exhausted

namespace Failure

def surrogates (run : Text.SurrogateRun) : String :=
  if run.stop = run.start + 1 then
    s!"character '{String.ofList (Quoted.escapeCode run.code)}' in position {run.start}"
  else s!"characters in position {run.start}-{run.stop - 1}"

def message : Failure → String
  | .fault f => f.report.text
  | .number .integerTooLarge => "int too large to convert to float"
  | .number .quotientTooLarge => "integer division result too large for a float"
  | .number .remainderUndefined => "math domain error"
  | .notAStatement tree => s!"execute: unexpected node type <class '{tree}'>"
  | .notAnExpression tree => s!"evaluate: unexpected node type <class '{tree}'>"
  | .missingPart className part => s!"'{className}' object has no attribute '{part}'"
  | .notAList className => s!"'{className}' object is not iterable"
  | .notCountable className => s!"object of type '{className}' has no len()"
  | .notAName className => s!"unhashable type: '{className}'"
  | .parameterName position className =>
    s!"sequence item {position}: expected str instance, {className} found"
  | .numeralText text => s!"could not convert string to float: {text.quotedString}"
  | .numeralClass className =>
    s!"float() argument must be a string or a real number, not '{className}'"
  | .notAnIndex className => s!"'{className}' is no index"
  | .oversizedInteger => s!"integer of more than {integerDigitLimit} digits"
  | .unwritable run => s!"'utf-8' codec can't encode {surrogates run}: surrogates not allowed"
  | .noDocument className => s!"Unsupported node for serialization: {className}"
  | .exhausted => "maximum recursion depth exceeded"

end Failure

/-- What raising an error of the language comes to: its message has to be formed, and an integer of
too many digits cannot be quoted. -/
def Fault.raised (f : Fault) : Failure :=
  match f.quoted? with
  | some document => if document.isShort then .fault f else .oversizedInteger
  | none => .fault f

theorem Fault.raised_of_short {f : Fault} {quoted : Json} (quotes : f.quoted? = some quoted)
    (short : quoted.isShort) : f.raised = .fault f := by
  rw [raised, quotes]
  exact if_pos short

theorem Fault.raised_of_not_short {f : Fault} {quoted : Json} (quotes : f.quoted? = some quoted)
    (long : ¬ quoted.isShort) : f.raised = .oversizedInteger := by
  rw [raised, quotes]
  exact if_neg long

theorem Fault.raised_eq_or (f : Fault) : f.raised = .fault f ∨ f.raised = .oversizedInteger := by
  unfold raised
  split
  · split
    · exact .inl rfl
    · exact .inr rfl
  · exact .inl rfl

def Json.plainText : Json → Except Failure Text
  | .scalar (.string t) => .ok t
  | document => if document.isShort then .ok (.proper document.plain) else .error .oversizedInteger

def Ast.qualifiedClass (a : Ast) : String :=
  if a.isNode then "bella.ast." ++ a.className else a.className

end DynamicScope
