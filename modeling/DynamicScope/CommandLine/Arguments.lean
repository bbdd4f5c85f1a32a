import DynamicScope.Text.DecimalDigit
import DynamicScope.Text.Quoted

/-!
The arguments of the command line: the flags for help, verbosity and dumping, and one program. Flags
and the program can stand in any order, one-letter flags can be joined, a long flag can be cut short,
and everything after `--` is no flag. The first mistake from the left decides the message, but for an
ambiguous flag, which is found before all others.
-/

namespace DynamicScope.CommandLine

inductive Flag
  | help
  | verbose
  | dump
  deriving DecidableEq

def spellings : List (List Char × Flag) :=
  [("-h".toList, .help), ("--help".toList, .help), ("-v".toList, .verbose),
    ("--dump".toList, .dump)]

def Flag.name : Flag → String
  | .help => "-h/--help"
  | .verbose => "-v"
  | .dump => "--dump"

inductive FlagUse
  /-- A flag that stands alone. -/
  | alone (flag : Flag)
  /-- A flag with a value, which no flag takes. -/
  | withValue (flag : Flag) (value : List Char)
  /-- A one-letter flag with more one-letter flags behind it. -/
  | joined (flag : Flag) (more : List Char)
  | unknown (text : List Char)
  | ambiguous (text : List Char) (candidates : List (List Char))

def splitValue (text : List Char) : Option (List Char × List Char) :=
  if text.contains '=' then
    some (text.takeWhile (· ≠ '='), (text.dropWhile (· ≠ '=')).drop 1)
  else none

def isDigit (c : Char) : Bool := (decimalDigit? c).isSome

def dropNewline (text : List Char) : List Char :=
  if text.getLast? = some '\n' then text.dropLast else text

/-- A number after a minus sign: digits, or digits with a point and at least one behind it. -/
def isNegativeNumber (text : List Char) : Bool :=
  match dropNewline text with
  | '-' :: digits =>
    let whole := digits.takeWhile isDigit
    match digits.dropWhile isDigit with
    | [] => !whole.isEmpty
    | '.' :: fraction => !fraction.isEmpty && fraction.all isDigit
    | _ => false
  | _ => false

/-- The flag that a long text may be cut from. -/
def longFlag (text : List Char) : Option FlagUse :=
  let (start, value) := match splitValue text with
    | some (start, value) => (start, some value)
    | none => (text, none)
  match spellings.filter fun (spelling, _) => start.isPrefixOf spelling with
  | [] => none
  | [(_, flag)] => some (match value with
    | some value => .withValue flag value
    | none => .alone flag)
  | several => some (.ambiguous text (several.map Prod.fst))

def shortFlag (text : List Char) : Option FlagUse :=
  match spellings.lookup (text.take 2) with
  | some flag => some (.joined flag (text.drop 2))
  | none => none

/-- A whole spelling with an equals sign and a text behind it. Behind one letter that text is more
letters, unless it is empty. -/
def exactFlag (text : List Char) : Option FlagUse := do
  let (start, value) ← splitValue text
  let flag ← spellings.lookup start
  return if start.length = 2 ∧ value ≠ [] then .joined flag value else .withValue flag value

def flagUse? (text : List Char) : Option FlagUse :=
  match text with
  | '-' :: second :: _ =>
    match spellings.lookup text with
    | some flag => some (.alone flag)
    | none =>
      let read := (exactFlag text).orElse fun _ => if second = '-' then longFlag text else shortFlag text
      match read with
      | some use => some use
      | none => if isNegativeNumber text ∨ text.contains ' ' then none else some (.unknown text)
  | _ => none

inductive Argument
  | flag (use : FlagUse)
  | plain (text : String)
  /-- The `--` that ends the flags. -/
  | divider

def classify : List String → List Argument
  | [] => []
  | text :: rest =>
    if text = "--" then .divider :: rest.map .plain
    else match flagUse? text.toList with
      | some use => .flag use :: classify rest
      | none => .plain text :: classify rest

inductive Request
  | help
  | usageError (message : String)
  | program (path : String) (verbosity : Nat) (dump : Bool)
  deriving DecidableEq

structure Parsed where
  program : Option String
  verbosity : Nat
  dump : Bool
  extras : List String

def ignoredValue (flag : Flag) (value : List Char) : Request :=
  .usageError s!"argument {flag.name}: ignored explicit argument {Text.quotedString (String.ofList value)}"

def Parsed.takeFlags (p : Parsed) : List Flag → Except Request Parsed
  | [] => .ok p
  | .help :: _ => .error .help
  | .verbose :: rest => takeFlags { p with verbosity := p.verbosity + 1 } rest
  | .dump :: rest => takeFlags { p with dump := true } rest

/-- The flags of joined letters; what follows the last of them would be its value. -/
def joinedFlags (flag : Flag) : List Char → Except Request (List Flag)
  | [] => .ok [flag]
  | letter :: rest =>
    match spellings.lookup ['-', letter] with
    | some next => do return flag :: (← joinedFlags next rest)
    | none => .error (ignoredValue flag (letter :: rest))

def Parsed.takeUse (p : Parsed) : FlagUse → Except Request Parsed
  | .alone flag => p.takeFlags [flag]
  | .withValue flag value => .error (ignoredValue flag value)
  | .joined flag more => do p.takeFlags (← joinedFlags flag more)
  | .unknown text => .ok { p with extras := p.extras ++ [String.ofList text] }
  | .ambiguous .. => .ok p

def Parsed.takeAll (p : Parsed) : List Argument → Except Request Parsed
  | [] => .ok p
  | .flag use :: rest => do (← p.takeUse use).takeAll rest
  | .plain text :: rest =>
    match p.program with
    | some _ => takeAll { p with extras := p.extras ++ [text] } rest
    | none =>
      match rest with
      | .divider :: rest => takeAll { p with program := some text } rest
      | rest => takeAll { p with program := some text } rest
  | .divider :: rest =>
    match p.program, rest with
    | none, .plain text :: rest => takeAll { p with program := some text } rest
    | _, rest => takeAll { p with extras := p.extras ++ ["--"] } rest

def ambiguity? (arguments : List Argument) : Option String :=
  arguments.findSome? fun
    | .flag (.ambiguous text candidates) =>
      let listed := ", ".intercalate (candidates.map String.ofList)
      some s!"ambiguous option: {String.ofList text} could match {listed}"
    | _ => none

def Parsed.request (p : Parsed) : Request :=
  match p.program with
  | none => .usageError "the following arguments are required: program"
  | some path =>
    if p.extras.isEmpty then .program path p.verbosity p.dump
    else .usageError ("unrecognized arguments: " ++ " ".intercalate p.extras)

def Request.ofArguments (arguments : List String) : Request :=
  let read := classify arguments
  match ambiguity? read with
  | some message => .usageError message
  | none =>
    match Parsed.takeAll ⟨none, 0, false, []⟩ read with
    | .ok p => p.request
    | .error request => request

end DynamicScope.CommandLine
