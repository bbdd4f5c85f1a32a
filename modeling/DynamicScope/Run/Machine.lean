import DynamicScope.Environment.Store
import DynamicScope.Library.Math
import DynamicScope.Library.Native
import DynamicScope.Run.Event

/-!
The state of a run and the steps that touch it. A step can fail, and what it changed before the
failure stays changed.
-/

namespace DynamicScope

structure World where
  store : Store
  /-- The first identity that no array or function has. -/
  nextIdentity : Nat
  trace : Array Event

structure Setup where
  level : Nat
  natives : List (String × Native)

/-- How long a run may be: how deeply calls may nest, and how often a loop may repeat. -/
structure Budget where
  calls : Nat
  iterations : Nat

abbrev Machine := EStateM Failure World

namespace Machine

def lift {α : Type} : Except Failure α → Machine α
  | .ok a => pure a
  | .error e => throw e

def fault {α : Type} (f : Fault) : Machine α := throw f.raised

def freshIdentity : Machine Nat :=
  modifyGet fun w => (w.nextIdentity, { w with nextIdentity := w.nextIdentity + 1 })

def freshIdentities (count : Nat) : Machine Nat :=
  modifyGet fun w => (w.nextIdentity, { w with nextIdentity := w.nextIdentity + count })

def bindings (env : EnvRef) : Machine Bindings := do return (← get).store.bindings env

def withStore (change : Store → EnvRef × Store) : Machine EnvRef :=
  modifyGet fun w =>
    let (env, store) := change w.store
    (env, { w with store })

def newEnvironment (b : Bindings) : Machine EnvRef := withStore fun s => s.new b

def merged (env : EnvRef) (others : List (Name × Value)) : Machine EnvRef :=
  withStore fun s => s.merged env others

def extended (env : EnvRef) (name : Name) (value : Value) : Machine EnvRef :=
  withStore fun s => s.extended env name value

/-- The value of a name that counts as bound. -/
def lookup? (env : EnvRef) (name : Json) : Machine (Option Value) := do
  let key ← lift (Name.ofJson? name)
  return (← bindings env).present? key

def read (env : EnvRef) (name : Json) : Machine Value := do
  match ← lookup? env name with
  | some value => return value
  | none => fault (.undeclared name)

/-- Gives a name of an environment, which has to be bound to something, a new value. -/
def assign (env : EnvRef) (name : Json) (value : Value) : Machine Unit := do
  let key ← lift (Name.ofJson? name)
  if (← bindings env).binds key then
    modify fun w => { w with store := w.store.overwrite env key value }
  else fault (.assignmentToUndeclared name)

/-- Adds an event to the trace if the trace shows its level. The event is not formed otherwise, so
that a value without a text, or a text that cannot be written, does no harm then. -/
def record (setup : Setup) (level : Nat) (event : Unit → Except Failure Event) : Machine Unit :=
  if level ≤ setup.level then do
    let e ← lift (event ())
    match e.text.surrogateRun? with
    | some run => throw (.unwritable run)
    | none => modify fun w => { w with trace := w.trace.push e }
  else pure ()

end Machine

namespace Setup

/-- The native functions as values: each has the identity of its place. -/
def nativeBindings (setup : Setup) : List (Name × Value) :=
  setup.natives.zipIdx.map fun ((name, native), i) =>
    (.ofString name, .builtin i (.native native.name native.arity i))

def startWorld (setup : Setup) : World := ⟨.empty, setup.natives.length, #[]⟩

def initialEnvironment (setup : Setup) : Machine EnvRef := do
  let first ← Machine.freshIdentities MathFunction.all.length
  Machine.newEnvironment ((mathBindings first).insertAll setup.nativeBindings)

end Setup

end DynamicScope
