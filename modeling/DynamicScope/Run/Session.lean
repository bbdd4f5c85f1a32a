import DynamicScope.Run.Program
import DynamicScope.Text.Lines

/-!
Sessions: one set of native functions and one trace level for any number of runs and of single steps
outside them, all on one state. A run opens the trace file, which the first run empties and the later
ones lengthen, and closes it when it ends. A line goes to the file while that is open, else to the
console.
-/

namespace DynamicScope

inductive TraceTarget
  | file
  | console
  deriving DecidableEq

structure Session where
  setup : Setup
  target : TraceTarget
  /-- How many runs there have been. -/
  runs : Nat
  /-- Whether the trace file is open, which it is during a run only. -/
  isOpen : Bool
  /-- The content of the trace file, if it exists. -/
  file : Option String
  /-- What was written to the console. -/
  console : String
  /-- The state that runs and single steps work on. -/
  world : World

namespace Session

def start (setup : Setup) (target : TraceTarget) : Session :=
  ⟨setup, target, 0, false, none, "", setup.startWorld⟩

def note (s : Session) (line : String) : Session :=
  if s.setup.level = 0 then s
  else if s.isOpen then { s with file := some (s.file.getD "" ++ unlines [line]) }
  else { s with console := s.console ++ unlines [line] }

/-- Opens the trace file, if that is where traces go. The first run empties it. -/
def openTrace (s : Session) : Session :=
  if s.setup.level = 0 ∨ s.target = .console then s
  else { s with isOpen := true, file := some (if s.runs = 0 then "" else s.file.getD "") }

def closeTrace (s : Session) : Session := { s with isOpen := false }

def settle (s : Session) (w : World) : Session :=
  w.trace.toList.foldl (fun s e => s.note e.text.toString) { s with world := w }

/-- Takes a step, which may fail: what it traced and changed until then stays. -/
def perform {α : Type} (s : Session) (step : Machine α) : Except Failure α × Session :=
  match step.run { s.world with trace := #[] } with
  | .ok a w => (.ok a, s.settle w)
  | .error e w => (.error e, s.settle w)

/-- Runs a program with the trace file open, and closes the file whether or not the run fails. -/
def run (s : Session) (budget : Budget) (program : Ast) :
    Except Failure (List Value) × Session :=
  let opened := { s.openTrace with runs := s.runs + 1 }
  match opened.perform (s.setup.runProgram budget program) with
  | (.ok values, ended) => (.ok values, ended.closeTrace)
  | (.error e, ended) => (.error e, ended.closeTrace)

end Session

end DynamicScope
