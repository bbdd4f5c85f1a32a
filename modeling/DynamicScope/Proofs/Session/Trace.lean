import DynamicScope.Proofs.Run.Outcome
import DynamicScope.Run.Session

/-! What a session writes.
A line goes to the trace file while it is open and to the console otherwise. So the trace of a step is
written to the one or the other as a whole, line by line, and a run, which opens the file and closes it
again, leaves it closed and adds to it what the trace of the run is. -/

namespace DynamicScope

open Machine

theorem unlines_cons (line : String) (lines : List String) :
    unlines (line :: lines) = unlines [line] ++ unlines lines := by
  simp [unlines, String.join_cons]

namespace Session

def traceText (events : List Event) : String := unlines (events.map fun e => e.text.toString)

theorem traceText_cons (e : Event) (events : List Event) :
    traceText (e :: events) = unlines [e.text.toString] ++ traceText events :=
  unlines_cons _ _

variable {s : Session}

theorem notes_of_closed (traced : 0 < s.setup.level) (closed : s.isOpen = false)
    (events : List Event) : events.foldl (fun s e => s.note e.text.toString) s =
      { s with console := s.console ++ traceText events } := by
  induction events generalizing s with
  | nil => simp [traceText, unlines, String.join_nil]
  | cons e events ih =>
    have line : s.note e.text.toString =
        { s with console := s.console ++ unlines [e.text.toString] } := by
      rw [note, if_neg (Nat.ne_of_gt traced), if_neg (by rw [closed]; exact Bool.false_ne_true)]
    rw [List.foldl_cons, line, ih, traceText_cons, String.append_assoc]
    · exact traced
    · exact closed

theorem notes_of_open (traced : 0 < s.setup.level) (opened : s.isOpen = true) {text : String}
    (there : s.file = some text) (events : List Event) :
    events.foldl (fun s e => s.note e.text.toString) s =
      { s with file := some (text ++ traceText events) } := by
  induction events generalizing s text with
  | nil => simp [traceText, unlines, String.join_nil, ← there]
  | cons e events ih =>
    have line : s.note e.text.toString =
        { s with file := some (text ++ unlines [e.text.toString]) } := by
      rw [note, if_neg (Nat.ne_of_gt traced), if_pos opened, there]
      rfl
    rw [List.foldl_cons, line, ih, traceText_cons, String.append_assoc]
    · exact traced
    · exact opened
    · rfl

theorem settle_of_closed (traced : 0 < s.setup.level) (closed : s.isOpen = false) (w : World) :
    s.settle w = { s with console := s.console ++ traceText w.trace.toList, world := w } :=
  notes_of_closed (s := { s with world := w }) traced closed _

theorem settle_of_open (traced : 0 < s.setup.level) (opened : s.isOpen = true) {text : String}
    (there : s.file = some text) (w : World) :
    s.settle w = { s with file := some (text ++ traceText w.trace.toList), world := w } :=
  notes_of_open (s := { s with world := w }) traced opened there _

theorem perform_snd {α : Type} (s : Session) (step : Machine α) :
    (s.perform step).2 = s.settle (step.after { s.world with trace := #[] }) := by
  unfold perform after
  cases step.run { s.world with trace := #[] } <;> rfl

def opened (s : Session) : Session := { s.openTrace with runs := s.runs + 1 }

theorem run_fst (s : Session) (budget : Budget) (program : Ast) :
    (s.run budget program).1 = (s.setup.runIn budget program s.world).result := by
  have world : s.openTrace.world = s.world := by unfold openTrace; split <;> rfl
  unfold run perform Setup.runIn
  dsimp only
  rw [world]
  cases (s.setup.runProgram budget program).run { s.world with trace := #[] } <;> rfl

theorem run_snd (s : Session) (budget : Budget) (program : Ast) :
    (s.run budget program).2 =
      (s.opened.settle
        ((s.setup.runProgram budget program).after { s.world with trace := #[] })).closeTrace := by
  have world : s.openTrace.world = s.world := by unfold openTrace; split <;> rfl
  unfold run perform after opened
  dsimp only
  rw [world]
  cases (s.setup.runProgram budget program).run { s.world with trace := #[] } <;> rfl

theorem trace_after_runProgram (setup : Setup) (budget : Budget) (program : Ast) (w : World) :
    ((setup.runProgram budget program).after { w with trace := #[] }).trace.toList =
      (setup.runIn budget program w).trace := by
  unfold after Setup.runIn
  cases (setup.runProgram budget program).run { w with trace := #[] } <;> rfl

/-- The trace of a run is added to the file, which the first run has emptied before. -/
theorem run_snd_of_file (traced : 0 < s.setup.level) (target : s.target = .file) (budget : Budget)
    (program : Ast) :
    (s.run budget program).2 = { s with
      runs := s.runs + 1
      isOpen := false
      file := some ((if s.runs = 0 then "" else s.file.getD "") ++
        traceText (s.setup.runIn budget program s.world).trace)
      world := (s.setup.runProgram budget program).after { s.world with trace := #[] } } := by
  have written : ¬ (s.setup.level = 0 ∨ s.target = .console) := by
    rw [target]
    simp [Nat.ne_of_gt traced]
  have shape : s.opened = { s with
      runs := s.runs + 1, isOpen := true
      file := some (if s.runs = 0 then "" else s.file.getD "") } := by
    rw [opened, openTrace, if_neg written]
  have traced' : 0 < s.opened.setup.level := by rwa [shape]
  have isOpen : s.opened.isOpen = true := by rw [shape]
  have there : s.opened.file = some (if s.runs = 0 then "" else s.file.getD "") := by rw [shape]
  rw [run_snd, settle_of_open traced' isOpen there, trace_after_runProgram, shape]
  rfl

theorem run_start (setup : Setup) (target : TraceTarget) (budget : Budget) (program : Ast) :
    ((start setup target).run budget program).1 = (setup.run budget program).result :=
  run_fst _ budget program

end Session

end DynamicScope
