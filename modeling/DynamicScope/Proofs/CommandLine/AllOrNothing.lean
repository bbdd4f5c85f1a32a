import DynamicScope.Proofs.CommandLine.Dump
import DynamicScope.Proofs.Tracing.Fidelity

/-! The command writes all values or none.
The values of a run are written after the run, and writing one fails if it has no text. A function has
none if its parameters are malformed. Where the trace shows definitions such a function is never
made, for then its definition fails already. Where it does not, and the run prints such a function, the
values before it are written and the failure is not caught. -/

namespace DynamicScope

namespace CommandLine

/-- Code in which every function that is declared has a text that can be written, and values of the
language. A text with a surrogate that stands alone cannot be written. -/
def legible : Content where
  name _ := True
  operator _ := True
  parameters t := ∃ text, Value.functionText t = .ok text ∧ text.IsProper
  value := writable.value

def Displayed (values : List Value) (texts : List String) : Prop :=
  List.Forall₂ (fun v text => v.display = .ok text) values texts

theorem displayed_or_textless (values : List Value) :
    (∃ texts, Displayed values texts) ∨
      ∃ before texts v e after, values = before ++ v :: after ∧ Displayed before texts ∧
        v.display = .error e := by
  induction values with
  | nil => exact .inl ⟨[], .nil⟩
  | cons v values ih =>
    cases shown : v.display with
    | error e => exact .inr ⟨[], [], v, e, values, rfl, .nil, shown⟩
    | ok text =>
      rcases ih with ⟨texts, rest⟩ | ⟨before, texts, u, e, after, rfl, rest, textless⟩
      · exact .inl ⟨text :: texts, .cons shown rest⟩
      · exact .inr ⟨v :: before, text :: texts, u, e, after, rfl, .cons shown rest, textless⟩

theorem displayLines_append {values : List Value} {texts : List String} (h : Displayed values texts)
    (rest : List Value) :
    displayLines (values ++ rest) = (unlines texts ++ (displayLines rest).1, (displayLines rest).2) := by
  induction h with
  | nil => simp [unlines, String.join_nil]
  | @cons v text values texts shown _ ih =>
    rw [List.cons_append, displayLines, shown, ih]
    simp [unlines, String.join_cons, String.append_assoc]

theorem displayLines_eq {values : List Value} {texts : List String} (h : Displayed values texts) :
    displayLines values = (unlines texts, .ok 0) := by
  have lines := displayLines_append h []
  rwa [List.append_nil, displayLines, String.append_empty] at lines

theorem displayLines_of_error {values : List Value} {texts : List String}
    (h : Displayed values texts) {v : Value} {e : Failure} (textless : v.display = .error e)
    (rest : List Value) : displayLines (values ++ v :: rest) = (unlines texts, .error (.display e)) := by
  rw [displayLines_append h, displayLines, textless, String.append_empty]

theorem display_of_traced (setup : Setup) (traced : 2 ≤ setup.level) {budget : Budget}
    {program : Ast} {values : List Value}
    (returned : (setup.run budget program).result = .ok values) :
    ∀ v ∈ values, ∃ text, v.display = .ok text := by
  obtain ⟨printed, told⟩ := setup.run_tells budget program
  have texts := told traced
  rw [← printed values returned] at texts
  intro v listed
  have shown : v.display.map Text.proper ∈ values.map fun value => value.display.map Text.proper :=
    List.mem_map_of_mem listed
  rw [← texts] at shown
  obtain ⟨text, -, same⟩ := List.mem_map.mp shown
  cases displayed : v.display with
  | ok text => exact ⟨text, rfl⟩
  | error e =>
    rw [displayed] at same
    cases same

theorem display_of_legible {level : Nat} {budget : Budget} {program : Ast} {values : List Value}
    (h : legible.Tree program)
    (returned : (Setup.run ⟨level, []⟩ budget program).result = .ok values) :
    ∀ v ∈ values, ∃ text, v.display = .ok text := by
  have values : legible.value = writable.value := rfl
  intro v listed
  obtain ⟨_, shown, text, rfl⟩ := Writable.toText_proper values (fun _ listed _ => listed) v
    (Writable.value_of_run values level budget h returned v listed)
  exact ⟨text, Value.display_of_toText shown⟩

theorem respond_eq_runTree (budget : Budget) {files : String → Source} {arguments : List String}
    {path : String} {verbosity : Nat} {content : ByteArray} {program : Ast}
    (asked : Request.ofArguments arguments = .program path verbosity false)
    (there : files path = .file content) (decoded : decodeFile content = .ok program) :
    respond budget files arguments = runTree budget verbosity program := by
  simp only [respond, asked, there, respondTo, decoded, Bool.false_eq_true, if_false]

theorem respond_written (budget : Budget) {files : String → Source} {arguments : List String}
    {path : String} {verbosity : Nat} {content : ByteArray} {program : Ast}
    (asked : Request.ofArguments arguments = .program path verbosity false)
    (there : files path = .file content) (decoded : decodeFile content = .ok program) :
    let result := ((Session.start ⟨verbosity, []⟩ .file).run budget program).1
    let response := respond budget files arguments
    (∃ values texts, result = .ok values ∧ Displayed values texts ∧
      response.stdout = unlines texts ∧ response.stderr = "" ∧ response.ending = .ok 0) ∨
    (∃ e, result = .error e ∧ response.stdout = "" ∧
      response.stderr = s!"Runtime error: {e.message}\n" ∧ response.ending = .ok 1) ∨
    ∃ before texts v e after, result = .ok (before ++ v :: after) ∧ Displayed before texts ∧
      v.display = .error e ∧ response.stdout = unlines texts ∧ response.stderr = "" ∧
      response.ending = .error (.display e) := by
  intro result response
  rw [show response = _ from respond_eq_runTree budget asked there decoded]
  rcases ended : (Session.start ⟨verbosity, []⟩ .file).run budget program with ⟨outcome, session⟩
  have returned : result = outcome := congrArg Prod.fst ended
  cases outcome with
  | error e =>
    refine .inr (.inl ⟨e, returned, ?_⟩)
    simp only [runTree, ended, and_self]
  | ok values =>
    rcases displayed_or_textless values with
      ⟨texts, shown⟩ | ⟨before, texts, v, e, after, rfl, shown, textless⟩
    · refine .inl ⟨values, texts, returned, shown, ?_⟩
      simp only [runTree, ended, displayLines_eq shown, and_self]
    · refine .inr (.inr ⟨before, texts, v, e, after, returned, shown, textless, ?_⟩)
      simp only [runTree, ended, displayLines_of_error shown textless, and_self]

/-- If the trace shows definitions, or every function in the program has a text, a command that runs
a program either writes the texts of all values that the run prints, a line each, and nothing else,
and ends well, or it writes nothing but the message of the failure, and ends with status 1. -/
theorem respond_allOrNothing (budget : Budget) (files : String → Source)
    {arguments : List String} {path : String} {verbosity : Nat} {content : ByteArray} {program : Ast}
    (asked : Request.ofArguments arguments = .program path verbosity false)
    (there : files path = .file content) (decoded : decodeFile content = .ok program)
    (displayable : 2 ≤ verbosity ∨ legible.Tree program) :
    let result := ((Session.start ⟨verbosity, []⟩ .file).run budget program).1
    let response := respond budget files arguments
    (∃ values texts, result = .ok values ∧ Displayed values texts ∧
      response.stdout = unlines texts ∧ response.stderr = "" ∧ response.ending = .ok 0) ∨
    ∃ e, result = .error e ∧ response.stdout = "" ∧
      response.stderr = s!"Runtime error: {e.message}\n" ∧ response.ending = .ok 1 := by
  rcases respond_written budget asked there decoded with
    all | nothing | ⟨before, texts, v, e, after, returned, _, textless, _⟩
  · exact .inl all
  · exact .inr nothing
  · have returned := (Session.run_start _ _ _ _).symm.trans returned
    have display : ∀ u ∈ before ++ v :: after, ∃ text, u.display = .ok text := by
      rcases displayable with traced | plain
      · exact display_of_traced ⟨verbosity, []⟩ traced returned
      · exact display_of_legible plain returned
    obtain ⟨text, shown⟩ := display v (List.mem_append_right _ List.mem_cons_self)
    rw [textless] at shown
    cases shown

end CommandLine

/-- A program that declares a function whose parameter is no identifier, and prints `true` and then
the function. -/
def Ast.namelessParameter : Ast :=
  .program (.block (.list [
    .functionDeclaration (.named "f") (.list [.scalar .null]) (.booleanLiteral true),
    .printStatement (.booleanLiteral true), .printStatement (.named "f")]))

namespace CommandLine

def namelessParameterFile : ByteArray := (Form.oneLine.write .namelessParameter).toUTF8

theorem decodeFile_namelessParameter :
    decodeFile namelessParameterFile = .ok .namelessParameter := by
  have readable : Ast.namelessParameter.encode.Every Scalar.Readable List.Nodup := by
    simp [Ast.namelessParameter, Ast.named, Ast.encode, Ast.encodeItems, Json.string, Json.bool,
      Json.Every, Json.EveryItem, Json.EveryField, Scalar.Readable, Scalar.Short, Scalar.isShort,
      Scalar.Proper]
  exact decodeFile_toUTF8 (parse_write readable .oneLine) (Ast.decode_encode _)

/-- Without the trace of statements the first value is written, and then the command fails without
a message. -/
theorem respond_namelessParameter :
    Request.ofArguments ["p.json"] = .program "p.json" 0 false ∧
    decodeFile namelessParameterFile = .ok .namelessParameter ∧
    respond ⟨0, 0⟩ (fun _ => .file namelessParameterFile) ["p.json"] =
      ⟨.error (.display (.missingPart "NoneType" "name")), "true\n", "", none⟩ := by
  have asked : Request.ofArguments ["p.json"] = .program "p.json" 0 false := rfl
  refine ⟨asked, decodeFile_namelessParameter, ?_⟩
  exact (respond_eq_runTree _ asked rfl decodeFile_namelessParameter).trans rfl

theorem respond_allOrNothing_namelessParameter :
    Request.ofArguments ["-vv", "p.json"] = .program "p.json" 2 false ∧
    (respond ⟨0, 0⟩ (fun _ => .file namelessParameterFile) ["-vv", "p.json"]).stdout = "" ∧
    (respond ⟨0, 0⟩ (fun _ => .file namelessParameterFile) ["-vv", "p.json"]).stderr =
      "Runtime error: 'NoneType' object has no attribute 'name'\n" := by
  have asked : Request.ofArguments ["-vv", "p.json"] = .program "p.json" 2 false := rfl
  have failed : ((Session.start ⟨2, []⟩ .file).run ⟨0, 0⟩ .namelessParameter).1 =
      .error (.missingPart "NoneType" "name") := rfl
  refine ⟨asked, ?_⟩
  rcases respond_allOrNothing ⟨0, 0⟩ (fun _ => .file namelessParameterFile) asked rfl
      decodeFile_namelessParameter (.inl (Nat.le_refl 2)) with ⟨_, _, ended, -⟩ | ⟨e, ended, out, err, -⟩
  · rw [failed] at ended
    cases ended
  · rw [failed] at ended
    cases ended
    exact ⟨out, err⟩

end CommandLine

end DynamicScope
