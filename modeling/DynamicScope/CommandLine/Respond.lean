import DynamicScope.Ast.Codec
import DynamicScope.CommandLine.Arguments
import DynamicScope.CommandLine.Path
import DynamicScope.Json.Printer
import DynamicScope.Json.Reader
import DynamicScope.Run.Session

/-!
The command line as a function from arguments and files to what is written. A program is read, decoded
and run, and its printed values are written one a line; or it is written back as a document. A run that
fails writes nothing but its message.
-/

namespace DynamicScope.CommandLine

/-- An error that ends the command without a message of its own. -/
inductive Escape
  | directory
  | encoding
  | reading (e : ReadError)
  | decoding (e : DecodeError)
  | display (e : Failure)

def Escape.message : Escape → String
  | .directory => "the program is a directory"
  | .encoding => "the program is not UTF-8"
  | .reading .malformed => "the program is not a JSON document"
  | .reading .oversizedInteger => Failure.oversizedInteger.message
  | .decoding e => e.message
  | .display e => e.message

structure Response where
  ending : Except Escape Nat
  stdout : String
  stderr : String
  /-- The new content of the trace file, if it was written. -/
  trace : Option String

def usage : String := "usage: bella [-h] [-v] [--dump] program\n"

def helpText : String :=
  usage ++ "\nBella language interpreter\n\n" ++
    "positional arguments:\n" ++
    "  program     Bella program as an AST JSON file\n\n" ++
    "options:\n" ++
    "  -h, --help  show this help message and exit\n" ++
    "  -v          increase debug verbosity (can be repeated)\n" ++
    "  --dump      print the decoded AST as JSON instead of running it\n"

def decodeFile (content : ByteArray) : Except Escape Ast :=
  match String.fromUTF8? content with
  | none => .error .encoding
  | some text =>
    match Json.parse text with
    | .error e => .error (.reading e)
    | .ok document =>
      match Ast.decode document with
      | .error e => .error (.decoding e)
      | .ok program => .ok program

/-- The texts of values, a line each, up to the first value without a text. -/
def displayLines : List Value → String × Except Escape Nat
  | [] => ("", .ok 0)
  | value :: values =>
    match value.display with
    | .error e => ("", .error (.display e))
    | .ok text =>
      let (rest, ending) := displayLines values
      (text ++ "\n" ++ rest, ending)

def runTree (budget : Budget) (verbosity : Nat) (program : Ast) : Response :=
  let (result, session) := (Session.start ⟨verbosity, []⟩ .file).run budget program
  match result with
  | .error e => ⟨.ok 1, "", s!"Runtime error: {e.message}\n", session.file⟩
  | .ok values =>
    let (written, ending) := displayLines values
    ⟨ending, written, "", session.file⟩

def respondTo (budget : Budget) (path : String) (verbosity : Nat) (dump : Bool) :
    Source → Response
  | .missing => ⟨.ok 1, "", s!"Error: file {normalizePath path} not found\n", none⟩
  | .directory => ⟨.error .directory, "", "", none⟩
  | .file content =>
    match decodeFile content with
    | .error e => ⟨.error e, "", "", none⟩
    | .ok program =>
      if dump then ⟨.ok 0, (Ast.encode program).indented ++ "\n", "", none⟩
      else runTree budget verbosity program

/-- The response to arguments, where `files` says what there is at a path. -/
def respond (budget : Budget) (files : String → Source) (arguments : List String) : Response :=
  match Request.ofArguments arguments with
  | .help => ⟨.ok 0, helpText, "", none⟩
  | .usageError message => ⟨.ok 2, "", usage ++ s!"bella: error: {message}\n", none⟩
  | .program path verbosity dump => respondTo budget path verbosity dump (files path)

end DynamicScope.CommandLine
