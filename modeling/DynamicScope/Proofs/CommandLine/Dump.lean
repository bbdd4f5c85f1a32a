import DynamicScope.CommandLine.Respond
import DynamicScope.Proofs.Ast.Scalars
import DynamicScope.Proofs.Json.ReadBack

/-! Texts that a tree is written as.
What is written is the normal form of what was read. It has the scalars that were read and those
that name classes and fields, so it can be read back, and decodes to the tree it was written for. -/

namespace DynamicScope

namespace Json

def Proper (document : Json) : Prop := document.Every Scalar.Proper fun _ => True

theorem readable_nodes : OfNodes Scalar.Readable List.Nodup where
  null := ⟨rfl, trivial⟩
  bool _ := ⟨rfl, trivial⟩
  string s := ⟨rfl, s, rfl⟩
  keys distinct := distinct

theorem readable_encode {text : String} {document : Json} {tree : Ast}
    (read : parse text = .ok document) (proper : document.Proper)
    (decoded : Ast.decode document = .ok tree) :
    tree.encode.Every Scalar.Readable List.Nodup :=
  every_encode readable_nodes decoded (Every.and document (short_read read) proper)

end Json

namespace CommandLine

/-- The forms in which a tree is written: on one line, with one part a line, and as a response gives
it, with a line end. -/
inductive Form
  | oneLine
  | lines
  | response

def Form.write : Form → Ast → String
  | .oneLine, tree => tree.encode.compact
  | .lines, tree => tree.encode.indented
  | .response, tree => tree.encode.indented ++ "\n"

/-- A text read, decoded and written in a form. -/
def transcribe (form : Form) (text : String) : Except Escape String :=
  (decodeFile text.toUTF8).map form.write

theorem parse_write {tree : Ast} (h : tree.encode.Every Scalar.Readable List.Nodup) (form : Form) :
    Json.parse (form.write tree) = .ok tree.encode := by
  have plain (setting : Json.Setting) :
      Json.parse (String.ofList (tree.encode.write setting 0)) = .ok tree.encode := by
    have read := Json.read_write h setting (fun c listed => absurd listed List.not_mem_nil)
    rwa [List.append_nil, ← String.toList_ofList (l := tree.encode.write setting 0)] at read
  cases form with
  | oneLine => exact plain .oneLine
  | lines => exact plain (.lines 2)
  | response =>
    have blank : ∀ c ∈ ['\n'], Token.isSpace c = true := List.forall_mem_singleton.mpr rfl
    have read := Json.read_write h (.lines 2) blank
    rw [Form.write, Json.indented, Json.parse, String.toList_append, String.toList_ofList]
    exact read

theorem decodeFile_toUTF8 {text : String} {document : Json} {tree : Ast}
    (read : Json.parse text = .ok document) (decoded : Ast.decode document = .ok tree) :
    decodeFile text.toUTF8 = .ok tree := by
  have bytes : String.fromUTF8? text.toUTF8 = some text := dif_pos text.isValidUTF8
  simp only [decodeFile, bytes, read, decoded]

theorem respondTo_of_decodeFile {content content' : ByteArray} {tree : Ast}
    (h : decodeFile content = .ok tree) (h' : decodeFile content' = .ok tree) (budget : Budget)
    (path : String) (verbosity : Nat) (dump : Bool) :
    respondTo budget path verbosity dump (.file content) =
      respondTo budget path verbosity dump (.file content') := by
  simp only [respondTo, h, h']

variable {text : String} {document : Json} {tree : Ast}

/-- A text that is read without lone surrogates and decoded is written as a text that is read,
decodes to the same tree, is written as itself, and has the same responses. -/
theorem transcribe_write (read : Json.parse text = .ok document) (proper : document.Proper)
    (decoded : Ast.decode document = .ok tree) (form : Form) :
    transcribe form text = .ok (form.write tree) ∧
      Json.parse (form.write tree) = .ok tree.encode ∧ Ast.decode tree.encode = .ok tree ∧
      transcribe form (form.write tree) = .ok (form.write tree) ∧
      ∀ budget path verbosity,
        respondTo budget path verbosity true (.file text.toUTF8) =
            ⟨.ok 0, Form.response.write tree, "", none⟩ ∧
          ∀ dump, respondTo budget path verbosity dump (.file (form.write tree).toUTF8) =
            respondTo budget path verbosity dump (.file text.toUTF8) := by
  have again := parse_write (Json.readable_encode read proper decoded) form
  have file := decodeFile_toUTF8 read decoded
  have written := decodeFile_toUTF8 again (Ast.decode_encode tree)
  refine ⟨?_, again, Ast.decode_encode tree, ?_, fun budget path verbosity => ⟨?_, ?_⟩⟩
  · rw [transcribe, file, Except.map]
  · rw [transcribe, written, Except.map]
  · simp only [respondTo, file, if_true, Form.write]
  · exact respondTo_of_decodeFile written file budget path verbosity

/-- A call with a field of no class, a key that is repeated, escapes, and a truth value that is a
string. -/
def annotated : String :=
  "\x7b\"args\": [NaN, -12345678901234567890], \"type\": \"Block\", \"type\": \"Call\",\n" ++
    "\"callee\": \x7b\"value\": \"\\u00e9\\n\", \"type\": \"BooleanLiteral\"\x7d, " ++
    "\"note\": \x7b\x7d\x7d"

def annotatedDocument : Json :=
  .object [
    ("args", .array [.scalar (.number (.double .nan)),
      .scalar (.number (.integer (-12345678901234567890)))]),
    ("type", .string "Call"),
    ("callee", .object [("value", .string "é\n"), ("type", .string "BooleanLiteral")]),
    ("note", .object [])]

def annotatedTree : Ast :=
  .call (.booleanLiteral true) (.list [.scalar (.number (.double .nan)),
    .scalar (.number (.integer (-12345678901234567890)))])

def annotatedWritten : String :=
  "\x7b\"type\": \"Call\", \"callee\": \x7b\"type\": \"BooleanLiteral\", \"value\": true\x7d, " ++
    "\"args\": [NaN, -12345678901234567890]\x7d"

set_option maxRecDepth 2000 in
theorem transcribe_write_annotated :
    Json.parse annotated = .ok annotatedDocument ∧ annotatedDocument.Proper ∧
      Ast.decode annotatedDocument = .ok annotatedTree ∧
      transcribe .oneLine annotated = .ok annotatedWritten ∧
      transcribe .oneLine annotatedWritten = .ok annotatedWritten ∧
      Json.parse annotatedWritten = .ok annotatedTree.encode := by
  have read : Json.parse annotated = .ok annotatedDocument := rfl
  have proper : annotatedDocument.Proper := by
    simp [annotatedDocument, Json.Proper, Json.Every, Json.EveryItem, Json.EveryField,
      Json.string, Scalar.Proper]
  have decoded : Ast.decode annotatedDocument = .ok annotatedTree := rfl
  have written : Form.oneLine.write annotatedTree = annotatedWritten := rfl
  obtain ⟨first, parsed, -, again, -⟩ := transcribe_write read proper decoded .oneLine
  rw [written] at first parsed again
  exact ⟨read, proper, decoded, first, again, parsed⟩

end CommandLine

end DynamicScope
