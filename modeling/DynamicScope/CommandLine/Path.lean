/-!
Paths of program files. A path is shown without empty and `.` parts.
-/

namespace DynamicScope.CommandLine

def splitPath (text : String) : List String := (text.split (· = '/')).toStringList

def pathParts (path : String) : List String :=
  (splitPath path).filter fun part => part ≠ "" ∧ part ≠ "."

/-- The slashes at the start of a path: exactly two stay two, and more are one. -/
def pathRoot (path : String) : String :=
  match path.toList with
  | '/' :: '/' :: '/' :: _ => "/"
  | '/' :: '/' :: _ => "//"
  | '/' :: _ => "/"
  | _ => ""

def normalizePath (path : String) : String :=
  let shown := pathRoot path ++ "/".intercalate (pathParts path)
  if shown = "" then "." else shown

inductive Source
  | missing
  | directory
  | file (content : ByteArray)

/-- What there is at a path in a folder that holds files only, which is the working directory. -/
def sourceIn (folder : List (String × ByteArray)) (path : String) : Source :=
  let shown := normalizePath path
  match folder.lookup shown with
  | some content => .file content
  | none => if (pathParts path).all (· = "..") then .directory else .missing

end DynamicScope.CommandLine
