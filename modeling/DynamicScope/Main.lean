import DynamicScope.CommandLine.Respond

/-!
The program: reads the file that its arguments name, writes the response, and leaves the trace of a
run in `debug.txt`.
-/

open DynamicScope DynamicScope.CommandLine

def readSource (path : String) : IO Source := do
  try
    return .file (← IO.FS.readBinFile path)
  catch
    | .noFileOrDirectory .. => return .missing
    | _ => return .directory

def main (arguments : List String) : IO UInt32 := do
  let source ← match Request.ofArguments arguments with
    | .program path _ _ => readSource path
    | _ => pure .missing
  let response := respond Budget.standard (fun _ => source) arguments
  if let some trace := response.trace then
    IO.FS.writeFile "debug.txt" trace
  (← IO.getStdout).putStr response.stdout
  (← IO.getStderr).putStr response.stderr
  match response.ending with
  | .ok code => return code.toUInt32
  | .error escape =>
    (← IO.getStderr).putStr (escape.message ++ "\n")
    return 1
