/-!
Texts and their lines. Every line ends at a newline character; what follows the last one is no line.
-/

namespace DynamicScope

def unlines (lines : List String) : String := String.join (lines.map (· ++ "\n"))

def linesFrom (current : List Char) : List Char → List String
  | [] => []
  | '\n' :: rest => String.ofList current.reverse :: linesFrom [] rest
  | c :: rest => linesFrom (c :: current) rest

def lines (text : String) : List String := linesFrom [] text.toList

end DynamicScope
