import Literate.Evaluation
import Literate.Unicode.Blank

namespace Literate

inductive Ending
  | complete
  | incomplete
  | exited (arguments : List Value)

structure Execution where
  output : Text
  errors : Text
  ending : Ending

structure Source where
  text : Text
  filename : Text
  mode : String := "single"
deriving DecidableEq, Repr

structure Interpreter where
  filename : Text := "<snippet>".toList
  names : List Text := []
deriving DecidableEq, Repr

namespace Interpreter

open Unicode

def closeLines (source : Text) : Text :=
  let body := trimNewlines source
  if '\n' ∈ body then body ++ ['\n', '\n'] else source

def source? (i : Interpreter) (command : Text) : Option Source :=
  let text := command.filter (· ≠ '\r')
  if text.all isSpace then none else some { text := closeLines text, filename := i.filename }

def exitText : List Value → Text
  | [] => []
  | [value] => value.plain
  | values => ("(" ++ ", ".intercalate (Value.shownAll values) ++ ")").toList

def exitLine (arguments : List Value) : Text :=
  let text := exitText arguments
  "SystemExit".toList ++ (if text = [] then [] else ':' :: ' ' :: text) ++ ['\n']

def shown (e : Execution) : Text :=
  match e.ending with
  | .complete => e.output ++ e.errors
  | .incomplete => []
  | .exited arguments => e.output ++ e.errors ++ exitLine arguments

def execute (i : Interpreter) (run : Source → Execution) (command : Text) : Option Source × Text :=
  match i.source? command with
  | none => (none, [])
  | some source => (some source, shown (run source))

def reset (i : Interpreter) : Interpreter := { i with names := [] }

end Interpreter

end Literate
