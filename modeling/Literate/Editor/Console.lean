import Literate.Doctest.Line
import Literate.Evaluation

namespace Literate.Console

def echoLines : List Text → List Text
  | [] => []
  | first :: rest =>
    (Prompt.primary.text ++ ' ' :: first) :: rest.map fun line => Prompt.continuation.text ++ ' ' :: line

def echo (command : Text) : List Text := echoLines ((Text.lines command).map Line.body)

def entry (command output : Text) : Text :=
  let result := trimNewlines output
  Text.joinLines (echo command ++ if result = [] then [] else [result])

def append (transcript paragraph : Text) : Text :=
  if transcript = [] then paragraph else transcript ++ '\n' :: paragraph

def send (transcript command output : Text) : Text := append transcript (entry command output)

end Literate.Console
