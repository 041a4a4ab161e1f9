import Literate.Text.Basic

namespace Literate

abbrev Split := Nat × Text

def splitsFrom (p : Char → Bool) (taken : Nat) (fewer : List Split) : Text → List Split
  | [] => (taken, []) :: fewer
  | c :: rest =>
    if p c then splitsFrom p (taken + 1) ((taken, c :: rest) :: fewer) rest else (taken, c :: rest) :: fewer

def splitsOf (p : Char → Bool) (text : Text) : List Split := splitsFrom p 0 [] text

def runsOf (c : Char) (text : Text) : List Split := (splitsOf (· = c) text).dropLast

end Literate
