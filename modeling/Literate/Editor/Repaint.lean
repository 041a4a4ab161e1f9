import Literate.Text.Line

namespace Literate

inductive Repaint
  | all
  | line (index : Nat)
deriving DecidableEq, Repr

namespace Text

def lineIndex (text : Text) (pos : Int) : Nat := (text.focus pos).above.length

def lineCount (text : Text) : Nat := (Text.lines text).length

end Text

namespace Repaint

def between (first last : Nat) : List Repaint :=
  (List.range (last + 1 - first)).map fun i => .line (first + i)

def ofRange (text : Text) (start stop : Int) : List Repaint :=
  let first := text.clamp start
  let last := max first (text.clamp stop)
  if first = 0 ∧ text.length ≤ last then [all]
  else between (text.lineIndex first - 1) (min (text.lineIndex last + 1) (text.lineCount - 1))

end Repaint

end Literate
