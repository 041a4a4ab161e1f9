import Literate.Text.Basic

/-!
Lines end at a newline only. `lines` numbers them with the positions where they start, `tails` tells what the text
is from each of these positions on, and `focus` is the view of a text from one position: the line that holds it,
the lines above it, nearest first, and those below.
-/

namespace Literate

structure Line where
  start : Nat
  body : Text
deriving DecidableEq, Repr

def Line.stop (line : Line) : Nat := line.start + line.body.length

namespace Text

def splitLines : Text → Text × List Text
  | [] => ([], [])
  | c :: rest =>
    let parts := splitLines rest
    if c = '\n' then ([], parts.1 :: parts.2) else (c :: parts.1, parts.2)

def number (start : Nat) : List Text → List Line
  | [] => []
  | body :: bodies => ⟨start, body⟩ :: number (start + body.length + 1) bodies

def lines (text : Text) : List Line :=
  let parts := splitLines text
  number 0 (parts.1 :: parts.2)

def firstLine (text : Text) : Text := text.takeWhile (· ≠ '\n')

def afterLine? (text : Text) : Option Text := (text.dropWhile (· ≠ '\n')).tail?

def tailsFrom (pos : Nat) : Text → List (Nat × Text)
  | [] => []
  | c :: rest =>
    if c = '\n' then (pos + 1, rest) :: tailsFrom (pos + 1) rest else tailsFrom (pos + 1) rest

def tails (text : Text) : List (Nat × Text) := (0, text) :: tailsFrom 0 text

end Text

structure Focus where
  above : List Line
  line : Line
  below : List Line
deriving DecidableEq, Repr

namespace Focus

def seek (pos : Nat) (above : List Line) (line : Line) : List Line → Focus
  | [] => ⟨above, line, []⟩
  | next :: below =>
    if pos ≤ line.stop then ⟨above, line, next :: below⟩ else seek pos (line :: above) next below

end Focus

namespace Text

def focus (text : Text) (pos : Int) : Focus :=
  let parts := splitLines text
  Focus.seek (text.clamp pos) [] ⟨0, parts.1⟩ (number (parts.1.length + 1) parts.2)

def lineAt (text : Text) (pos : Int) : Line := (text.focus pos).line

def lineStart (text : Text) (pos : Int) : Nat := (text.lineAt pos).start

def lineStop (text : Text) (pos : Int) : Nat := (text.lineAt pos).stop

def nextLineStart (text : Text) (pos : Int) : Option Nat := (text.focus pos).below.head?.map Line.start

def previousLineStart (text : Text) (pos : Int) : Option Nat := (text.focus pos).above.head?.map Line.start

end Text

end Literate
