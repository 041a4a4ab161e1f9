import Literate.Grammar.Marker
import Literate.Text.Search

namespace Literate

open Unicode

inductive Prompt
  | primary
  | continuation
deriving DecidableEq, Repr

def Prompt.text : Prompt → Text
  | primary => ['>', '>', '>']
  | continuation => ['.', '.', '.']

/-- `gap` tells whether a space parts the prompt from its payload. -/
structure DoctestLine where
  start : Nat
  lead : Text
  prompt : Prompt
  gap : Bool
  payload : Text
deriving DecidableEq, Repr

namespace DoctestLine

def promptStart (d : DoctestLine) : Nat := d.start + d.lead.length

def promptStop (d : DoctestLine) : Nat := d.promptStart + 3

def payloadStart (d : DoctestLine) : Nat := d.promptStop + if d.gap then 1 else 0

def stop (d : DoctestLine) : Nat := d.payloadStart + d.payload.length

def isContinuation (d : DoctestLine) : Bool := d.prompt = .continuation

end DoctestLine

def promptAt? (text : Text) : Option (Prompt × Text) :=
  match Prompt.primary.text.isPrefixOf? text with
  | some rest => some (.primary, rest)
  | none => (Prompt.continuation.text.isPrefixOf? text).map fun rest => (.continuation, rest)

def payloadOf : Text → Bool × Text
  | ' ' :: rest => (true, rest)
  | rest => (false, rest)

namespace Grammar

def leads (g : Grammar) (c : Char) : Bool := c ∈ g.comment || isBlank c

def doctestFrom? (g : Grammar) (start : Nat) (text : Text) : Option DoctestLine :=
  (splitsOf g.leads text).findSome? fun p =>
    (promptAt? p.2).map fun q =>
      let payload := payloadOf q.2
      ⟨start, text.take p.1, q.1, payload.1, Text.firstLine payload.2⟩

def doctest? (g : Grammar) (line : Line) : Option DoctestLine := g.doctestFrom? line.start line.body

def doctestAt (g : Grammar) (text : Text) (pos : Int) : Option DoctestLine :=
  g.doctest? (text.lineAt pos)

def doctestLines (g : Grammar) (text : Text) (start stop : Nat) : List DoctestLine :=
  text.searchLines g.doctestFrom? DoctestLine.stop start stop

end Grammar

end Literate
