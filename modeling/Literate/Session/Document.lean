import Literate.Reveal
import Literate.Session.Plan

namespace Literate

inductive Deed
  | acted (a : Action)
  | revealed (r : Reveal.Request)
deriving DecidableEq, Repr

structure Document where
  text : Text
  cursor : Int
  target : Bool
  overlays : List Result
  window : Reveal.Window
  pending : Bool
  closed : Bool
  deeds : List Deed
deriving DecidableEq, Repr

namespace Document

def ofText (text : Text) (cursor : Int) (target : Bool) : Document :=
  ⟨text, cursor, target, [], none, false, false, []⟩

def putOverlay (r : Result) : List Result → List Result
  | [] => [r]
  | s :: rest =>
    if r.anchor < s.anchor then r :: s :: rest
    else if r.anchor = s.anchor then r :: rest
    else s :: putOverlay r rest

def perform (d : Document) (a : Action) : Document :=
  let d := { d with deeds := d.deeds ++ [.acted a] }
  match a with
  | .edit e => { d with text := e.apply d.text }
  | .clearOverlays => { d with overlays := [] }
  | .showOverlay r => { d with overlays := putOverlay r d.overlays }
  | .redraw _ => d
  | .send _ _ => d
  | .scrollToEnd => d

def performAll (d : Document) (actions : List Action) : Document := actions.foldl perform d

def refresh (d : Document) : Document := d.perform (Plan.refresh d.text)

def request (d : Document) (r : Reveal.Request) : Document :=
  let d := { d with deeds := d.deeds ++ [.revealed r] }
  match r with
  | .schedule _ => { d with pending := true }
  | .cancel => { d with pending := false }
  | .redraw _ _ => d

def reveal (d : Document) (o : Reveal.Outcome) : Document := o.2.foldl request { d with window := o.1 }

def cursorMoved (d : Document) (pos : Int) : Document :=
  d.reveal (Reveal.cursorMoved Reveal.usualDelay pos d.window)

def move (d : Document) (pos : Int) : Document := cursorMoved { d with cursor := pos } pos

def fire (d : Document) (s : Settings) : Document :=
  if d.pending then
    reveal { d with pending := false }
      (Reveal.rested s.revealAtPoint d.cursor (s.grammar.titleSpanAt d.text d.cursor) d.window)
  else d

def changed (d : Document) (g : Grammar) (pos added : Int) : Document × Extent :=
  let plan := Plan.changed g d.text pos added
  (d.performAll plan.1, plan.2)

def edited (d : Document) (g : Grammar) (e : TextEdit) : Document × Extent :=
  changed { d with text := e.apply d.text } g e.start e.text.length

def cycleTitle (d : Document) (g : Grammar) : Document × TextEdit :=
  let e := g.cycleTitle d.text d.cursor
  (d.performAll (Plan.applied g d.text e), e)

def showResult (d : Document) (r : Result) : Document := d.perform (.showOverlay r)

def sent (d : Document) (command output : Text) : Document := d.performAll (Plan.sent d.target command output)

def forget (d : Document) : Document := { d with deeds := [] }

def close (d : Document) : Document :=
  if d.closed then d else reveal { d with closed := true } (Reveal.reset d.window)

end Document

end Literate
