import Literate.Editor.Console
import Literate.Editor.Pending
import Literate.Editor.Repaint
import Literate.Render.Context
import Literate.Session.Document
import Literate.Settings.Store

namespace Literate

/-- `idle` tells whether gathered changes wait, `resting` whether the reveal timer runs. -/
structure Editor where
  text : Text
  cursor : Nat
  overlays : List Result
  pending : Option Pending
  idle : Bool
  resting : Bool
  window : Reveal.Window
  closed : Bool
  store : Store Unit
  console : Option Text
  language : Text
  repaints : List Repaint
  messages : List String
deriving DecidableEq, Repr

namespace Editor

def ofSettings (settings : Settings) (console : Option Text) (language : Text) : Editor :=
  { text := [], cursor := 0, overlays := [], pending := none, idle := false, resting := false,
    window := none, closed := false, store := ⟨{}, settings, [()]⟩, console, language,
    repaints := [], messages := [] }

def settings (e : Editor) : Settings := e.store.current

def grammar (e : Editor) : Grammar := e.settings.grammar

def forget (e : Editor) : Editor := { e with repaints := [], messages := [] }

def redraw (e : Editor) (range : Span) : Editor :=
  { e with repaints := e.repaints ++ Repaint.ofRange e.text range.start range.stop }

def request (e : Editor) : Reveal.Request → Editor
  | .schedule _ => { e with resting := true }
  | .cancel => { e with resting := false }
  | .redraw range _ => e.redraw range

def reveal (e : Editor) (o : Reveal.Outcome) : Editor := o.2.foldl request { e with window := o.1 }

def cursorMoved (e : Editor) : Editor :=
  if e.closed then e else e.reveal (Reveal.cursorMoved Reveal.usualDelay e.cursor e.window)

def setCursor (e : Editor) (pos : Nat) : Editor :=
  if pos = e.cursor then e else cursorMoved { e with cursor := pos }

def shiftCursor (cursor start removed added : Nat) : Nat :=
  if start ≤ cursor then max start (cursor - removed) + added else cursor

def isNothing (e : TextEdit) : Bool := e.start = e.stop && e.text.isEmpty

def applyEdit (e : Editor) (edit : TextEdit) : Editor :=
  if isNothing edit then e
  else
    let start := e.text.offset edit.start
    let removed := e.text.offset edit.stop - start
    setCursor { e with text := edit.apply e.text } (shiftCursor e.cursor start removed edit.text.length)

def dropOverlay (anchor : Int) (overlays : List Result) : List Result :=
  overlays.filter fun r => r.anchor ≠ anchor

def showOverlay (e : Editor) (r : Result) : Editor :=
  { e with overlays := if r.text = [] then dropOverlay r.anchor e.overlays
                       else Document.putOverlay r e.overlays }

def clearOverlays (e : Editor) : Editor := { e with overlays := [] }

def perform (e : Editor) : Action → Editor
  | .redraw range => e.redraw range
  | .edit edit => e.applyEdit edit
  | .clearOverlays => e.clearOverlays
  | .showOverlay r => e.showOverlay r
  | .send command output => { e with console := e.console.map fun t => Console.send t command output }
  | .scrollToEnd => e

def performAll (e : Editor) (actions : List Action) : Editor := actions.foldl perform e

def load (e : Editor) (text : Text) : Editor :=
  clearOverlays (setCursor { e with text := text, pending := none } 0)

def move (e : Editor) (pos : Int) : Editor :=
  if 0 ≤ pos ∧ pos ≤ e.text.length then e.setCursor pos.toNat else e

def replace (e : Editor) (edit : TextEdit) : Editor :=
  if isNothing edit then e
  else
    let start := e.text.offset edit.start
    let removed := e.text.offset edit.stop - start
    let change : Pending := ⟨start, removed, edit.text.length⟩
    setCursor { e with text := edit.apply e.text, pending := some (.join e.pending change), idle := true }
      (shiftCursor e.cursor start removed edit.text.length)

def flush (e : Editor) : Editor :=
  match e.pending with
  | none => e
  | some p =>
    let e := { e with pending := none }
    if e.closed then e
    else e.performAll (Plan.changed e.grammar e.text (min p.start e.text.length) p.added).1

def idleNow (e : Editor) : Editor := if e.idle then flush { e with idle := false } else e

def rested (e : Editor) : Editor :=
  if e.resting then
    reveal { e with resting := false } (Reveal.rested e.settings.revealAtPoint e.cursor
      (e.grammar.titleSpanAt e.text e.cursor) e.window)
  else e

def refresh (e : Editor) : Editor := e.perform (Plan.refresh e.text)

def install (e : Editor) (c : Change Unit) : Editor :=
  c.audience.foldl (fun e _ => e.refresh) { e with store := c.store }

def shutdown (e : Editor) : Editor :=
  let e := { e with idle := false, pending := none }
  if e.closed then e
  else reveal { e with closed := true, store := e.store.unsubscribe () } (Reveal.reset e.window)

def render (e : Editor) : List (Code.State × List Format) :=
  Render.paintLines
    (fun previous line next =>
      if e.closed then []
      else Render.lineDirectives (Render.annotator e.language) e.settings e.window previous line next)
    none none (Text.lines e.text)

end Editor

end Literate
