import Literate.Text.Basic

/-!
Showing the hidden markup of the title at the cursor. The window is the title that is shown, if any. It is given
up as soon as the cursor leaves it, and a new one is looked for when the cursor has rested for a while.
-/

namespace Literate

namespace Reveal

abbrev Window := Option Span

/-- A redraw request tells the window that is in force when it is made. -/
inductive Request
  | redraw (range : Span) (window : Window)
  | schedule (delay : Int)
  | cancel
deriving DecidableEq, Repr

def usualDelay : Int := 40

abbrev Outcome := Window × List Request

def leave (pos : Int) : Window → Outcome
  | some w => if w.contains pos then (some w, []) else (none, [.redraw w none])
  | none => (none, [])

def cursorMoved (delay pos : Int) (window : Window) : Outcome :=
  ((leave pos window).1, (leave pos window).2 ++ [.schedule delay])

def enter (pos : Int) (found : Option Span) (window : Window) : Outcome :=
  match found with
  | none => (window, [])
  | some w =>
    if window = some w ∨ !w.contains pos then (window, [])
    else (some w, window.toList.map (fun old => .redraw old (some w)) ++ [.redraw w (some w)])

def rested (enabled : Bool) (pos : Int) (found : Option Span) (window : Window) : Outcome :=
  if enabled then enter pos found window else (window, [])

def reset (window : Window) : Outcome :=
  (none, .cancel :: window.toList.map fun w => .redraw w none)

structure Place where
  delay : Int
  enabled : Bool
  spanAt : Int → Option Span
  cursor : Int
  pending : Bool
  window : Window
  requests : List Request

inductive Event
  | move (pos : Int)
  | put (pos : Int)
  | index (spanAt : Int → Option Span)
  | enable (b : Bool)
  | fire
  | check
  | reset

namespace Place

def keep (p : Place) (o : Outcome) : Place :=
  { p with window := o.1, requests := p.requests ++ o.2 }

def check (p : Place) : Place := p.keep (rested p.enabled p.cursor (p.spanAt p.cursor) p.window)

def step (p : Place) : Event → Place
  | .move pos => { p.keep (cursorMoved p.delay pos p.window) with cursor := pos, pending := true }
  | .put pos => { p with cursor := pos }
  | .index spanAt => { p with spanAt := spanAt }
  | .enable b => { p with enabled := b }
  | .fire => if p.pending then check { p with pending := false } else p
  | .check => p.check
  | .reset => { p.keep (Reveal.reset p.window) with pending := false }

end Place

end Reveal

end Literate
