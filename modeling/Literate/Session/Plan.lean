import Literate.Evaluation
import Literate.Extent
import Literate.Title.Edit

/-!
What an editing session asks its host to do. A host carries out the actions in their order; the text that later
actions refer to is the one that earlier ones leave.
-/

namespace Literate

inductive Action
  | redraw (range : Span)
  | edit (e : TextEdit)
  | clearOverlays
  | showOverlay (result : Result)
  | send (command output : Text)
  | scrollToEnd
deriving DecidableEq, Repr

namespace Plan

def refresh (text : Text) : Action := .redraw ⟨0, text.length⟩

/-- Answers a change of the text: results vanish, a drifted underline is resized, and the extent of the change
is drawn again. -/
def changed (g : Grammar) (text : Text) (pos added : Int) : List Action × Extent :=
  let resize := g.resizeUnderline text pos
  let after := resize.elim text fun e => e.apply text
  let extent := g.widenFully after pos (pos + max 0 added)
  (.clearOverlays :: resize.toList.map .edit ++ [.redraw extent.span], extent)

def applied (g : Grammar) (text : Text) (e : TextEdit) : List Action :=
  let extent := g.widenFully (e.apply text) e.start (e.start + e.text.length)
  [.edit e, .redraw extent.span]

def sent (target : Bool) (command output : Text) : List Action :=
  if target then [.send command output, .scrollToEnd] else []

end Plan

def allHidden : List (Value × Value) :=
  [(.text Setting.hideTitleMarkup.name.toList, .bool true), (.text Setting.hideQuotes.name.toList, .bool true)]

def Grammar.titleSpanAt (g : Grammar) (text : Text) (pos : Int) : Option Span :=
  (g.titleBlockAt text pos).map TitleBlock.span

end Literate
