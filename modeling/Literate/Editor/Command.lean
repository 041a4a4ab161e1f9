import Literate.Editor.Basic
import Literate.Session.Workspace

namespace Literate

inductive Command
  | cycleTitle
  | copySnippet
  | evalSnippet
  | evalBlock
  | toggleQuotes
  | toggleTitles
  | hideAll
deriving DecidableEq, Repr

namespace Command

def all : List Command :=
  [cycleTitle, copySnippet, evalSnippet, evalBlock, toggleQuotes, toggleTitles, hideAll]

def name : Command → String
  | cycleTitle => "cycle_title"
  | copySnippet => "copy_snippet_to_target"
  | evalSnippet => "eval_snippet_inline"
  | evalBlock => "eval_block_inline"
  | toggleQuotes => "toggle_quotes_markup"
  | toggleTitles => "toggle_title_markup"
  | hideAll => "hide_all_markup"

def label : Command → String
  | cycleTitle => "Cycle title"
  | copySnippet => "Copy snippet to target"
  | evalSnippet => "Eval snippet inline"
  | evalBlock => "Eval block inline"
  | toggleQuotes => "Toggle quotes markup"
  | toggleTitles => "Toggle title markup"
  | hideAll => "Hide all markup"

def shortcut : Command → String
  | cycleTitle => "Ctrl+Alt+T"
  | copySnippet => "Ctrl+Alt+C"
  | evalSnippet => "Ctrl+Return"
  | evalBlock => "Ctrl+Shift+Return"
  | toggleQuotes => "Ctrl+Alt+Q"
  | toggleTitles => "Ctrl+Alt+H"
  | hideAll => "Ctrl+Alt+A"

def named? (name : String) : Option Command := all.find? fun c => c.name = name

end Command

namespace Editor

abbrev Outcome := Editor × Except Failure Answer

def finish {α : Type} (e : Editor) (r : Evaluated α) (f : α → Editor × Answer) : Outcome :=
  match r.2 with
  | .ok a => let o := f a; (o.1, .ok o.2)
  | .error (.noSnippet missing) => ({ e with messages := e.messages ++ [missing.message] }, .ok .none)
  | .error failure => (e, .error failure)

def evaluate (backend : Backend) (e : Editor) (wholeRun : Bool) : Outcome :=
  e.finish (e.grammar.evaluate backend e.text e.cursor wholeRun) fun r =>
    (e.perform (.showOverlay r), .text r.text)

def copySnippet (backend : Backend) (e : Editor) : Outcome :=
  e.finish (e.grammar.execute backend e.text e.cursor) fun r =>
    (e.performAll (Plan.sent e.console.isSome r.1 r.2), .text r.2)

def cycleTitle (e : Editor) : Outcome :=
  let edit := e.grammar.cycleTitle e.text e.cursor
  (e.performAll (Plan.applied e.grammar e.text edit), .ok (.edit edit))

def toggle (e : Editor) (setting : Setting) : Outcome :=
  match e.store.toggle (.text setting.name.toList) with
  | .error failure => (e, .error (.settings failure))
  | .ok (c, b) => (e.install c, .ok (.flag b))

def hideAll (e : Editor) : Outcome :=
  match e.store.update allHidden with
  | .error failure => (e, .error (.settings failure))
  | .ok c => (if c.changed then e.install c else e.refresh, .ok .none)

def set (e : Editor) (key value : Value) : Outcome :=
  match e.store.set key value with
  | .error failure => (e, .error (.settings failure))
  | .ok c => (e.install c, .ok (.flag c.changed))

def command (backend : Backend) (e : Editor) : Command → Outcome
  | .cycleTitle => e.cycleTitle
  | .copySnippet => e.copySnippet backend
  | .evalSnippet => e.evaluate backend false
  | .evalBlock => e.evaluate backend true
  | .toggleQuotes => e.toggle .hideQuotes
  | .toggleTitles => e.toggle .hideTitleMarkup
  | .hideAll => e.hideAll

inductive Step
  | load (text : Text)
  | move (pos : Int)
  | replace (edit : TextEdit)
  | idle
  | rested
  | flush
  | command (c : Command)
  | trigger (c : Command)
  | clearOverlays
  | shutdown
  | redraw (range : Span)
  | showOverlay (r : Result)
  | set (key value : Value)

def withoutAnswer (o : Outcome) : Outcome := (o.1, o.2.map fun _ => .none)

def step (backend : Backend) (e : Editor) : Step → Outcome
  | .load text => (e.load text, .ok .none)
  | .move pos => (e.move pos, .ok .none)
  | .replace edit => (e.replace edit, .ok .none)
  | .idle => (e.idleNow, .ok .none)
  | .rested => (e.rested, .ok .none)
  | .flush => (e.flush, .ok .none)
  | .command c => command backend e c
  | .trigger c => withoutAnswer (command backend e c)
  | .clearOverlays => (e.clearOverlays, .ok .none)
  | .shutdown => (e.shutdown, .ok .none)
  | .redraw range => (e.redraw range, .ok .none)
  | .showOverlay r => (e.showOverlay r, .ok .none)
  | .set key value => e.set key value

end Editor

end Literate
