import Literate.Session.Document
import Literate.Settings.Store

namespace Literate

structure Workspace where
  store : Store Nat
  documents : List Document
  executed : List Text
deriving DecidableEq, Repr

inductive Step
  | setText (text : Text)
  | put (pos : Int)
  | move (pos : Int)
  | fire
  | edit (e : TextEdit)
  | changed (pos added : Int)
  | evaluate (wholeRun : Bool)
  | cycleTitle
  | copySnippet
  | toggle (setting : Setting)
  | hideAll
  | refresh
  | close
  | set (key value : Value)

inductive Answer
  | none
  | extent (e : Extent)
  | edit (e : TextEdit)
  | text (t : Text)
  | flag (b : Bool)
deriving DecidableEq, Repr

namespace Workspace

def ofDocuments (settings : Settings) (documents : List Document) : Workspace :=
  let store : Store Nat := { Store.ofDefaults {} with current := settings }
  ⟨(List.range documents.length).foldl Store.subscribe store, documents, []⟩

def settings (w : Workspace) : Settings := w.store.current

def grammar (w : Workspace) : Grammar := w.settings.grammar

def modify (w : Workspace) (i : Nat) (f : Document → Document) : Workspace :=
  { w with documents := w.documents.modify i f }

def install (w : Workspace) (c : Change Nat) : Workspace :=
  c.audience.foldl (fun w i => w.modify i Document.refresh) { w with store := c.store }

abbrev Outcome := Workspace × Except Failure Answer

def put (w : Workspace) (i : Nat) (d : Document) : Workspace := w.modify i fun _ => d

def finish {α : Type} (w : Workspace) (e : Evaluated α) (f : α → Outcome) : Outcome :=
  match e.2 with
  | .error failure => ({ w with executed := w.executed ++ e.1 }, .error failure)
  | .ok a => let o := f a; ({ o.1 with executed := o.1.executed ++ e.1 }, o.2)

def stepOn (backend : Backend) (w : Workspace) (i : Nat) (d : Document) : Step → Outcome
  | .setText text => (w.put i { d with text := text }, .ok .none)
  | .put pos => (w.put i { d with cursor := pos }, .ok .none)
  | .move pos => (w.put i (d.move pos), .ok .none)
  | .fire => (w.put i (d.fire w.settings), .ok .none)
  | .edit e => let r := d.edited w.grammar e; (w.put i r.1, .ok (.extent r.2))
  | .changed pos added => let r := d.changed w.grammar pos added; (w.put i r.1, .ok (.extent r.2))
  | .evaluate wholeRun =>
    w.finish (w.grammar.evaluate backend d.text d.cursor wholeRun) fun r =>
      (w.put i (d.showResult r), .ok (.text r.text))
  | .cycleTitle => let r := d.cycleTitle w.grammar; (w.put i r.1, .ok (.edit r.2))
  | .copySnippet =>
    w.finish (w.grammar.execute backend d.text d.cursor) fun r =>
      (w.put i (d.sent r.1 r.2), .ok (.text r.2))
  | .toggle setting =>
    match w.store.toggle (.text setting.name.toList) with
    | .error e => (w, .error (.settings e))
    | .ok (c, b) => (w.install c, .ok (.flag b))
  | .hideAll =>
    match w.store.update allHidden with
    | .error e => (w, .error (.settings e))
    | .ok c => (if c.changed then w.install c else w.put i d.refresh, .ok .none)
  | .refresh => (w.put i d.refresh, .ok .none)
  | .close =>
    let w := w.put i d.close
    ({ w with store := if d.closed then w.store else w.store.unsubscribe i }, .ok .none)
  | .set key value =>
    match w.store.set key value with
    | .error e => (w, .error (.settings e))
    | .ok c => (w.install c, .ok (.flag c.changed))

def step (backend : Backend) (w : Workspace) (i : Nat) (s : Step) : Outcome :=
  match w.documents[i]? with
  | none => (w, .ok .none)
  | some d => w.stepOn backend i d s

def forget (w : Workspace) : Workspace :=
  ⟨w.store, w.documents.map Document.forget, []⟩

def run (backend : Backend) (w : Workspace) (steps : List (Nat × Step)) : Workspace :=
  steps.foldl (fun w s => (w.step backend s.1 s.2).1) w

end Workspace

inductive Event
  | join (text : Text) (cursor : Int) (target : Bool)
  | step (i : Nat) (s : Step)
  | update (values : List (Value × Value))
  | reset

namespace Workspace

def ofDefaults (defaults : Settings) : Workspace := ⟨.ofDefaults defaults, [], []⟩

def join (w : Workspace) (d : Document) : Workspace :=
  ⟨w.store.subscribe w.documents.length, w.documents ++ [d], w.executed⟩

def handle (backend : Backend) (w : Workspace) : Event → Outcome
  | .join text cursor target => (w.join (.ofText text cursor target), .ok .none)
  | .step i s => w.step backend i s
  | .update values =>
    match w.store.update values with
    | .error e => (w, .error (.settings e))
    | .ok c => (w.install c, .ok (.flag c.changed))
  | .reset => (w.install w.store.reset, .ok (.flag w.store.reset.changed))

def handleAll (backend : Backend) (w : Workspace) (events : List Event) : Workspace :=
  events.foldl (fun w e => (w.handle backend e).1) w

end Workspace

end Literate
