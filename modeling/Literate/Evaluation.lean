import Literate.Doctest.Snippet
import Literate.Settings.Basic

namespace Literate

inductive Reply
  | value (v : Value)
  | failure (message : Text)

abbrev Backend := Text → Reply

inductive Failure
  | noSnippet (e : NoSnippet)
  | settings (e : SettingsError)
  | backend (message : Text)

def Failure.message : Failure → String
  | noSnippet e => e.message
  | settings e => e.message
  | backend message => String.ofList message

abbrev Evaluated (α : Type) := List Text × Except Failure α

namespace Backend

def run (backend : Backend) : List Text → Evaluated (List Text)
  | [] => ([], .ok [])
  | command :: commands =>
    match backend command with
    | .failure message => ([command], .error (.backend message))
    | .value v =>
      let rest := run backend commands
      (command :: rest.1, rest.2.map (v.plainIfCounts :: ·))

end Backend

def trimNewlines (text : Text) : Text := (text.reverse.dropWhile (· = '\n')).reverse

def shownResult (outputs : List Text) : Text :=
  Text.joinLines ((outputs.map trimNewlines).filter fun t => t ≠ [])

structure Result where
  anchor : Int
  text : Text
deriving DecidableEq, Repr

namespace Grammar

def commandsAt (g : Grammar) (text : Text) (pos : Int) (wholeRun : Bool) :
    Except NoSnippet (List Text × Nat) :=
  if wholeRun then (g.readRun text pos).map fun r => (r.commands, r.lastLineStart)
  else (g.readSnippet text pos).map fun s => ([s.command], s.lastLineStart)

def evaluate (g : Grammar) (backend : Backend) (text : Text) (pos : Int) (wholeRun : Bool) :
    Evaluated Result :=
  match g.commandsAt text pos wholeRun with
  | .error e => ([], .error (.noSnippet e))
  | .ok (commands, anchor) =>
    let ran := backend.run commands
    (ran.1, ran.2.map fun outputs => ⟨anchor, shownResult outputs⟩)

def execute (g : Grammar) (backend : Backend) (text : Text) (pos : Int) : Evaluated (Text × Text) :=
  match g.readSnippet text pos with
  | .error e => ([], .error (.noSnippet e))
  | .ok s =>
    let ran := backend.run [s.command]
    (ran.1, ran.2.map fun outputs => (s.command, outputs.flatten))

end Grammar

end Literate
