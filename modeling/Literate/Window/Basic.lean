import Literate.Editor.Command
import Literate.File.Tree

namespace Literate

inductive Notice
  | openDialog
  | saveDialog
  | warning (text : String)
  | status (text : String) (milliseconds : Nat)
  | closed
deriving DecidableEq, Repr

inductive Fault
  | command (failure : Failure)
  | unknownHome
  | nullByte
  | undecodable (e : Utf8.Error)

def Fault.message : Fault → String
  | command failure => failure.message
  | unknownHome => "Could not determine home directory."
  | nullByte => "embedded null byte"
  | undecodable e => e.message

structure Window where
  editor : Editor
  path : Option Path
  title : Text
  tree : FileTree
  home : Path
  users : List (Text × Path)
  revealChecked : Bool
  notices : List Notice
deriving DecidableEq, Repr

namespace Window

def appName : String := "LitPyside"

def openCaption : String := "Open literate source"

def openFilter : String := "Python (*.py);;All files (*)"

def saveCaption : String := "Save literate source"

def saveFilter : String := "Python (*.py)"

def titled (name : Text) : Text := appName.toList ++ [' ', '['] ++ name ++ [']']

abbrev Outcome (α : Type) := Window × Except Fault α

def notify (w : Window) (n : Notice) : Window := { w with notices := w.notices ++ [n] }

def forget (w : Window) : Window := { w with editor := w.editor.forget, notices := [] }

def updateTitle (w : Window) : Window := { w with title := titled (w.path.elim "untitled".toList Path.name) }

def hasNull (p : Path) : Bool := '\x00' ∈ p.text

def opened (w : Window) (p : Path) : Except String Bytes → Outcome Unit
  | .error reason => (w.notify (.warning s!"Could not open {String.ofList p.text}:\n{reason}"), .ok ())
  | .ok bytes =>
    match Utf8.decode bytes with
    | .error e => (w, .error (.undecodable e))
    | .ok text =>
      (updateTitle { w with editor := w.editor.load (unifyNewlines text), path := some p }, .ok ())

def openBy (sys : System) (w : Window) (path : Text) : Outcome Unit :=
  let p := Path.ofText path
  match p.expandHome w.home w.users with
  | none => (w, .error (if (p.names.headD []).contains '\x00' then .nullByte else .unknownHome))
  | some p => if hasNull p then (w, .error .nullByte) else w.opened p (sys.read p)

def openFile (w : Window) (path : Text) : Outcome Unit := w.openBy w.tree.system path

def saved (w : Window) (p : Path) (answer : Except String Unit) : Outcome Unit :=
  match answer with
  | .error reason => (w.notify (.warning s!"Could not save {String.ofList p.text}:\n{reason}"), .ok ())
  | .ok _ => (updateTitle (w.notify (.status s!"Saved {String.ofList p.text}" 3000)), .ok ())

def savePath (sys : System) (w : Window) (p : Path) : Outcome Unit :=
  let w := { w with path := some p }
  if hasNull p then (w, .error .nullByte)
  else
    let (tree, answer) := sys.write p (Utf8.encode w.editor.text)
    saved { w with tree := tree } p answer

def saveBy (sys : System) (w : Window) (chosen : Text) : Outcome Unit :=
  match w.path with
  | some p => w.savePath sys p
  | none =>
    let w := w.notify .saveDialog
    if chosen = [] then (w, .ok ()) else w.savePath sys (.ofText chosen)

def saveFile (w : Window) (chosen : Text) : Outcome Unit := w.saveBy w.tree.system chosen

def chooseFile (w : Window) (chosen : Text) : Outcome Unit :=
  let w := w.notify .openDialog
  if chosen = [] then (w, .ok ()) else w.openFile chosen

def close (w : Window) : Window := notify { w with editor := w.editor.shutdown } .closed

def editorStep (backend : Backend) (w : Window) (s : Editor.Step) : Outcome Answer :=
  let known := w.editor.messages.length
  let (editor, answer) := w.editor.step backend s
  let w := { w with editor := editor }
  ((editor.messages.drop known).foldl (fun w m => w.notify (.status m 4000)) w, answer.mapError .command)

def start (tree : FileTree) (home : Path) (users : List (Text × Path)) (arguments : List Text) : Outcome Unit :=
  let editor := Editor.ofSettings {} (some []) "python".toList
  let w : Window := ⟨editor, none, [], tree, home, users, false, []⟩
  let path := arguments.headD []
  let opened : Outcome Unit := if path = [] then (w, .ok ()) else w.openFile path
  (opened.1.updateTitle, opened.2)

end Window

end Literate
