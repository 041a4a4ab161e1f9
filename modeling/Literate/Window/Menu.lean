import Literate.Window.Basic

namespace Literate

inductive MenuItem
  | openFile
  | saveFile
  | quit
  | command (c : Command)
  | reveal
deriving DecidableEq, Repr

namespace MenuItem

def label : MenuItem → String
  | openFile => "&Open..."
  | saveFile => "&Save"
  | quit => "&Quit"
  | command c => c.label
  | reveal => "Reveal markup at point"

def shortcut : MenuItem → Option String
  | openFile => some "Open"
  | saveFile => some "Save"
  | quit => some "Quit"
  | command c => some c.shortcut
  | reveal => none

end MenuItem

structure Menu where
  title : String
  items : List (Option MenuItem)
deriving DecidableEq, Repr

def Menu.files : Menu := ⟨"&File", [some .openFile, some .saveFile, some .quit]⟩

def Menu.literate : Menu :=
  ⟨"&Literate", Command.all.map (fun c => some (.command c)) ++ [none, some .reveal]⟩

def Menu.all : List Menu := [Menu.files, Menu.literate]

namespace Window

def isChecked (w : Window) : MenuItem → Bool
  | .reveal => w.revealChecked
  | _ => false

def itemLabelled? (label : String) : Option MenuItem :=
  (Menu.all.flatMap fun m => m.items.filterMap id).find? fun i => i.label = label

def withoutAnswer {α : Type} (o : Outcome α) : Outcome Unit := (o.1, o.2.map fun _ => ())

def switchReveal (backend : Backend) (w : Window) : Outcome Unit :=
  let checked := !w.revealChecked
  withoutAnswer (editorStep backend { w with revealChecked := checked }
    (.set (.text Setting.revealAtPoint.name.toList) (.bool checked)))

def trigger (backend : Backend) (w : Window) (chosen : Text) : MenuItem → Outcome Unit
  | .openFile => w.chooseFile chosen
  | .saveFile => w.saveFile chosen
  | .quit => (w.close, .ok ())
  | .command c => withoutAnswer (w.editorStep backend (.trigger c))
  | .reveal => w.switchReveal backend

end Window

end Literate
