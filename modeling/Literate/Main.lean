import Literate.Window.Menu

namespace Literate.Main

def noticeText : Notice → String
  | .openDialog => Window.openCaption
  | .saveDialog => Window.saveCaption
  | .warning text => text
  | .status text _ => text
  | .closed => "closed"

def present (w : Window) : IO Unit := do
  IO.println (String.ofList w.title)
  for n in w.notices do
    IO.println (noticeText n)

def changedFiles (before after : FileTree) : List (List Text × Bytes) :=
  after.files.filter fun f => before.content? f.1 ≠ some f.2

def writeOut (before after : FileTree) : IO Unit := do
  for f in changedFiles before after do
    IO.FS.writeBinFile (String.ofList (['/'].intercalate f.1)) (ByteArray.mk f.2.toArray)

def noBackend : Backend := fun _ => .value .null

partial def loop (input : IO.FS.Stream) (w : Window) : IO Unit := do
  let line ← input.getLine
  if line.isEmpty then return
  match Window.itemLabelled? line.trimAscii.toString with
  | none => loop input w
  | some item =>
    let next := (w.forget.trigger noBackend [] item).1
    writeOut w.tree next.tree
    present next
    loop input next

def treeOf (name : String) : IO FileTree := do
  try
    let bytes ← IO.FS.readBinFile name
    return FileTree.empty.add (.ofText name.toList) bytes.toList
  catch _ => return .empty

def users : IO (List (Text × Path)) := do
  try
    let entries ← IO.FS.lines "/etc/passwd"
    return entries.toList.filterMap fun entry =>
      match entry.splitOn ":" with
      | name :: _ :: _ :: _ :: _ :: home :: _ => some (name.toList, .ofText home.toList)
      | _ => none
  catch _ => return []

end Literate.Main

open Literate in
def main (arguments : List String) : IO UInt32 := do
  let tree ← Main.treeOf (arguments.headD "")
  let home := (← IO.getEnv "HOME").getD ""
  let users ← Main.users
  match Window.start tree (.ofText home.toList) users (arguments.map String.toList) with
  | (_, .error fault) =>
    IO.eprintln fault.message
    return 1
  | (w, .ok _) =>
    Main.present w
    Main.loop (← IO.getStdin) w
    return 0
