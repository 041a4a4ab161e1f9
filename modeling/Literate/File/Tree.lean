import Literate.File.Path
import Literate.File.Utf8
import Literate.Text.Quoted

namespace Literate

inductive Refusal
  | missing
  | notDirectory
  | isDirectory
  | nameTooLong
deriving DecidableEq, Repr

namespace Refusal

def code : Refusal → Nat
  | missing => 2
  | notDirectory => 20
  | isDirectory => 21
  | nameTooLong => 36

def reason : Refusal → String
  | missing => "No such file or directory"
  | notDirectory => "Not a directory"
  | isDirectory => "Is a directory"
  | nameTooLong => "File name too long"

def message (r : Refusal) (p : Path) : String := s!"[Errno {r.code}] {r.reason}: {p.text.quoted}"

end Refusal

/-- Files in the order of their places, and the directories that are known. A place is a list of names from the
working directory on. It may start with steps up, or with the root of the system. -/
structure FileTree where
  files : List (List Text × Bytes)
  directories : List (List Text)
deriving DecidableEq, Repr

namespace FileTree

def parent : Text := ['.', '.']

def root : Text := ['/']

def systemDirectories : List String :=
  ["bin", "dev", "etc", "home", "lib", "media", "mnt", "opt", "proc", "root", "run", "sbin", "srv", "sys", "tmp",
    "usr", "var"]

def empty : FileTree := ⟨[], systemDirectories.map fun name => [root, name.toList]⟩

def ownFiles (t : FileTree) : List (List Text × Bytes) :=
  t.files.filter fun f => f.1.head? ≠ some parent && f.1.head? ≠ some root

def content? (t : FileTree) (place : List Text) : Option Bytes := t.files.lookup place

def isDirectory (t : FileTree) (place : List Text) : Bool :=
  place.all (· = parent) || place = [root] || t.directories.contains place

def enter (directory : List Text) (name : Text) : List Text :=
  if name ≠ parent then directory ++ [name]
  else if directory = [root] then directory
  else if directory.all (· = parent) then directory ++ [parent]
  else directory.dropLast

def insert (place : List Text) (bytes : Bytes) : List (List Text × Bytes) → List (List Text × Bytes)
  | [] => [(place, bytes)]
  | f :: rest =>
    if f.1 = place then (place, bytes) :: rest
    else if place < f.1 then (place, bytes) :: f :: rest
    else f :: insert place bytes rest

def put (t : FileTree) (place : List Text) (bytes : Bytes) : FileTree :=
  { t with files := insert place bytes t.files }

def origin (p : Path) : List Text := if p.root = [] then [] else [root]

def way (directory : List Text) : List Text → List (List Text)
  | [] => []
  | name :: rest => enter directory name :: way (enter directory name) rest

def add (t : FileTree) (p : Path) (bytes : Bytes) : FileTree :=
  let directories := way (origin p) p.names.dropLast
  let place := enter (directories.getLastD (origin p)) p.name
  put { t with directories := directories ++ t.directories } place bytes

def nameLimit : Nat := 255

def pathLimit : Nat := 4095

def tooLong (name : Text) : Bool := nameLimit < (Utf8.encode name).length

def walk (t : FileTree) (directory : List Text) : List Text → Except Refusal (List Text)
  | [] => .ok directory
  | name :: rest =>
    let next := enter directory name
    if tooLong name then .error .nameTooLong
    else if t.isDirectory next then walk t next rest
    else if rest = [] then .ok next
    else .error (if (t.content? next).isSome then .notDirectory else .missing)

def locate (t : FileTree) (p : Path) : Except Refusal (List Text) :=
  if pathLimit < (Utf8.encode p.text).length then .error .nameTooLong
  else
    match t.walk (origin p) p.names with
    | .error r => .error r
    | .ok place => if t.isDirectory place then .error .isDirectory else .ok place

def read (t : FileTree) (p : Path) : Except Refusal Bytes :=
  match t.locate p with
  | .error r => .error r
  | .ok place =>
    match t.content? place with
    | some bytes => .ok bytes
    | none => .error .missing

def write (t : FileTree) (p : Path) (bytes : Bytes) : Except Refusal FileTree :=
  (t.locate p).map fun place => t.put place bytes

end FileTree

/-- What is asked of the system: the bytes of a file, and to write one, which tells what files there are then. It may
refuse either with a message. -/
structure System where
  read : Path → Except String Bytes
  write : Path → Bytes → FileTree × Except String Unit

def FileTree.system (t : FileTree) : System where
  read p := (t.read p).mapError (·.message p)
  write p bytes :=
    match t.write p bytes with
    | .error r => (t, .error (r.message p))
    | .ok tree => (tree, .ok ())

end Literate
