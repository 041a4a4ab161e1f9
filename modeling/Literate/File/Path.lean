import Literate.Text.Basic

namespace Literate

/-- `root` is empty unless the path is absolute. -/
structure Path where
  root : Text
  names : List Text
deriving DecidableEq, Repr

namespace Path

def split : Text → Text × List Text
  | [] => ([], [])
  | c :: rest =>
    let parts := split rest
    if c = '/' then ([], parts.1 :: parts.2) else (c :: parts.1, parts.2)

def rootOf (text : Text) : Text :=
  let slashes := (text.takeWhile (· = '/')).length
  if slashes = 0 then [] else if slashes = 2 then ['/', '/'] else ['/']

def ofText (text : Text) : Path :=
  let parts := split text
  ⟨rootOf text, (parts.1 :: parts.2).filter fun name => name ≠ [] ∧ name ≠ ['.']⟩

def text (p : Path) : Text :=
  if p.root = [] ∧ p.names = [] then ['.'] else p.root ++ ['/'].intercalate p.names

def name (p : Path) : Text := p.names.getLastD []

/-- The home directory that a name with a tilde in front stands for: the own one, or the one that belongs to a user.
A name with a null byte is not looked up. -/
def homeNamed? (home : Path) (users : List (Text × Path)) (name : Text) : Option Path :=
  if name = ['~'] then some home
  else if '\x00' ∈ name then none
  else users.lookup name.tail

def expandHome (p home : Path) (users : List (Text × Path)) : Option Path :=
  match p.names with
  | first :: rest =>
    if p.root = [] ∧ first.head? = some '~' then
      (homeNamed? home users first).map fun h => { h with names := h.names ++ rest }
    else some p
  | [] => some p

end Path

end Literate
