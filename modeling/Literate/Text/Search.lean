import Literate.Text.Line

namespace Literate

/-- What a pattern finds at the front of a text, given the character before it: how long and what. -/
abbrev Pattern (α : Type) := Option Char → Text → Option (Nat × α)

structure Match (α : Type) where
  start : Nat
  length : Nat
  value : α
deriving DecidableEq, Repr

def Match.stop {α : Type} (m : Match α) : Nat := m.start + m.length

/-- `skip` characters still belong to the match before; `pos` is the position of the text. -/
def Pattern.searchFrom {α : Type} (p : Pattern α) (skip pos : Nat) (before : Option Char) :
    Text → List (Match α)
  | [] => []
  | c :: rest =>
    match skip with
    | n + 1 => searchFrom p n (pos + 1) (some c) rest
    | 0 =>
      match p before (c :: rest) with
      | some (n, value) => ⟨pos, n, value⟩ :: searchFrom p (n - 1) (pos + 1) (some c) rest
      | none => searchFrom p 0 (pos + 1) (some c) rest

def Pattern.search {α : Type} (p : Pattern α) (text : Text) : List (Match α) :=
  p.searchFrom 0 0 none text

def Pattern.searchAfter {α : Type} (p : Pattern α) (text : Text) (start : Nat) : List (Match α) :=
  p.searchFrom 0 start (text.take start).getLast? (text.drop start)

namespace Text

def collect {α : Type} (read? : Nat → Text → Option α) (stop : α → Nat) (first : Nat) :
    List (Nat × Text) → List α
  | [] => []
  | (start, tail) :: below =>
    match if first ≤ start then read? start tail else none with
    | some found => found :: collect read? stop (stop found) below
    | none => collect read? stop first below

def searchLines {α : Type} (read? : Nat → Text → Option α) (stop : α → Nat) (text : Text)
    (first last : Nat) : List α :=
  collect read? stop first (tails (text.take last))

end Text

end Literate
