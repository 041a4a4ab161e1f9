import Literate.Grammar.Basic
import Literate.Text.Splits

/-!
The mark in front of a title or its underline: blanks, a comment sign, blanks. The sign may be missing, its
last character may be repeated, and a loud mark may follow it. `markers` lists every way to set such a mark
off from the text behind it, the preferred one first; what follows a mark never starts with a blank.
-/

namespace Literate

open Unicode

namespace Grammar

def commentStem (g : Grammar) : Text := g.comment.dropLast

def commentTail (g : Grammar) : Char := g.comment.getLastD '#'

def comments (g : Grammar) (text : Text) : List Split :=
  match g.commentStem.isPrefixOf? text with
  | none => []
  | some rest => (runsOf g.commentTail rest).map fun p => (g.commentStem.length + p.1, p.2)

def louds (g : Grammar) (text : Text) : List Split :=
  match g.loud.dropLast.isPrefixOf? text with
  | none => []
  | some rest =>
    match g.loud.isPrefixOf? text with
    | none => [(g.loud.dropLast.length, rest)]
    | some quiet => [(g.loud.length, quiet), (g.loud.dropLast.length, rest)]

def signs (g : Grammar) (text : Text) : List Split :=
  if g.loud = [] then (g.comments text).reverse
  else (g.comments text).flatMap fun p => (g.louds p.2).map fun q => (p.1 + q.1, q.2)

def withBlanks (p : Split) : Split := (p.1 + (p.2.takeWhile isBlank).length, p.2.dropWhile isBlank)

def signed (g : Grammar) (p : Split) : List Split :=
  (g.signs p.2).map fun q => withBlanks (p.1 + q.1, q.2)

/-- A comment sign may itself start with a blank, so it may stand behind only some of the blanks. -/
def markers (g : Grammar) (text : Text) : List Split :=
  match splitsOf isBlank text with
  | [] => []
  | bare :: fewer => g.signed bare ++ bare :: fewer.flatMap g.signed

end Grammar

end Literate
