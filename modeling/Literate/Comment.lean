import Literate.Grammar.Marker
import Literate.Text.Search

namespace Literate

open Unicode

structure DocComment where
  start : Nat
  marker : Text
  body : Text
deriving DecidableEq, Repr

namespace DocComment

def markerStop (d : DocComment) : Nat := d.start + d.marker.length

def stop (d : DocComment) : Nat := d.markerStop + d.body.length

end DocComment

namespace Grammar

def doubled? (g : Grammar) (text : Text) : Option Split :=
  let sign := g.commentStem ++ [g.commentTail, g.commentTail]
  match sign.isPrefixOf? text with
  | none => none
  | some rest => if g.loud ≠ [] ∧ g.comment.isPrefixOf rest then none else some (sign.length, rest)

def loudsOrNone (g : Grammar) (text : Text) : List Split :=
  if g.loud = [] then [(0, text)] else g.louds text

def docMarker? (g : Grammar) (text : Text) : Option Split :=
  (splitsOf isBlank text).findSome? fun p =>
    (g.doubled? p.2).bind fun sign =>
      (g.loudsOrNone sign.2).findSome? fun loud =>
        if loud.2.head?.any isBlank then some (withBlanks (p.1 + sign.1 + loud.1, loud.2)) else none

def docComment? (g : Grammar) (start : Nat) (text : Text) : Option DocComment :=
  (g.docMarker? text).map fun p => ⟨start, text.take p.1, Text.firstLine p.2⟩

def docComments (g : Grammar) (text : Text) (start stop : Nat) : List DocComment :=
  text.searchLines g.docComment? DocComment.stop start stop

end Grammar

end Literate
