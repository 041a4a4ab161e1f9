import Literate.Comment
import Literate.Directive.Basic
import Literate.Doctest.Line
import Literate.Quote
import Literate.Settings.Basic
import Literate.Title.Basic

/-!
The directives of a text, family by family: doc comments, titles, doctests, quotes. What hides markup is told
by `Visibility`; the families and their order do not depend on it.
-/

namespace Literate

open Unicode

abbrev Highlighter (π : Type) := Text → Text → List (Int × Int × π)

structure Annotator (π : Type) where
  highlight : Option (Highlighter π)
  language : Text

structure Visibility where
  hideTitles : Bool
  hideQuotes : Bool
  revealed : Option Span
deriving DecidableEq, Repr

namespace Visibility

def ofSettings (s : Settings) (revealed : Option Span) : Visibility :=
  ⟨s.hideTitleMarkup, s.hideQuotes, revealed⟩

def covers (v : Visibility) (s : Span) : Bool := v.revealed.any s.within

def hidesTitle (v : Visibility) (s : Span) : Bool := v.hideTitles && !v.covers s

def hidesQuote (v : Visibility) (s : Span) : Bool := v.hideQuotes && !v.covers s

end Visibility

def markerSpan? (start : Nat) (marker : Text) : Option (Nat × Nat) :=
  let blanks := (marker.takeWhile isBlank).length
  if blanks < marker.length then some (start + blanks, start + marker.length) else none

namespace Annotator

variable {π : Type}

def embed (a : Annotator π) (start : Nat) (code : Text) : List (Directive π) :=
  match a.highlight with
  | none => []
  | some highlight =>
    if code = [] then []
    else
      (highlight code a.language).filterMap fun (first, length, payload) =>
        let first := start + first.toNat
        let last := min (start + code.length) (first + length.toNat)
        if first < last then some (.plain first last (.embedded payload)) else none

def ofComment (v : Visibility) (d : DocComment) : List (Directive π) :=
  .plain d.start d.stop .prose ::
    (markerSpan? d.start d.marker).toList.map fun (first, last) =>
      ⟨first, last, .markup, v.hidesTitle ⟨first, last⟩, false⟩

def ofBlock (g : Grammar) (v : Visibility) (b : TitleBlock) : List (Directive π) :=
  let hidden := v.hidesTitle b.span
  let markers := (markerSpan? b.start b.heading.marker).toList ++
    (markerSpan? b.underlineStart b.underline.marker).toList
  markers.map (fun (first, last) => ⟨first, last, .markup, hidden, false⟩) ++
    [⟨b.titleStart, b.titleStop, .ofIndex ((g.styleIndex b.underline.char).map Int.ofNat), false, hidden⟩,
      ⟨b.runStart, b.runStop, .markup, hidden, false⟩]

def ofDoctest (a : Annotator π) (d : DoctestLine) : List (Directive π) :=
  .plain d.promptStart d.promptStop .prompt ::
    if d.payload = [] then []
    else .plain d.payloadStart d.stop .code :: a.embed d.payloadStart d.payload

def ofQuote (a : Annotator π) (v : Visibility) (q : QuotedSpan) : List (Directive π) :=
  let hidden := v.hidesQuote q.span
  let content : List (Directive π) :=
    if q.width = 2 then
      .plain q.contentStart q.contentStop .quoteDouble :: a.embed q.contentStart q.content
    else [.plain q.contentStart q.contentStop .quoteSingle]
  ⟨q.start, q.contentStart, .quoteDelimiter, hidden, false⟩ :: content ++
    [⟨q.contentStop, q.stop, .quoteDelimiter, hidden, false⟩]

def quotesOutside (doctests : List DoctestLine) (quotes : List QuotedSpan) : List QuotedSpan :=
  quotes.filter fun q => !doctests.any fun d => d.start ≤ q.start && q.start < d.stop

def directives (a : Annotator π) (g : Grammar) (v : Visibility) (text : Text) (start stop : Nat) :
    List (Directive π) :=
  let doctests := g.doctestLines text start stop
  (g.docComments text start stop).flatMap (ofComment v) ++
    (g.titleBlocks text start stop).flatMap (ofBlock g v) ++
    doctests.flatMap a.ofDoctest ++
    (quotesOutside doctests (text.quotes start stop)).flatMap (a.ofQuote v)

def annotate (a : Annotator π) (s : Settings) (revealed : Option Span) (text : Text) (start : Int)
    (stop : Option Int) : List (Directive π) :=
  a.directives s.grammar (.ofSettings s revealed) text (text.clamp start)
    ((stop.map text.clamp).getD text.length)

/-- The directives of a part of a document that starts at `offset`. The window is one of the document, all other
positions count in the part. -/
def annotatePart (a : Annotator π) (s : Settings) (revealed : Option Span) (offset : Int) (part : Text)
    (start : Int) (stop : Option Int) : List (Directive π) :=
  a.annotate s (revealed.map (Span.shift · (-offset))) part start stop

end Annotator

end Literate
