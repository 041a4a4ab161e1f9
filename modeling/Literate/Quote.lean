import Literate.Unicode.Blank
import Literate.Text.Line
import Literate.Text.Search

namespace Literate

open Unicode

structure QuotedSpan where
  start : Nat
  width : Nat
  content : Text
deriving DecidableEq, Repr

namespace QuotedSpan

def contentStart (q : QuotedSpan) : Nat := q.start + q.width

def contentStop (q : QuotedSpan) : Nat := q.contentStart + q.content.length

def stop (q : QuotedSpan) : Nat := q.contentStop + q.width

def span (q : QuotedSpan) : Span := ⟨q.start, q.stop⟩

def overlaps (q r : QuotedSpan) : Bool := q.start < r.stop && r.start < q.stop

end QuotedSpan

def backticks (width : Nat) : Text := List.replicate width '\x60'

def padded (content : Text) : Bool :=
  content.head?.any isSpace || content.getLast?.any isSpace

def quoteContent? (width : Nat) (before : Option Char) (text : Text) : Option Text :=
  if before = some '\x60' then none
  else
    match (backticks width).isPrefixOf? text with
    | none => none
    | some rest =>
      let content := rest.takeWhile (· ≠ '\x60')
      match (backticks width).isPrefixOf? (rest.dropWhile (· ≠ '\x60')) with
      | none => none
      | some after =>
        if content = [] ∨ after.head? = some '\x60' ∨ (width = 1 ∧ padded content) then none
        else some content

def quote (width : Nat) : Pattern Text := fun before text =>
  (quoteContent? width before text).map fun content => (content.length + 2 * width, content)

namespace Line

def quotesOf (width : Nat) (line : Line) (start : Nat) : List QuotedSpan :=
  ((quote width).searchAfter line.body (start - line.start)).map fun m =>
    ⟨line.start + m.start, width, m.value⟩

end Line

def insertQuote (q : QuotedSpan) : List QuotedSpan → List QuotedSpan
  | [] => [q]
  | r :: rest => if q.start < r.start then q :: r :: rest else r :: insertQuote q rest

def mergeQuotes (doubles singles : List QuotedSpan) : List QuotedSpan :=
  (singles.filter fun s => !doubles.any s.overlaps).foldr insertQuote doubles

def Line.quotes (line : Line) (start : Nat) : List QuotedSpan :=
  mergeQuotes (line.quotesOf 2 start) (line.quotesOf 1 start)

def Text.quotes (text : Text) (start stop : Nat) : List QuotedSpan :=
  (Text.lines (text.take stop)).flatMap fun line => line.quotes start

end Literate
