import Literate.Grammar.Marker
import Literate.Text.Width
import Literate.Text.Search

/-!
A title block is a title line with an underline below it. Both lines may start with a comment mark. A title
is never itself a run of one style character; behind a loud mark, though, a run can be read as either.
-/

namespace Literate

open Unicode

structure TitleLine where
  marker : Text
  title : Text
  pad : Text
deriving DecidableEq, Repr

def TitleLine.body (t : TitleLine) : Text := t.marker ++ t.title ++ t.pad

structure Underline where
  marker : Text
  char : Char
  length : Nat
  pad : Text
deriving DecidableEq, Repr

def Underline.run (u : Underline) : Text := List.replicate u.length u.char

def Underline.body (u : Underline) : Text := u.marker ++ u.run ++ u.pad

namespace Grammar

def run? (g : Grammar) : Text → Option (Char × Nat × Text)
  | [] => none
  | c :: rest =>
    if c ∈ g.styles then
      let pad := Text.firstLine (rest.dropWhile (· = c))
      if pad.all isBlank then some (c, (rest.takeWhile (· = c)).length + 1, pad) else none
    else none

def titleText? (g : Grammar) : Text → Option (Text × Text)
  | [] => none
  | c :: rest =>
    if c ∈ g.comment ∨ isSpace c then none
    else
      let back := (c :: Text.firstLine rest).reverse
      let title := (back.dropWhile isBlank).reverse
      if isSpace (title.getLastD c) then none else some (title, (back.takeWhile isBlank).reverse)

def titleLines (g : Grammar) (text : Text) : List (TitleLine × Option Text) :=
  (g.markers text).filterMap fun p =>
    if (g.run? p.2).isSome then none
    else (g.titleText? p.2).map fun t => (⟨text.take p.1, t.1, t.2⟩, Text.afterLine? p.2)

def titleLine? (g : Grammar) (text : Text) : Option TitleLine := (g.titleLines text).head?.map Prod.fst

def underline? (g : Grammar) (text : Text) : Option (Underline × Option Text) :=
  (g.markers text).findSome? fun p =>
    (g.run? p.2).map fun r => (⟨text.take p.1, r.1, r.2.1, r.2.2⟩, Text.afterLine? p.2)

end Grammar

/-- `closed` tells whether a newline ends the underline; it belongs to the block. -/
structure TitleBlock where
  start : Nat
  heading : TitleLine
  underline : Underline
  closed : Bool
deriving DecidableEq, Repr

namespace TitleBlock

def titleStart (b : TitleBlock) : Nat := b.start + b.heading.marker.length

def titleStop (b : TitleBlock) : Nat := b.titleStart + b.heading.title.length

def headingStop (b : TitleBlock) : Nat := b.titleStop + b.heading.pad.length

def underlineStart (b : TitleBlock) : Nat := b.headingStop + 1

def runStart (b : TitleBlock) : Nat := b.underlineStart + b.underline.marker.length

def runStop (b : TitleBlock) : Nat := b.runStart + b.underline.length

def underlineStop (b : TitleBlock) : Nat := b.runStop + b.underline.pad.length

def stop (b : TitleBlock) : Nat := b.underlineStop + if b.closed then 1 else 0

def span (b : TitleBlock) : Span := ⟨b.start, b.stop⟩

def titleWidth (b : TitleBlock) : Nat := b.heading.title.width

def synchronized (b : TitleBlock) : Bool := b.underline.length = b.titleWidth

end TitleBlock

namespace Grammar

def blockFrom? (g : Grammar) (start : Nat) (text : Text) : Option TitleBlock :=
  (g.titleLines text).findSome? fun p =>
    (p.2.bind g.underline?).map fun q => ⟨start, p.1, q.1, q.2.isSome⟩

def titleBlocks (g : Grammar) (text : Text) (start stop : Nat) : List TitleBlock :=
  text.searchLines g.blockFrom? TitleBlock.stop start stop

def blockStarting? (g : Grammar) (text : Text) (start : Nat) : Option TitleBlock :=
  g.blockFrom? start (text.drop start)

def titleBlock? (g : Grammar) (text : Text) (pos : Int) : Option TitleBlock :=
  g.blockStarting? text (text.lineStart pos)

def titleBlockAbove (g : Grammar) (text : Text) (pos : Int) : Option TitleBlock :=
  (text.previousLineStart pos).bind (g.blockStarting? text)

def titleBlockAt (g : Grammar) (text : Text) (pos : Int) : Option TitleBlock :=
  (g.titleBlock? text pos).or (g.titleBlockAbove text pos)

def titleLineAt (g : Grammar) (text : Text) (pos : Int) : Option (Line × TitleLine) :=
  let line := text.lineAt pos
  (g.titleLine? line.body).map fun t => (line, t)

section Styles

variable {g : Grammar} {text : Text} {b : TitleBlock}

theorem mem_styles_of_run? {r : Char × Nat × Text} (h : g.run? text = some r) : r.1 ∈ g.styles := by
  cases text with
  | nil => cases h
  | cons c rest =>
    rw [run?] at h
    split at h
    · rename_i hc
      dsimp only at h
      split at h
      · cases h
        exact hc
      · cases h
    · cases h

theorem mem_styles_of_blockFrom? {start : Nat} (h : g.blockFrom? start text = some b) :
    b.underline.char ∈ g.styles := by
  obtain ⟨title, -, htitle⟩ := List.exists_of_findSome?_eq_some h
  obtain ⟨under, hunder, rfl⟩ := Option.map_eq_some_iff.mp htitle
  obtain ⟨below, -, hbelow⟩ := Option.bind_eq_some_iff.mp hunder
  obtain ⟨marker, -, hmarker⟩ := List.exists_of_findSome?_eq_some hbelow
  obtain ⟨run, hrun, rfl⟩ := Option.map_eq_some_iff.mp hmarker
  exact mem_styles_of_run? hrun

theorem mem_styles_of_titleBlockAt {pos : Int} (h : g.titleBlockAt text pos = some b) :
    b.underline.char ∈ g.styles := by
  rcases Option.or_eq_some_iff.mp h with h | ⟨-, h⟩
  · exact mem_styles_of_blockFrom? h
  · obtain ⟨start, -, h⟩ := Option.bind_eq_some_iff.mp h
    exact mem_styles_of_blockFrom? h

end Styles

end Grammar

end Literate
