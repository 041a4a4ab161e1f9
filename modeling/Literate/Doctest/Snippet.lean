import Literate.Doctest.Line

namespace Literate

structure Snippet where
  first : DoctestLine
  others : List DoctestLine
deriving DecidableEq, Repr

namespace Snippet

def lines (s : Snippet) : List DoctestLine := s.first :: s.others

def last (s : Snippet) : DoctestLine := s.others.getLastD s.first

def command (s : Snippet) : Text := Text.joinLines (s.lines.map DoctestLine.payload)

def start (s : Snippet) : Nat := s.first.start

def stop (s : Snippet) : Nat := s.last.stop

def lastLineStart (s : Snippet) : Nat := s.last.start

end Snippet

structure SnippetRun where
  first : Snippet
  others : List Snippet
deriving DecidableEq, Repr

namespace SnippetRun

def snippets (r : SnippetRun) : List Snippet := r.first :: r.others

def commands (r : SnippetRun) : List Text := r.snippets.map Snippet.command

def lastLineStart (r : SnippetRun) : Nat := (r.others.getLastD r.first).lastLineStart

def group (first : DoctestLine) : List DoctestLine → SnippetRun
  | [] => ⟨⟨first, []⟩, []⟩
  | next :: rest =>
    let run := group next rest
    if next.isContinuation then ⟨⟨first, run.first.lines⟩, run.others⟩
    else ⟨⟨first, []⟩, run.snippets⟩

end SnippetRun

structure NoSnippet where
  position : Int
deriving DecidableEq, Repr

def NoSnippet.message (e : NoSnippet) : String := s!"No doctest snippet at position {e.position}."

namespace Grammar

def doctestRun (g : Grammar) : List Line → List DoctestLine
  | [] => []
  | line :: below =>
    match g.doctest? line with
    | none => []
    | some d => d :: g.doctestRun below

/-- Goes up from a doctest line as long as `more` asks for it and the line above is one too. -/
def climb (g : Grammar) (more : DoctestLine → Bool) :
    List Line → Line → DoctestLine → List Line → DoctestLine × List Line
  | [], _, d, below => (d, below)
  | next :: above, line, d, below =>
    if more d then
      match g.doctest? next with
      | none => (d, below)
      | some e => g.climb more above next e (line :: below)
    else (d, below)

def snippetFrom (g : Grammar) (first : DoctestLine) (below : List Line) : Snippet :=
  ⟨first, (g.doctestRun below).takeWhile DoctestLine.isContinuation⟩

def readSnippet (g : Grammar) (text : Text) (pos : Int) : Except NoSnippet Snippet :=
  let f := text.focus pos
  match g.doctest? f.line with
  | none => .error ⟨pos⟩
  | some d =>
    let top := g.climb DoctestLine.isContinuation f.above f.line d f.below
    .ok (g.snippetFrom top.1 top.2)

def readRun (g : Grammar) (text : Text) (pos : Int) : Except NoSnippet SnippetRun :=
  let f := text.focus pos
  match g.doctest? f.line with
  | none => .error ⟨pos⟩
  | some d =>
    let top := g.climb (fun _ => true) f.above f.line d f.below
    .ok (.group top.1 (g.doctestRun top.2))

end Grammar

end Literate
