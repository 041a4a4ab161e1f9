import Literate.Code.Highlight
import Literate.Directive.Annotation

namespace Literate.Render

structure Context where
  text : Text
  start : Nat
  offset : Nat
deriving DecidableEq, Repr

def Context.ofLines (previous : Option Line) (line : Line) (next : Option Line) : Context :=
  let below : Text := next.elim [] fun n => '\n' :: n.body
  match previous with
  | none => ⟨line.body ++ below, line.start, 0⟩
  | some p => ⟨p.body ++ '\n' :: (line.body ++ below), p.start, p.body.length + 1⟩

variable {π : Type}

def clip (offset length : Nat) (d : Directive π) : Option (Directive π) :=
  let first := max d.start offset
  let last := min d.stop (offset + length)
  if first < last then some { d with start := first - offset, stop := last - offset } else none

def lineDirectives (a : Annotator π) (s : Settings) (revealed : Option Span) (previous : Option Line)
    (line : Line) (next : Option Line) : List (Directive π) :=
  let context := Context.ofLines previous line next
  (a.annotatePart s revealed context.start context.text 0 none).filterMap
    (clip context.offset line.body.length)

def styleFormat : Style Format → Format
  | .title1 => { foreground := some .sky, bold := true, size := some 15 }
  | .title2 => { foreground := some .cornflower, bold := true, size := some 13 }
  | .title3 => { foreground := some .orchid, bold := true }
  | .prose => { foreground := some .silver, family := some .proportional }
  | .markup => { foreground := some .gray }
  | .prompt => { foreground := some .cobalt, bold := true }
  | .code => { foreground := some .sand, background := some .slate, family := some .monospaced }
  | .quoteDelimiter => { foreground := some .gray }
  | .quoteSingle => { foreground := some .gold, italic := true }
  | .quoteDouble => { foreground := some .gold, background := some .charcoal, family := some .monospaced }
  | .embedded format => format

def hiddenFormat : Format := { foreground := some .transparent, size := some 1 }

def directiveFormat (d : Directive Format) (below : Format) : Format :=
  if d.hidden then hiddenFormat
  else
    match d.style with
    | .embedded format => below.merge format
    | style => if d.ruled then (styleFormat style).ruled else styleFormat style

def paintDirective (formats : List Format) (d : Directive Format) : List Format :=
  Run.paint formats ⟨d.start, d.stop - d.start, directiveFormat d (formats.getD d.start .empty)⟩

def embedded : Highlighter Format := fun code language =>
  (Code.highlight none code language).map fun r => ((r.start : Int), (r.count : Int), r.format)

def annotator (language : Text) : Annotator Format := ⟨some embedded, language⟩

def paintLines (directives : Option Line → Line → Option Line → List (Directive Format))
    (state : Code.State) (previous : Option Line) : List Line → List (Code.State × List Format)
  | [] => []
  | line :: below =>
    let code := Run.paintAll line.body.length (Code.lineRuns state line.body)
    let formats := (directives previous line below.head?).foldl paintDirective code
    let next := Code.lineState state line.body
    (next, formats) :: paintLines directives next (some line) below

end Literate.Render
