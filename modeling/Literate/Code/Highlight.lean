import Literate.Code.Lexeme
import Literate.Render.Format

/-!
Colouring Python code line by line. The state that a line leaves to the next one tells which tripled quotes are
still open. Later runs win: words and numbers, strings, strings with tripled quotes, and last the comment.
-/

namespace Literate.Code

abbrev State := Option Triple

def State.number : State → Nat
  | none => 0
  | some .single => 1
  | some .double => 2

def State.ofNumber (n : Int) : State :=
  if n = 1 then some .single else if n = 2 then some .double else none

def keywords : List Text :=
  ["False", "None", "True", "and", "as", "assert", "async", "await", "break", "class", "continue", "def",
    "del", "elif", "else", "except", "finally", "for", "from", "global", "if", "import", "in", "is",
    "lambda", "match", "case", "nonlocal", "not", "or", "pass", "raise", "return", "try", "while", "with",
    "yield"].map String.toList

def receivers : List Text := ["self", "cls"].map String.toList

def builtins : List Text :=
  ["abs", "all", "any", "bool", "bytes", "callable", "dict", "dir", "enumerate", "filter", "float",
    "format", "getattr", "hasattr", "int", "isinstance", "iter", "len", "list", "map", "max", "min",
    "next", "object", "open", "print", "range", "repr", "reversed", "set", "setattr", "sorted", "str",
    "sum", "super", "tuple", "type", "zip"].map String.toList

def exceptions : List Text :=
  ["BaseException", "Exception", "AssertionError", "AttributeError", "ImportError", "IndexError",
    "KeyError", "LookupError", "NameError", "NotImplementedError", "OSError", "RuntimeError",
    "StopIteration", "SyntaxError", "TypeError", "ValueError", "ZeroDivisionError"].map String.toList

def tags : List Text := ["TODO", "FIXME", "NOTE", "HACK", "BUG", "XXX"].map String.toList

def strong (color : Color) : Format := { foreground := some color, bold := true }

def tinted (color : Color) : Format := { foreground := some color }

def stringFormat : Format := tinted .clay

def commentFormat : Format := { foreground := some .moss, italic := true }

def rules : List (Pattern Unit × Format) :=
  [(wordIn keywords, strong .azure), (wordIn receivers, strong .sky), (wordIn builtins, tinted .teal),
    (wordIn exceptions, tinted .sand), (number, tinted .sage), (decorator, tinted .orchid)]

def runOf {α : Type} (format : Format) (m : Match α) : Run := ⟨m.start, m.length, format⟩

def basicRuns (code : Text) : List Run :=
  rules.flatMap (fun rule => (rule.1.search code).map (runOf rule.2)) ++
    (definition.search code).map fun m => ⟨m.start + m.value.1, m.value.2, strong .sand⟩

def commentStart? {α β : Type} (strings : List (Match α)) (triples : List (Match β)) (pos : Nat) :
    Text → Option Nat
  | [] => none
  | c :: rest =>
    let covered := strings.any (fun m => m.start ≤ pos && pos < m.stop) ||
      triples.any (fun m => m.start ≤ pos && pos < m.stop)
    if c = '#' ∧ !covered then some pos else commentStart? strings triples (pos + 1) rest

def commentRuns (code : Text) (start : Nat) : List Run :=
  ⟨start, code.length - start, commentFormat⟩ ::
    ((wordIn tags).searchAfter code start).map (runOf (strong .amber))

def openTriple? (triples : List (Match (Option Triple))) : Option (Match (Option Triple)) :=
  triples.find? fun m => m.value.isSome

def commentScope (code : Text) : Text :=
  match openTriple? (tripleString.search code) with
  | some m => code.take m.start
  | none => code

def commentOf? (code : Text) : Option Nat :=
  commentStart? (string.search code) ((tripleString.search code).filter fun m => m.value.isNone) 0
    (commentScope code)

def codeRuns (code : Text) : List Run :=
  basicRuns code ++ (string.search code).map (runOf stringFormat) ++
    (tripleString.search code).map (runOf stringFormat) ++
    match commentOf? code with
    | some start => commentRuns (commentScope code) start
    | none => []

def codeState (code : Text) : State := (openTriple? (tripleString.search code)).bind Match.value

def lineRuns (state : State) (line : Text) : List Run :=
  match state with
  | none => codeRuns line
  | some kind =>
    match kind.closedLength? line with
    | none => [⟨0, line.length, stringFormat⟩]
    | some n => ⟨0, n, stringFormat⟩ :: (codeRuns (line.drop n)).map (Run.shift n)

def lineState (state : State) (line : Text) : State :=
  match state with
  | none => codeState line
  | some kind =>
    match kind.closedLength? line with
    | none => state
    | some n => codeState (line.drop n)

def statesAfter (state : State) : List Text → List State
  | [] => []
  | line :: lines => lineState state line :: statesAfter (lineState state line) lines

def paintLines (state : State) : List Text → List (State × List Format)
  | [] => []
  | line :: lines =>
    let next := lineState state line
    (next, Run.paintAll line.length (lineRuns state line)) :: paintLines next lines

def languages : List Text := ["python", "python3", "py", "pycon"].map String.toList

def highlight (state : State) (text language : Text) : List Run :=
  if languages.contains (Text.lowerAscii (Text.trim Unicode.isSpace language)) then lineRuns state text else []

end Literate.Code
