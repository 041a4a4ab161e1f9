import Literate.Text.Search
import Literate.Unicode.Alphanumeric
import Literate.Unicode.Blank
import Literate.Unicode.DecimalDigit

namespace Literate.Code

open Unicode

def isWordChar (c : Char) : Bool := isAlphanumeric c || c = '_'

def startsName (c : Char) : Bool :=
  ('a' ≤ c && c ≤ 'z') || ('A' ≤ c && c ≤ 'Z') || c = '_'

def afterWord (before : Option Char) : Bool := before.any isWordChar

def wordIn (words : List Text) : Pattern Unit := fun before text =>
  let word := text.takeWhile isWordChar
  if !afterWord before && words.contains word then some (word.length, ()) else none

def afterDigits (text : Text) : List Text :=
  if text.head?.any isDecimalDigit then [text.dropWhile isDecimalDigit] else []

def afterFraction (text : Text) : List Text :=
  match text with
  | '.' :: rest => [rest.dropWhile isDecimalDigit, rest, text]
  | _ => [text]

def dropSign : Text → Text
  | '+' :: rest => rest
  | '-' :: rest => rest
  | text => text

def afterExponent (text : Text) : List Text :=
  match text with
  | [] => [text]
  | c :: rest => if c = 'e' ∨ c = 'E' then afterDigits (dropSign rest) ++ [text] else [text]

def afterImaginary (text : Text) : List Text :=
  match text with
  | [] => [text]
  | c :: rest => if c = 'j' ∨ c = 'J' then [rest, text] else [text]

def atBoundary (text rest : Text) : Bool :=
  (text.take (text.length - rest.length)).getLast?.any isWordChar != rest.head?.any isWordChar

def decimal? (text : Text) : Option Text :=
  (((afterDigits text).flatMap afterFraction).flatMap afterExponent).flatMap afterImaginary
    |>.find? (atBoundary text)

def isRadixMark (c : Char) : Bool := c ∈ ['x', 'X', 'o', 'O', 'b', 'B']

def isRadixDigit (c : Char) : Bool :=
  ('0' ≤ c && c ≤ '9') || ('a' ≤ c && c ≤ 'f') || ('A' ≤ c && c ≤ 'F') || c = '_'

def radix? : Text → Option Text
  | '0' :: mark :: rest =>
    let after := rest.dropWhile isRadixDigit
    if isRadixMark mark ∧ rest.takeWhile isRadixDigit ≠ [] ∧ !after.head?.any isWordChar then some after
    else none
  | _ => none

def number : Pattern Unit := fun before text =>
  if afterWord before then none
  else ((decimal? text).or (radix? text)).map fun rest => (text.length - rest.length, ())

def dottedLength : Text → Nat
  | [] => 0
  | c :: rest =>
    if isWordChar c || (c = '.' && rest.head?.any startsName) then dottedLength rest + 1 else 0

def decorator : Pattern Unit := fun before text =>
  match text with
  | '@' :: rest =>
    if !afterWord before && rest.head?.any startsName then some (dottedLength rest + 1, ()) else none
  | _ => none

def definitionWord? (text : Text) : Option (Text × Text) :=
  ["def".toList, "class".toList].findSome? fun word => (word.isPrefixOf? text).map fun rest => (word, rest)

def definition : Pattern (Nat × Nat) := fun before text =>
  if afterWord before then none
  else
    (definitionWord? text).bind fun (word, rest) =>
      let spaces := rest.takeWhile isSpace
      let name := (rest.dropWhile isSpace).takeWhile isWordChar
      if spaces ≠ [] ∧ name.head?.any startsName then
        let first := word.length + spaces.length
        some (first + name.length, (first, name.length))
      else none

def isStringMark (c : Char) : Bool := c ∈ ['r', 'R', 'b', 'B', 'u', 'U', 'f', 'F']

def stringMarks? (text : Text) : Option (Nat × Text) :=
  let marks := text.takeWhile isStringMark
  if marks.length ≤ 2 then some (marks.length, text.drop marks.length) else none

def closedLength (quote : Char) : Text → Option Nat
  | [] => none
  | [c] => if c = quote then some 1 else none
  | c :: d :: rest =>
    if c = quote then some 1
    else if c = '\n' then none
    else if c = '\\' then if d = '\n' then none else (closedLength quote rest).map (· + 2)
    else (closedLength quote (d :: rest)).map (· + 1)

def string : Pattern Unit := fun _ text =>
  (stringMarks? text).bind fun (marks, rest) =>
    match rest with
    | quote :: body =>
      if quote = '\'' ∨ quote = '"' then (closedLength quote body).map fun n => (marks + n + 1, ())
      else none
    | [] => none

inductive Triple
  | single
  | double
deriving DecidableEq, Repr

def Triple.quotes : Triple → Text
  | single => ['\'', '\'', '\'']
  | double => ['"', '"', '"']

def Triple.at? (text : Text) : Option (Triple × Text) :=
  [single, double].findSome? fun t => (t.quotes.isPrefixOf? text).map fun rest => (t, rest)

def indexOf? (needle : Text) : Text → Option Nat
  | [] => if needle = [] then some 0 else none
  | c :: rest =>
    if needle.isPrefixOf (c :: rest) then some 0 else (indexOf? needle rest).map (· + 1)

def Triple.closedLength? (t : Triple) (text : Text) : Option Nat :=
  (indexOf? t.quotes text).map (· + 3)

def tripleString : Pattern (Option Triple) := fun _ text =>
  (stringMarks? text).bind fun (marks, rest) =>
    (Triple.at? rest).map fun (kind, body) =>
      match kind.closedLength? body with
      | some n => (marks + 3 + n, none)
      | none => (text.length, some kind)

end Literate.Code
