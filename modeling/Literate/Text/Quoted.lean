import Literate.Unicode.Invisible
import Literate.Unicode.Unassigned
import Literate.Text.Basic

namespace Literate.Text

open Unicode

def hex (width n : Nat) : String :=
  let digits := Nat.toDigits 16 n
  String.ofList (List.replicate (width - digits.length) '0' ++ digits)

def escapedCode (c : Char) : String :=
  let n := c.toNat
  if n ≤ 0xff then "\\x" ++ hex 2 n else if n ≤ 0xffff then "\\u" ++ hex 4 n else "\\U" ++ hex 8 n

def escaped (quote c : Char) : String :=
  if c = quote || c = '\\' then String.ofList ['\\', c]
  else if c = '\n' then "\\n"
  else if c = '\r' then "\\r"
  else if c = '\t' then "\\t"
  else if isInvisible c || isUnassigned c then escapedCode c
  else c.toString

def quoteFor (text : Text) : Char :=
  if '\'' ∈ text ∧ '"' ∉ text then '"' else '\''

def quoted (text : Text) : String :=
  let quote := quoteFor text
  quote.toString ++ String.join (text.map (escaped quote)) ++ quote.toString

def quotedAll (texts : List Text) : String :=
  "(" ++ ", ".intercalate (texts.map quoted) ++ ")"

end Literate.Text
