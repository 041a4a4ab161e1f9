import Literate.Unicode.Alphanumeric
import Literate.Unicode.Blank
import Literate.Text.Quoted

namespace Literate

open Unicode

inductive StyleError
  | noStyle
  | invalid (style : Text)
  | collision (style : Text)
  | duplicate (styles : List Text)
deriving DecidableEq, Repr

def StyleError.message : StyleError → String
  | noStyle => "At least one title style character is required."
  | invalid style => s!"Invalid title style character: {style.quoted}"
  | collision style => s!"Title style character {style.quoted} collides with other markup."
  | duplicate styles => s!"Duplicate title style characters: {Text.quotedAll styles}"

structure Grammar where
  styles : List Char := ['=', '-', '~']
  comment : Text := ['#']
  loud : Text := ['!']
deriving DecidableEq, Repr

namespace Grammar

def reserved : List Text := [['\x60'], ['>'], ['.']]

def styleChar (comment style : Text) : Except StyleError Char :=
  match style with
  | [c] =>
    if isSpace c || isAlphanumeric c then .error (.invalid style)
    else if style = comment ∨ reserved.contains style then .error (.collision style)
    else .ok c
  | _ => .error (.invalid style)

def styleChars (comment : Text) : List Text → Except StyleError (List Char)
  | [] => .ok []
  | style :: styles =>
    match styleChar comment style with
    | .error e => .error e
    | .ok c => (styleChars comment styles).map (c :: ·)

def make (styles : List Text) (comment : Text := ['#']) (loud : Text := ['!']) :
    Except StyleError Grammar :=
  if styles = [] then .error .noStyle
  else
    match styleChars comment styles with
    | .error e => .error e
    | .ok chars => if chars.Nodup then .ok ⟨chars, comment, loud⟩ else .error (.duplicate styles)

def ofStyles (styles : List Char) : Grammar := { styles }

def Accepted (styles : List Char) : Prop := (make (styles.map fun c => [c])).isOk = true

instance (styles : List Char) : Decidable (Accepted styles) :=
  inferInstanceAs (Decidable (_ = _))

def styleIndex (g : Grammar) (c : Char) : Option Nat := g.styles.idxOf? c

def level (g : Grammar) (c : Char) : Option Nat := (g.styleIndex c).map (· + 1)

def firstStyle (g : Grammar) : Char := g.styles.headD '='

end Grammar

end Literate
