import Literate.Grammar.Basic
import Literate.Settings.Value

namespace Literate

open Unicode

theorem exists_of_map_eq_ok {ε α β : Type} {f : α → β} {x : Except ε α} {b : β} (h : x.map f = .ok b) :
    ∃ a, x = .ok a ∧ f a = b := by
  cases x with
  | error e => simp [Except.map] at h
  | ok a => exact ⟨a, rfl, Except.ok.inj h⟩

inductive Setting
  | hideTitleMarkup
  | hideQuotes
  | revealAtPoint
  | titleStyles
deriving DecidableEq, Repr

def Setting.name : Setting → String
  | hideTitleMarkup => "hide_title_markup"
  | hideQuotes => "hide_quotes"
  | revealAtPoint => "reveal_at_point"
  | titleStyles => "title_styles"

def Setting.all : List Setting := [hideTitleMarkup, hideQuotes, revealAtPoint, titleStyles]

inductive SettingsError
  | unknown (key : Value)
  | notToggle (key : Value)
  | notBoolean (setting : Setting) (value : Value)
  | notCharacters (value : Value)
  | styles (error : StyleError)

def SettingsError.message : SettingsError → String
  | unknown key => s!"Unknown literate setting: {key.shown}"
  | notToggle key => s!"Setting {key.shown} is not a boolean toggle."
  | notBoolean setting value => s!"{setting.name} expects a boolean, got {value.shown}."
  | notCharacters value => s!"title_styles must be a list of characters, got {value.kind}."
  | styles error => error.message

def Setting.scope : Text := "literate.".toList

def Setting.ofName? (name : Text) : Option Setting := all.find? fun s => s.name.toList = name

def Setting.ofKey (key : Value) : Except SettingsError Setting :=
  let text := Text.trim isSpace key.plainIfCounts
  let name := (scope.isPrefixOf? text).getD text
  match ofName? name with
  | some s => .ok s
  | none => .error (.unknown key)

def trueWords : List Text := ["1", "true", "yes", "on", "y"].map String.toList

def falseWords : List Text := ["0", "false", "no", "off", "n", ""].map String.toList

def readFlag (setting : Setting) (value : Value) : Except SettingsError Bool :=
  let byWord (text : Text) : Except SettingsError Bool :=
    let word := Text.lowerAscii (Text.trim isSpace text)
    if trueWords.contains word then .ok true
    else if falseWords.contains word then .ok false
    else .error (.notBoolean setting value)
  match value with
  | .bool b => .ok b
  | .int n => .ok (n ≠ 0)
  | .decimal x => .ok (x != 0)
  | .null => byWord []
  | _ => byWord value.plain

def readStyles (value : Value) : Except SettingsError (List Char) :=
  let make (styles : List Text) : Except SettingsError (List Char) :=
    match Grammar.make styles with
    | .ok g => .ok g.styles
    | .error e => .error (.styles e)
  match value with
  | .text t => make (t.map fun c => [c])
  | .list values => make (values.map Value.plain)
  | _ => .error (.notCharacters value)

structure Settings where
  hideTitleMarkup : Bool := false
  hideQuotes : Bool := true
  revealAtPoint : Bool := false
  titleStyles : List Char := ['=', '-', '~']
deriving DecidableEq, Repr

namespace Settings

def grammar (s : Settings) : Grammar := .ofStyles s.titleStyles

def flag (s : Settings) : Setting → Option Bool
  | .hideTitleMarkup => some s.hideTitleMarkup
  | .hideQuotes => some s.hideQuotes
  | .revealAtPoint => some s.revealAtPoint
  | .titleStyles => none

def read (s : Settings) : Setting → Value
  | .hideTitleMarkup => .bool s.hideTitleMarkup
  | .hideQuotes => .bool s.hideQuotes
  | .revealAtPoint => .bool s.revealAtPoint
  | .titleStyles => .list (s.titleStyles.map fun c => .text [c])

def write (s : Settings) (setting : Setting) (value : Value) : Except SettingsError Settings :=
  match setting with
  | .hideTitleMarkup => (readFlag setting value).map fun b => { s with hideTitleMarkup := b }
  | .hideQuotes => (readFlag setting value).map fun b => { s with hideQuotes := b }
  | .revealAtPoint => (readFlag setting value).map fun b => { s with revealAtPoint := b }
  | .titleStyles => (readStyles value).map fun styles => { s with titleStyles := styles }

/-- Of two spellings of one setting the last one wins. -/
def withValues (s : Settings) : List (Value × Value) → Except SettingsError Settings
  | [] => .ok s
  | (key, value) :: rest =>
    match Setting.ofKey key with
    | .error e => .error e
    | .ok setting =>
      match s.write setting value with
      | .error e => .error e
      | .ok next => next.withValues rest

theorem withValues_append (s : Settings) (front rest : List (Value × Value)) :
    s.withValues (front ++ rest) = (s.withValues front).bind fun t => t.withValues rest := by
  induction front generalizing s with
  | nil => rfl
  | cons p front ih =>
    rw [List.cons_append, withValues, withValues]
    cases Setting.ofKey p.1 with
    | error e => rfl
    | ok setting =>
      cases hw : s.write setting p.2 with
      | error e => simp only [hw]; rfl
      | ok next =>
        simp only [hw]
        exact ih next

end Settings

def sameKey : Value → Value → Bool
  | .text a, .text b => a = b
  | _, _ => false

def insertPair (key value : Value) : List (Value × Value) → List (Value × Value)
  | [] => [(key, value)]
  | (k, v) :: rest => if sameKey k key then (k, value) :: rest else (k, v) :: insertPair key value rest

def mapping (pairs : List (Value × Value)) : List (Value × Value) :=
  pairs.foldl (fun m p => insertPair p.1 p.2 m) []

end Literate
