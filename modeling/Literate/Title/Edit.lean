import Literate.Title.Basic

namespace Literate

/-- Negative positions count from the end of the text. -/
structure TextEdit where
  start : Int
  stop : Int
  text : Text
deriving DecidableEq, Repr

namespace TextEdit

def apply (e : TextEdit) (source : Text) : Text :=
  source.take (source.offset e.start) ++ e.text ++ source.drop (source.offset e.stop)

def insert (e : TextEdit) : List TextEdit → List TextEdit
  | [] => [e]
  | f :: rest => if f.start ≤ e.start then e :: f :: rest else f :: insert e rest

def applyAll (edits : List TextEdit) (source : Text) : Text :=
  (edits.foldr insert []).foldl (fun text e => e.apply text) source

end TextEdit

namespace TitleBlock

def setUnderline (b : TitleBlock) (c : Char) : TextEdit :=
  ⟨b.runStart, b.runStop, List.replicate b.titleWidth c⟩

def dropUnderline (b : TitleBlock) (text : Text) : TextEdit := ⟨text.lineStop b.start, b.underlineStop, []⟩

end TitleBlock

structure NoStyle where
  index : Int
deriving DecidableEq, Repr

def NoStyle.message (e : NoStyle) : String :=
  if Int64.minValue.toInt ≤ e.index ∧ e.index ≤ Int64.maxValue.toInt then "tuple index out of range"
  else "cannot fit 'int' into an index-sized integer"

namespace Grammar

def writeTitle (marker title : Text) (style : Char) : Text :=
  marker ++ title ++ '\n' :: (marker ++ List.replicate title.width style)

def styleAt? (g : Grammar) (index : Int) : Option Char :=
  if 0 ≤ index then g.styles[index.toNat]?
  else if -(g.styles.length : Int) ≤ index then g.styles[(g.styles.length + index).toNat]?
  else none

def formatTitle (g : Grammar) (title : Text) (index : Int) (marker : Text) : Except NoStyle Text :=
  match g.styleAt? index with
  | some style => .ok (writeTitle marker title style)
  | none => .error ⟨index⟩

def scaffold (g : Grammar) : Text := writeTitle ['#', ' '] "Title".toList g.firstStyle

/-- A drifted underline is resized; else the next style is taken, and after the last one the underline goes. A
title without one gets the first style, and where there is no title a scaffold is put in. There is no answer if the
underline is of no style. -/
def cycleTitle? (g : Grammar) (text : Text) (pos : Int) : Option TextEdit :=
  match g.titleBlockAt text pos with
  | some block =>
    if !block.synchronized then some (block.setUnderline block.underline.char)
    else
      (g.styleIndex block.underline.char).map fun index =>
        match g.styles[index + 1]? with
        | some style => block.setUnderline style
        | none => block.dropUnderline text
  | none =>
    match g.titleLineAt text pos with
    | some (line, heading) =>
      some ⟨line.stop, line.stop,
        '\n' :: (heading.marker ++ List.replicate heading.title.width g.firstStyle)⟩
    | none => some ⟨pos, pos, g.scaffold⟩

theorem isSome_cycleTitle? (g : Grammar) (text : Text) (pos : Int) : (g.cycleTitle? text pos).isSome = true := by
  rw [cycleTitle?]
  split
  · rename_i block hblock
    split
    · rfl
    · rw [Option.isSome_map]
      exact List.isSome_idxOf?.mpr (mem_styles_of_titleBlockAt hblock)
  · split <;> rfl

def cycleTitle (g : Grammar) (text : Text) (pos : Int) : TextEdit :=
  (g.cycleTitle? text pos).get (g.isSome_cycleTitle? text pos)

def resizeUnderline (g : Grammar) (text : Text) (pos : Int) : Option TextEdit :=
  match g.titleBlockAt text pos with
  | some block =>
    if (g.level block.underline.char).isNone || block.synchronized then none
    else some (block.setUnderline block.underline.char)
  | none => none

section Answers

variable {g : Grammar} {text : Text} {pos : Int} {b : TitleBlock}

theorem cycleTitle_of_eq_some {e : TextEdit} (h : g.cycleTitle? text pos = some e) : g.cycleTitle text pos = e :=
  Option.get_of_eq_some _ h

theorem cycleTitle_of_block (hb : g.titleBlockAt text pos = some b) {i : Nat}
    (hi : g.styleIndex b.underline.char = some i) : g.cycleTitle text pos =
      if b.synchronized then
        match g.styles[i + 1]? with
        | some next => b.setUnderline next
        | none => b.dropUnderline text
      else b.setUnderline b.underline.char := by
  apply cycleTitle_of_eq_some
  rw [cycleTitle?, hb]
  dsimp only
  rw [hi]
  cases b.synchronized <;> rfl

theorem cycleTitle_of_line (hb : g.titleBlockAt text pos = none) {l : Line} {t : TitleLine}
    (ht : g.titleLineAt text pos = some (l, t)) : g.cycleTitle text pos =
      ⟨l.stop, l.stop, '\n' :: (t.marker ++ List.replicate t.title.width g.firstStyle)⟩ := by
  apply cycleTitle_of_eq_some
  rw [cycleTitle?, hb, ht]

theorem cycleTitle_of_none (hb : g.titleBlockAt text pos = none) (ht : g.titleLineAt text pos = none) :
    g.cycleTitle text pos = ⟨pos, pos, g.scaffold⟩ := by
  apply cycleTitle_of_eq_some
  rw [cycleTitle?, hb, ht]

theorem resizeUnderline_of_block (hb : g.titleBlockAt text pos = some b) : g.resizeUnderline text pos =
    if b.synchronized then none else some (b.setUnderline b.underline.char) := by
  have hlevel : (g.level b.underline.char).isNone = false := by
    rw [← Option.not_isSome, level, Option.isSome_map, styleIndex,
      List.isSome_idxOf?.mpr (mem_styles_of_titleBlockAt hb), Bool.not_true]
  rw [resizeUnderline, hb]
  dsimp only
  rw [hlevel, Bool.false_or]

end Answers

def cycleTexts (g : Grammar) (pos : Int) : Nat → Text → List Text
  | 0, _ => []
  | n + 1, text =>
    let next := (g.cycleTitle text pos).apply text
    next :: g.cycleTexts pos n next

end Grammar

end Literate
