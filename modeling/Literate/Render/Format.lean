import Literate.Text.Basic

namespace Literate

inductive Color
  | azure
  | sky
  | teal
  | sand
  | orchid
  | clay
  | moss
  | amber
  | sage
  | cornflower
  | silver
  | gray
  | cobalt
  | slate
  | gold
  | charcoal
  | transparent
deriving DecidableEq, Repr

def Color.name : Color → String
  | azure => "#569Cff"
  | sky => "#4FC1FF"
  | teal => "#4EC9B0"
  | sand => "#DCDCAA"
  | orchid => "#C586C0"
  | clay => "#CE9178"
  | moss => "#6A9955"
  | amber => "#FFB86C"
  | sage => "#B5CEA8"
  | cornflower => "#61AFEF"
  | silver => "#D4D4D4"
  | gray => "#808080"
  | cobalt => "#569CD6"
  | slate => "#1E2A33"
  | gold => "#D7BA7D"
  | charcoal => "#2A2A2A"
  | transparent => "0,0,0,0"

inductive Family
  | proportional
  | monospaced
deriving DecidableEq, Repr

def Family.name : Family → String
  | proportional => "sans-serif"
  | monospaced => "monospace"

structure Format where
  foreground : Option Color := none
  background : Option Color := none
  underlineColor : Option Color := none
  bold : Bool := false
  italic : Bool := false
  underline : Bool := false
  family : Option Family := none
  size : Option Nat := none
deriving DecidableEq, Repr

namespace Format

def empty : Format := {}

def merge (f g : Format) : Format where
  foreground := g.foreground.or f.foreground
  background := g.background.or f.background
  underlineColor := g.underlineColor.or f.underlineColor
  bold := f.bold || g.bold
  italic := f.italic || g.italic
  underline := f.underline || g.underline
  family := g.family.or f.family
  size := g.size.or f.size

def ruled (f : Format) : Format := { f with underline := true, underlineColor := some .gray }

end Format

structure Run where
  start : Nat
  count : Nat
  format : Format
deriving DecidableEq, Repr

namespace Run

def stop (r : Run) : Nat := r.start + r.count

def shift (n : Nat) (r : Run) : Run := { r with start := r.start + n }

def paint (formats : List Format) (r : Run) : List Format :=
  formats.mapIdx fun i f => if r.start ≤ i ∧ i < r.stop then r.format else f

def paintAll (length : Nat) (runs : List Run) : List Format :=
  runs.foldl paint (List.replicate length .empty)

def stretches (pos : Nat) : List Format → List Run
  | [] => []
  | f :: rest =>
    let others := stretches (pos + 1) rest
    if f = .empty then others
    else
      match others with
      | r :: more =>
        if r.start = pos + 1 ∧ r.format = f then ⟨pos, r.count + 1, f⟩ :: more else ⟨pos, 1, f⟩ :: r :: more
      | [] => [⟨pos, 1, f⟩]

end Run

end Literate
