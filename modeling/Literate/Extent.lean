import Literate.Title.Basic

/-!
The extent of a change: the range of a text that has to be drawn again. It is widened to whole lines and whole
title blocks, round by round, until nothing changes.
-/

namespace Literate

structure Extent where
  start : Nat
  stop : Nat
deriving DecidableEq, Repr

namespace Extent

def span (e : Extent) : Span := ⟨e.start, e.stop⟩

def ofRange (text : Text) (start stop : Int) : Extent :=
  let a := text.clamp start
  ⟨a, max a (text.clamp stop)⟩

/-- A position on the last line that the extent covers: an end on a line start does not cover that line. -/
def lastCovered (text : Text) (e : Extent) : Nat :=
  if e.start < e.stop ∧ text[e.stop - 1]? = some '\n' then e.stop - 1 else e.stop

end Extent

namespace Grammar

def extentStart (g : Grammar) (text : Text) (pos : Nat) : Nat :=
  match g.titleBlockAbove text pos with
  | some block => block.start
  | none => text.lineStart pos

def extentStop (g : Grammar) (text : Text) (pos : Nat) : Nat :=
  match g.titleBlockAt text pos with
  | some block => block.stop
  | none => text.lineStop pos

def widen (g : Grammar) (text : Text) (e : Extent) : Extent :=
  ⟨g.extentStart text e.start, max e.stop (g.extentStop text (e.lastCovered text))⟩

def widenRange (g : Grammar) (text : Text) (start stop : Int) : Extent × Bool :=
  let asked := Extent.ofRange text start stop
  (g.widen text asked, g.widen text asked ≠ asked)

def widenRounds (g : Grammar) (text : Text) : Nat → Extent → Extent
  | 0, e => e
  | n + 1, e => if g.widen text e = e then e else g.widenRounds text n (g.widen text e)

def widenFully (g : Grammar) (text : Text) (start stop : Int) (rounds : Int := 8) : Extent :=
  g.widenRounds text (max 1 rounds.toNat) (.ofRange text start stop)

end Grammar

end Literate
