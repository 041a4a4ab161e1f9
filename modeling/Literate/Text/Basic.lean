namespace Literate

abbrev Text := List Char

structure Span where
  start : Int
  stop : Int
deriving DecidableEq, Repr

namespace Span

def length (s : Span) : Int := s.stop - s.start

def contains (s : Span) (pos : Int) : Bool := s.start ≤ pos && pos < s.stop

def within (s t : Span) : Bool := t.start ≤ s.start && s.stop ≤ t.stop

def shift (s : Span) (n : Int) : Span := ⟨s.start + n, s.stop + n⟩

end Span

namespace Text

def clamp (text : Text) (pos : Int) : Nat := min pos.toNat text.length

/-- The position that an offset of an edit names: a negative one counts from the end. -/
def offset (text : Text) (pos : Int) : Nat :=
  if pos < 0 then (text.length + pos).toNat else min pos.toNat text.length

def slice (text : Text) (start stop : Nat) : Text := (text.take stop).drop start

def trim (p : Char → Bool) (text : Text) : Text := ((text.dropWhile p).reverse.dropWhile p).reverse

def lowerAscii (text : Text) : Text := text.map Char.toLower

def joinLines (texts : List Text) : Text := ['\n'].intercalate texts

end Text

end Literate
