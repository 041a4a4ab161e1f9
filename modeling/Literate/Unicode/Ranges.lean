/-!
A property of characters is stored as the ascending list of the ranges of code points that have it, as of Unicode 14.0.
-/

namespace Literate.Unicode

abbrev Ranges := List (Nat × Nat)

def Ranges.holdCode : Ranges → Nat → Bool
  | [], _ => false
  | (low, high) :: ranges, n => if n < low then false else n ≤ high || Ranges.holdCode ranges n

def Ranges.hold (ranges : Ranges) (c : Char) : Bool :=
  ranges.holdCode c.toNat

end Literate.Unicode
