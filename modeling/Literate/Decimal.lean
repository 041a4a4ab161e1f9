import Literate.Text.Basic

/-!
The decimals that floating numbers are written as. `Binary.shortest` finds the decimal that reads back as the
number, has the fewest digits of those that do, and is the nearest of these; `numeral` lays it out.
-/

namespace Literate

/-- A number `mantissa * 2 ^ exponent`; `narrow` tells that the number below it is half as far away as the
number above. -/
structure Binary where
  mantissa : Nat
  exponent : Int
  narrow : Bool
deriving DecidableEq, Repr

structure Decimal where
  digits : Nat
  power : Int
deriving DecidableEq, Repr

def Decimal.zero : Decimal := ⟨0, -1⟩

namespace Binary

def ofBits (bits : Nat) : Binary :=
  let fraction := bits % Nat.pow 2 52
  let biased := bits / Nat.pow 2 52 % Nat.pow 2 11
  if biased = 0 then ⟨fraction, -1074, false⟩
  else ⟨Nat.pow 2 52 + fraction, (biased : Int) - 1075, fraction = 0 && 1 < biased⟩

def quarter (x : Binary) (power : Int) : Nat × Nat :=
  (Nat.pow 2 (x.exponent - 2).toNat * Nat.pow 10 (-power).toNat,
    Nat.pow 2 (2 - x.exponent).toNat * Nat.pow 10 power.toNat)

def readsBack (x : Binary) (d : Decimal) : Bool :=
  let (unit, scale) := x.quarter d.power
  let low := (4 * x.mantissa - if x.narrow then 1 else 2) * unit
  let high := (4 * x.mantissa + 2) * unit
  let point := d.digits * scale
  if x.mantissa % 2 = 0 then low ≤ point && point ≤ high else low < point && point < high

def neighbours (x : Binary) (power : Int) : List Decimal :=
  let (unit, scale) := x.quarter power
  let below := 4 * x.mantissa * unit / scale
  let rest := 4 * x.mantissa * unit % scale
  if 2 * rest < scale ∨ (2 * rest = scale ∧ below % 2 = 0) then [⟨below, power⟩, ⟨below + 1, power⟩]
  else [⟨below + 1, power⟩, ⟨below, power⟩]

def powers : List Int := (List.range 633).map fun (n : Nat) => 308 - (n : Int)

def shortest (x : Binary) : Decimal :=
  if x.mantissa = 0 then .zero
  else (powers.findSome? fun power => (x.neighbours power).find? x.readsBack).getD .zero

end Binary

namespace Decimal

def digitText (d : Decimal) : Text := Nat.toDigits 10 d.digits

def order (d : Decimal) : Int := d.power + d.digitText.length - 1

def positional (d : Decimal) : Text :=
  if 0 ≤ d.power then d.digitText ++ List.replicate d.power.toNat '0' ++ ['.', '0']
  else
    let places := (-d.power).toNat
    let padded := List.replicate (places + 1 - d.digitText.length) '0' ++ d.digitText
    padded.take (padded.length - places) ++ '.' :: padded.drop (padded.length - places)

def exponentText (n : Int) : Text :=
  let digits := Nat.toDigits 10 n.natAbs
  'e' :: (if n < 0 then '-' else '+') :: (List.replicate (2 - digits.length) '0' ++ digits)

def scientific (d : Decimal) : Text :=
  (match d.digitText with
    | [] => []
    | [c] => [c]
    | c :: rest => c :: '.' :: rest) ++ exponentText d.order

def text (d : Decimal) : Text :=
  if -4 ≤ d.order ∧ d.order < 16 then d.positional else d.scientific

end Decimal

def numeral (x : Float) : Text :=
  if x.isNaN then ['n', 'a', 'n']
  else
    let bits := x.toBits.toNat
    let sign := if bits < Nat.pow 2 63 then [] else ['-']
    sign ++ if x.isInf then ['i', 'n', 'f'] else (Binary.ofBits bits).shortest.text

end Literate
