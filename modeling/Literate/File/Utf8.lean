import Literate.Text.Basic

namespace Literate

abbrev Bytes := List UInt8

namespace Utf8

inductive Reason
  | start
  | continuation
  | unfinished
deriving DecidableEq, Repr

def Reason.message : Reason → String
  | start => "invalid start byte"
  | continuation => "invalid continuation byte"
  | unfinished => "unexpected end of data"

structure Error where
  position : Nat
  count : Nat
  first : UInt8
  reason : Reason
deriving DecidableEq, Repr

def Error.message (e : Error) : String :=
  let place :=
    if e.count = 1 then s!"byte 0x{String.ofList (Nat.toDigits 16 e.first.toNat)} in position {e.position}"
    else s!"bytes in position {e.position}-{e.position + e.count - 1}"
  s!"'utf-8' codec can't decode {place}: {e.reason.message}"

def isTail (b : UInt8) : Bool := 0x80 ≤ b && b ≤ 0xbf

def isSecond (first second : UInt8) : Bool :=
  isTail second &&
    !((first = 0xe0 && second < 0xa0) || (first = 0xed && 0xa0 ≤ second) ||
      (first = 0xf0 && second < 0x90) || (first = 0xf4 && 0x90 ≤ second))

def bits (mark b : UInt8) : Nat := b.toNat - mark.toNat

def char2 (a b : UInt8) : Char := Char.ofNat (bits 0xc0 a * 0x40 + bits 0x80 b)

def char3 (a b c : UInt8) : Char :=
  Char.ofNat ((bits 0xe0 a * 0x40 + bits 0x80 b) * 0x40 + bits 0x80 c)

def char4 (a b c d : UInt8) : Char :=
  Char.ofNat (((bits 0xf0 a * 0x40 + bits 0x80 b) * 0x40 + bits 0x80 c) * 0x40 + bits 0x80 d)

def tailCount (first : UInt8) : Option Nat :=
  if first < 0x80 then some 0
  else if first < 0xc2 then none
  else if first < 0xe0 then some 1
  else if first < 0xf0 then some 2
  else if first < 0xf5 then some 3
  else none

def decodeFrom (pos : Nat) : Bytes → Except Error Text
  | [] => .ok []
  | a :: rest =>
    match tailCount a with
    | none => .error ⟨pos, 1, a, .start⟩
    | some 0 => (decodeFrom (pos + 1) rest).map (Char.ofNat a.toNat :: ·)
    | some count =>
      match rest with
      | [] => .error ⟨pos, 1, a, .unfinished⟩
      | b :: rest =>
        if !isSecond a b then .error ⟨pos, 1, a, .continuation⟩
        else if count = 1 then (decodeFrom (pos + 2) rest).map (char2 a b :: ·)
        else
          match rest with
          | [] => .error ⟨pos, 2, a, .unfinished⟩
          | c :: rest =>
            if !isTail c then .error ⟨pos, 2, a, .continuation⟩
            else if count = 2 then (decodeFrom (pos + 3) rest).map (char3 a b c :: ·)
            else
              match rest with
              | [] => .error ⟨pos, 3, a, .unfinished⟩
              | d :: rest =>
                if !isTail d then .error ⟨pos, 3, a, .continuation⟩
                else (decodeFrom (pos + 4) rest).map (char4 a b c d :: ·)

def decode (bytes : Bytes) : Except Error Text := decodeFrom 0 bytes

def encode (text : Text) : Bytes := text.flatMap String.utf8EncodeChar

end Utf8

def unifyNewlines : Text → Text
  | [] => []
  | '\r' :: '\n' :: rest => '\n' :: unifyNewlines rest
  | c :: rest => (if c = '\r' then '\n' else c) :: unifyNewlines rest

end Literate
