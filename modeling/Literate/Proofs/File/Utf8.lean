import Literate.File.Utf8
import Literate.Settings.Basic
import Mathlib.Tactic.Common

namespace Literate

namespace Utf8

inductive Spells : Bytes → Char → Prop
  | one {a : UInt8} : tailCount a = some 0 → Spells [a] (Char.ofNat a.toNat)
  | two {a b : UInt8} : tailCount a = some 1 → isSecond a b = true → Spells [a, b] (char2 a b)
  | three {a b c : UInt8} : tailCount a = some 2 → isSecond a b = true → isTail c = true →
      Spells [a, b, c] (char3 a b c)
  | four {a b c d : UInt8} : tailCount a = some 3 → isSecond a b = true → isTail c = true → isTail d = true →
      Spells [a, b, c, d] (char4 a b c d)

variable {a b c d : UInt8} {seq rest bytes : Bytes} {x : Char} {text : Text} {pos : Nat}

theorem tailCount_eq_some_iff {n : Nat} : tailCount a = some n ↔
    (n = 0 ∧ a.toNat < 0x80) ∨ (n = 1 ∧ 0xc2 ≤ a.toNat ∧ a.toNat < 0xe0) ∨
      (n = 2 ∧ 0xe0 ≤ a.toNat ∧ a.toNat < 0xf0) ∨ (n = 3 ∧ 0xf0 ≤ a.toNat ∧ a.toNat < 0xf5) := by
  simp only [tailCount, UInt8.lt_iff_toNat_lt, UInt8.reduceToNat]
  split_ifs <;> simp <;> omega

theorem isTail_iff : isTail b = true ↔ 0x80 ≤ b.toNat ∧ b.toNat ≤ 0xbf := by
  simp only [isTail, Bool.and_eq_true, decide_eq_true_eq, UInt8.le_iff_toNat_le, UInt8.reduceToNat]

theorem isSecond_iff : isSecond a b = true ↔ isTail b = true ∧ (a.toNat = 0xe0 → 0xa0 ≤ b.toNat) ∧
    (a.toNat = 0xed → b.toNat < 0xa0) ∧ (a.toNat = 0xf0 → 0x90 ≤ b.toNat) ∧ (a.toNat = 0xf4 → b.toNat < 0x90) := by
  simp only [isSecond, Bool.and_eq_true, Bool.not_eq_true', Bool.or_eq_false_iff, Bool.and_eq_false_iff,
    decide_eq_false_iff_not, UInt8.le_iff_toNat_le, UInt8.lt_iff_toNat_lt, ← UInt8.toNat_inj, UInt8.reduceToNat,
    imp_iff_not_or, Nat.not_lt, Nat.not_le, and_assoc]

theorem Spells.decodeFrom (h : Spells seq x) (pos : Nat) (rest : Bytes) :
    decodeFrom pos (seq ++ rest) = (decodeFrom (pos + seq.length) rest).map (x :: ·) := by
  cases h with
  | one ha => simp [Utf8.decodeFrom, ha]
  | two ha hb => simp [Utf8.decodeFrom, ha, hb]
  | three ha hb hc => simp [Utf8.decodeFrom, ha, hb, hc]
  | four ha hb hc hd => simp [Utf8.decodeFrom, ha, hb, hc, hd]

theorem toNat_ofNat_of_valid {n : Nat} (h : n.isValidChar) : (Char.ofNat n).val.toNat = n := by
  rw [Char.ofNat, dif_pos h]
  rfl

theorem eq_ofNat {n : Nat} (h : a.toNat = n) : a = UInt8.ofNat n := by rw [← h, UInt8.ofNat_toNat]

section Bytes

theorem encodeChar_one (ha : tailCount a = some 0) : String.utf8EncodeChar (Char.ofNat a.toNat) = [a] := by
  have hsize : a.toNat < 0x80 := by simpa [tailCount_eq_some_iff] using ha
  have hx : (Char.ofNat a.toNat).val.toNat = a.toNat := toNat_ofNat_of_valid (.inl (by omega))
  simp only [String.utf8EncodeChar, hx]
  rw [if_pos (by omega), ← eq_ofNat rfl]

theorem encodeChar_two (ha : tailCount a = some 1) (hb : isSecond a b = true) :
    String.utf8EncodeChar (char2 a b) = [a, b] := by
  have hsize : 0xc2 ≤ a.toNat ∧ a.toNat < 0xe0 := by simpa [tailCount_eq_some_iff] using ha
  have htail := isTail_iff.mp (isSecond_iff.mp hb).1
  have hx : (char2 a b).val.toNat = (a.toNat - 0xc0) * 0x40 + (b.toNat - 0x80) :=
    toNat_ofNat_of_valid (.inl (by simp only [bits, UInt8.reduceToNat]; omega))
  simp only [String.utf8EncodeChar, hx]
  rw [if_neg (by omega), if_pos (by omega), ← @eq_ofNat a _ (by omega), ← @eq_ofNat b _ (by omega)]

theorem encodeChar_three (ha : tailCount a = some 2) (hb : isSecond a b = true) (hc : isTail c = true) :
    String.utf8EncodeChar (char3 a b c) = [a, b, c] := by
  have hsize : 0xe0 ≤ a.toNat ∧ a.toNat < 0xf0 := by simpa [tailCount_eq_some_iff] using ha
  obtain ⟨hb, hlong, hsurrogate, -⟩ := isSecond_iff.mp hb
  rw [isTail_iff] at hb hc
  -- The second byte rules out the surrogates, which are no characters.
  have hx : (char3 a b c).val.toNat = ((a.toNat - 0xe0) * 0x40 + (b.toNat - 0x80)) * 0x40 + (c.toNat - 0x80) :=
    toNat_ofNat_of_valid (by simp only [bits, UInt8.reduceToNat, Nat.isValidChar]; omega)
  simp only [String.utf8EncodeChar, hx]
  rw [if_neg (by omega), if_neg (by omega), if_pos (by omega), ← @eq_ofNat a _ (by omega),
    ← @eq_ofNat b _ (by omega), ← @eq_ofNat c _ (by omega)]

theorem encodeChar_four (ha : tailCount a = some 3) (hb : isSecond a b = true) (hc : isTail c = true)
    (hd : isTail d = true) : String.utf8EncodeChar (char4 a b c d) = [a, b, c, d] := by
  have hsize : 0xf0 ≤ a.toNat ∧ a.toNat < 0xf5 := by simpa [tailCount_eq_some_iff] using ha
  obtain ⟨hb, -, -, hlong, hgreat⟩ := isSecond_iff.mp hb
  rw [isTail_iff] at hb hc hd
  have hx : (char4 a b c d).val.toNat =
      (((a.toNat - 0xf0) * 0x40 + (b.toNat - 0x80)) * 0x40 + (c.toNat - 0x80)) * 0x40 + (d.toNat - 0x80) :=
    toNat_ofNat_of_valid (by simp only [bits, UInt8.reduceToNat, Nat.isValidChar]; omega)
  simp only [String.utf8EncodeChar, hx]
  rw [if_neg (by omega), if_neg (by omega), if_neg (by omega), ← @eq_ofNat a _ (by omega),
    ← @eq_ofNat b _ (by omega), ← @eq_ofNat c _ (by omega), ← @eq_ofNat d _ (by omega)]

end Bytes

theorem Spells.eq_encode (h : Spells seq x) : seq = String.utf8EncodeChar x := by
  cases h with
  | one ha => exact (encodeChar_one ha).symm
  | two ha hb => exact (encodeChar_two ha hb).symm
  | three ha hb hc => exact (encodeChar_three ha hb hc).symm
  | four ha hb hc hd => exact (encodeChar_four ha hb hc hd).symm

section Numbers

variable {v : Nat} (hv : v = x.val.toNat)
include hv

theorem ofNat_eq {n : Nat} (h : n = v) : Char.ofNat n = x := by
  rw [h, hv]
  exact Char.ofNat_toNat x

theorem spells_one (hsize : v ≤ 0x7f) (ha : a.toNat = v) : Spells [a] x := by
  rw [← ofNat_eq hv ha]
  exact .one (tailCount_eq_some_iff.mpr (by omega))

theorem spells_two (hlow : 0x7f < v) (hhigh : v ≤ 0x7ff) (ha : a.toNat = v / 0x40 % 0x20 + 0xc0)
    (hb : b.toNat = v % 0x40 + 0x80) : Spells [a, b] x := by
  have hx : char2 a b = x := ofNat_eq hv (by simp only [bits, UInt8.reduceToNat]; omega)
  have hsecond : isSecond a b = true := isSecond_iff.mpr ⟨isTail_iff.mpr (by omega), by omega⟩
  rw [← hx]
  exact .two (tailCount_eq_some_iff.mpr (by omega)) hsecond

theorem spells_three (hlow : 0x7ff < v) (hhigh : v ≤ 0xffff) (ha : a.toNat = v / 0x1000 % 0x10 + 0xe0)
    (hb : b.toNat = v / 0x40 % 0x40 + 0x80) (hc : c.toNat = v % 0x40 + 0x80) : Spells [a, b, c] x := by
  have hvalid : v < 0xd800 ∨ 0xdfff < v ∧ v < 0x110000 := by
    rw [hv]
    exact x.valid
  have hx : char3 a b c = x := ofNat_eq hv (by simp only [bits, UInt8.reduceToNat]; omega)
  have hsecond : isSecond a b = true := isSecond_iff.mpr ⟨isTail_iff.mpr (by omega), by omega⟩
  rw [← hx]
  exact .three (tailCount_eq_some_iff.mpr (by omega)) hsecond (isTail_iff.mpr (by omega))

theorem spells_four (hlow : 0xffff < v) (ha : a.toNat = v / 0x40000 % 8 + 0xf0) (hb : b.toNat = v / 0x1000 % 0x40 + 0x80)
    (hc : c.toNat = v / 0x40 % 0x40 + 0x80) (hd : d.toNat = v % 0x40 + 0x80) : Spells [a, b, c, d] x := by
  have hvalid : v < 0xd800 ∨ 0xdfff < v ∧ v < 0x110000 := by
    rw [hv]
    exact x.valid
  have hx : char4 a b c d = x := ofNat_eq hv (by simp only [bits, UInt8.reduceToNat]; omega)
  have hsecond : isSecond a b = true := isSecond_iff.mpr ⟨isTail_iff.mpr (by omega), by omega⟩
  rw [← hx]
  exact .four (tailCount_eq_some_iff.mpr (by omega)) hsecond (isTail_iff.mpr (by omega)) (isTail_iff.mpr (by omega))

end Numbers

theorem toNat_byte {n : Nat} (h : n < 0x100) : (UInt8.ofNat n).toNat = n := UInt8.toNat_ofNat_of_lt' h

theorem spells_encode (x : Char) : Spells (String.utf8EncodeChar x) x := by
  fun_cases String.utf8EncodeChar x with
  | case1 v hone => exact spells_one rfl hone (toNat_byte (by omega))
  | case2 v hone htwo =>
    exact spells_two rfl (by omega) htwo (toNat_byte (by omega)) (toNat_byte (by omega))
  | case3 v hone htwo hthree =>
    exact spells_three rfl (by omega) hthree (toNat_byte (by omega)) (toNat_byte (by omega)) (toNat_byte (by omega))
  | case4 v hone htwo hthree =>
    exact spells_four rfl (by omega) (toNat_byte (by omega)) (toNat_byte (by omega)) (toNat_byte (by omega))
      (toNat_byte (by omega))

theorem encode_cons (x : Char) (text : Text) : encode (x :: text) = String.utf8EncodeChar x ++ encode text := rfl

theorem Spells.append_eq (h : Spells seq x) (hrest : rest = encode text) : seq ++ rest = encode (x :: text) := by
  rw [h.eq_encode, hrest, encode_cons]

theorem eq_encode_of_decodeFrom (h : decodeFrom pos bytes = .ok text) : bytes = encode text := by
  fun_induction decodeFrom pos bytes generalizing text with
  | case1 =>
    obtain rfl : [] = text := Except.ok.inj h
    rfl
  | case3 pos a rest ha ih =>
    obtain ⟨after, hafter, rfl⟩ := exists_of_map_eq_ok h
    exact (Spells.one ha).append_eq (ih hafter)
  | case6 pos a b rest hb _ ha ih =>
    obtain ⟨after, hafter, rfl⟩ := exists_of_map_eq_ok h
    exact (Spells.two ha (by simpa using hb)).append_eq (ih hafter)
  | case9 pos a b hb c rest hc _ ha _ ih =>
    obtain ⟨after, hafter, rfl⟩ := exists_of_map_eq_ok h
    exact (Spells.three ha (by simpa using hb) (by simpa using hc)).append_eq (ih hafter)
  | case12 pos a count hzero ha b hb hone c hc htwo d rest hd ih =>
    obtain ⟨after, hafter, rfl⟩ := exists_of_map_eq_ok h
    obtain rfl : count = 3 := by
      have hcount := tailCount_eq_some_iff.mp ha
      have hpos : count ≠ 0 := hzero
      omega
    exact (Spells.four ha (by simpa using hb) (by simpa using hc) (by simpa using hd)).append_eq (ih hafter)
  | _ => cases h -- the ways to end in an error

theorem decodeFrom_encode (pos : Nat) (text : Text) : Utf8.decodeFrom pos (encode text) = .ok text := by
  induction text generalizing pos with
  | nil => rfl
  | cons x text ih =>
    rw [encode_cons, (spells_encode x).decodeFrom, ih]
    rfl

theorem decode_eq_ok_iff : decode bytes = .ok text ↔ bytes = encode text := by
  constructor
  · exact eq_encode_of_decodeFrom
  · rintro rfl
    exact decodeFrom_encode 0 text

theorem exists_decode_iff : (∃ text, decode bytes = .ok text) ↔ bytes.toByteArray.IsValidUTF8 := by
  simp only [decode_eq_ok_iff]
  constructor
  · rintro ⟨text, rfl⟩
    exact ⟨text, rfl⟩
  · rintro ⟨text, htext⟩
    refine ⟨text, ?_⟩
    have hlist := congrArg (fun array : ByteArray => array.data.toList) htext
    rw [List.utf8Encode, List.toList_data_toByteArray, List.toList_data_toByteArray] at hlist
    exact hlist

theorem Spells.eq_of_mem (h : Spells seq x) (hb : b ∈ seq) (hlow : b.toNat < 0x80) : x = Char.ofNat b.toNat := by
  cases h with
  | one ha => rw [List.mem_singleton.mp hb]
  | two ha htail =>
    have hsize := tailCount_eq_some_iff.mp ha
    have hfirst := isTail_iff.mp (isSecond_iff.mp htail).1
    rw [List.mem_cons, List.mem_singleton] at hb
    rcases hb with rfl | rfl <;> omega
  | three ha htail hc =>
    have hsize := tailCount_eq_some_iff.mp ha
    have hfirst := isTail_iff.mp (isSecond_iff.mp htail).1
    rw [isTail_iff] at hc
    rw [List.mem_cons, List.mem_cons, List.mem_singleton] at hb
    rcases hb with rfl | rfl | rfl <;> omega
  | four ha htail hc hd =>
    have hsize := tailCount_eq_some_iff.mp ha
    have hfirst := isTail_iff.mp (isSecond_iff.mp htail).1
    rw [isTail_iff] at hc hd
    rw [List.mem_cons, List.mem_cons, List.mem_cons, List.mem_singleton] at hb
    rcases hb with rfl | rfl | rfl | rfl <;> omega

end Utf8

def unifyLineEnds : Bytes → Bytes
  | [] => []
  | 0x0d :: 0x0a :: rest => 0x0a :: unifyLineEnds rest
  | b :: rest => (if b = 0x0d then 0x0a else b) :: unifyLineEnds rest

variable {b : UInt8} {front rest bytes : Bytes}

theorem unifyLineEnds_cons (hb : b ≠ 0x0d) (rest : Bytes) : unifyLineEnds (b :: rest) = b :: unifyLineEnds rest := by
  rw [unifyLineEnds, if_neg hb]
  rintro rest' rfl
  exact absurd rfl hb

theorem unifyLineEnds_return (h : rest.head? ≠ some 0x0a) : unifyLineEnds (0x0d :: rest) = 0x0a :: unifyLineEnds rest := by
  rw [unifyLineEnds, if_pos rfl]
  rintro rest' - rfl
  exact h rfl

theorem unifyLineEnds_append (h : 0x0d ∉ front) (rest : Bytes) :
    unifyLineEnds (front ++ rest) = front ++ unifyLineEnds rest := by
  induction front with
  | nil => rfl
  | cons b front ih =>
    rw [List.mem_cons, not_or] at h
    rw [List.cons_append, unifyLineEnds_cons (Ne.symm h.1), ih h.2, List.cons_append]

theorem return_not_mem_unifyLineEnds (bytes : Bytes) : 0x0d ∉ unifyLineEnds bytes := by
  fun_induction unifyLineEnds bytes with
  | case1 => exact List.not_mem_nil
  | case2 rest ih => exact List.not_mem_cons_of_ne_of_not_mem (by decide) ih
  | case3 b rest hpair ih =>
    refine List.not_mem_cons_of_ne_of_not_mem ?_ ih
    split
    · decide
    · exact Ne.symm ‹_›

theorem unifyLineEnds_eq_self_iff : unifyLineEnds bytes = bytes ↔ 0x0d ∉ bytes := by
  constructor
  · intro h
    rw [← h]
    exact return_not_mem_unifyLineEnds bytes
  · intro h
    have happend := unifyLineEnds_append h []
    rwa [List.append_nil, unifyLineEnds, List.append_nil] at happend

namespace Utf8

theorem return_not_mem_encode {x : Char} (h : x ≠ '\r') : 0x0d ∉ String.utf8EncodeChar x :=
  fun hmem => h ((spells_encode x).eq_of_mem hmem (by decide))

theorem head?_encode_ne {text : Text} (h : text.head? ≠ some '\n') : (encode text).head? ≠ some 0x0a := by
  cases text with
  | nil => simp [encode]
  | cons x text =>
    intro hhead
    have hpos : 0 < (String.utf8EncodeChar x).length := by
      rw [String.length_utf8EncodeChar]
      exact x.utf8Size_pos
    obtain ⟨b, front, hseq⟩ := List.exists_cons_of_length_pos hpos
    rw [encode_cons, hseq] at hhead
    obtain rfl : b = 0x0a := Option.some.inj hhead
    have hmem : 0x0a ∈ String.utf8EncodeChar x := by
      rw [hseq]
      exact List.mem_cons_self
    obtain rfl : x = '\n' := (spells_encode x).eq_of_mem hmem (by decide)
    exact h rfl

theorem encode_unifyNewlines (text : Text) : encode (unifyNewlines text) = unifyLineEnds (encode text) := by
  fun_induction unifyNewlines text with
  | case1 => rfl
  | case2 rest ih =>
    have hpair : encode ('\r' :: '\n' :: rest) = 0x0d :: 0x0a :: encode rest := rfl
    rw [hpair, unifyLineEnds, ← ih]
    rfl
  | case3 x rest hpair ih =>
    by_cases hx : x = '\r'
    · -- No newline follows in the text, so none follows in the bytes.
      subst hx
      have hhead : rest.head? ≠ some '\n' := by
        intro hhead
        obtain ⟨after, hafter⟩ := List.head?_eq_some_iff.mp hhead
        exact hpair after rfl hafter
      have hreturn : String.utf8EncodeChar '\r' ++ encode rest = 0x0d :: encode rest := rfl
      rw [encode_cons '\r' rest, hreturn, unifyLineEnds_return (head?_encode_ne hhead), ← ih]
      rfl
    · rw [if_neg hx, encode_cons x rest, unifyLineEnds_append (return_not_mem_encode hx), ← ih]
      rfl

end Utf8

end Literate
