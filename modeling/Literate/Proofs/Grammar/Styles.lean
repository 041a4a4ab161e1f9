import Mathlib.Data.List.Nodup
import Literate.Proofs.Grammar.Marker

namespace Literate

open Unicode

namespace Grammar

theorem styleChar_ok {comment style : Text} {c : Char} (h : styleChar comment style = .ok c) :
    style = [c] ∧ isSpace c = false ∧ isAlphanumeric c = false ∧ [c] ≠ comment ∧ [c] ∉ reserved := by
  match style, h with
  | [], h => simp [styleChar] at h
  | [d], h =>
    simp only [styleChar] at h
    split at h
    · simp at h
    · rename_i hs
      split at h
      · simp at h
      · rename_i hr
        obtain rfl : d = c := by simpa using h
        rw [Bool.or_eq_true, not_or, Bool.not_eq_true, Bool.not_eq_true] at hs
        rw [not_or] at hr
        exact ⟨rfl, hs.1, hs.2, hr.1, fun hm => hr.2 (List.contains_iff_mem.mpr hm)⟩
  | _ :: _ :: _, h => simp [styleChar] at h

theorem styleChars_ok {comment : Text} {styles : List Text} {chars : List Char}
    (h : styleChars comment styles = .ok chars) :
    styles = chars.map (fun c => [c]) ∧ ∀ c ∈ chars, styleChar comment [c] = .ok c := by
  induction styles generalizing chars with
  | nil =>
    obtain rfl : [] = chars := by simpa [styleChars] using h
    simp
  | cons style styles ih =>
    rw [styleChars] at h
    cases hs : styleChar comment style with
    | error e => simp [hs] at h
    | ok c =>
      cases hr : styleChars comment styles with
      | error e => simp [hs, hr, Except.map] at h
      | ok rest =>
        obtain rfl : c :: rest = chars := by simpa [hs, hr, Except.map] using h
        obtain ⟨hst, hall⟩ := ih hr
        have hc := (styleChar_ok hs).1
        refine ⟨by rw [hst, hc, List.map_cons], fun d hd => ?_⟩
        rcases List.mem_cons.mp hd with rfl | hd
        · exact hc ▸ hs
        · exact hall d hd

theorem make_eq_ok {styles : List Text} {g : Grammar} (h : make styles = .ok g) :
    styles = g.styles.map (fun c => [c]) ∧ g = ofStyles g.styles ∧ g.styles.Nodup ∧
      ∀ c ∈ g.styles, styleChar ['#'] [c] = .ok c := by
  rw [make] at h
  split at h
  · simp at h
  · cases hs : styleChars ['#'] styles with
    | error e => simp [hs] at h
    | ok chars =>
      simp only [hs] at h
      split at h
      · obtain rfl := Except.ok.inj h
        obtain ⟨he, hall⟩ := styleChars_ok hs
        exact ⟨he, rfl, ‹_›, hall⟩
      · simp at h

theorem accepted_of_make {styles : List Text} {g : Grammar} (h : make styles = .ok g) : Accepted g.styles := by
  rw [Accepted, ← (make_eq_ok h).1, h]
  rfl

variable {styles : List Char}

theorem Accepted.make_eq (h : Accepted styles) : make (styles.map fun c => [c]) = .ok (ofStyles styles) := by
  rw [Accepted] at h
  cases hm : make (styles.map fun c => [c]) with
  | error e => simp [hm, Except.isOk, Except.toBool] at h
  | ok g =>
    obtain ⟨hs, hg, -⟩ := make_eq_ok hm
    have hstyles : styles = g.styles := (List.map_injective_iff.mpr fun a b hab => by simpa using hab) hs
    rw [hstyles, ← hg]

theorem Accepted.nodup (h : Accepted styles) : styles.Nodup := (make_eq_ok h.make_eq).2.2.1

theorem Accepted.style (h : Accepted styles) {c : Char} (hc : c ∈ styles) :
    isSpace c = false ∧ isAlphanumeric c = false ∧ c ≠ '#' ∧ [c] ∉ reserved := by
  obtain ⟨-, hsp, han, hne, hr⟩ := styleChar_ok ((make_eq_ok h.make_eq).2.2.2 c hc)
  refine ⟨hsp, han, ?_, hr⟩
  rintro rfl
  exact hne rfl

theorem Accepted.styleIndex (h : Accepted styles) {i : Nat} (hi : i < styles.length) :
    (ofStyles styles).styleIndex styles[i] = some i := by
  rw [Grammar.styleIndex, ofStyles, List.idxOf?_eq_some_iff]
  refine ⟨hi, rfl, fun j hj he => ?_⟩
  have := (h.nodup.getElem_inj_iff).mp he
  omega

theorem Accepted.level (h : Accepted styles) {i : Nat} (hi : i < styles.length) :
    (ofStyles styles).level styles[i] = some (i + 1) :=
  congrArg (Option.map (· + 1)) (h.styleIndex hi)

theorem Accepted.not_blank (h : Accepted styles) {c : Char} (hc : c ∈ styles) : isBlank c = false := by
  cases hb : isBlank c with
  | false => rfl
  | true => exact absurd (isSpace_of_isBlank hb) (by simp [(h.style hc).1])

theorem Accepted.withinLine (h : Accepted styles) : (ofStyles styles).WithinLine where
  styles hn := absurd (h.style hn).1 (by decide)
  comment := by simp [ofStyles]
  loud := by simp [ofStyles]

end Grammar

end Literate
