import Mathlib.Data.List.TakeWhile
import Literate.Proofs.Text.Lines
import Literate.Text.Search

namespace Literate

namespace Text

variable {α : Type}

theorem takeWhile_newline {p : Char → Bool} (hp : p '\n' = false) (text rest : Text) :
    (text ++ '\n' :: rest).takeWhile p = text.takeWhile p := by
  induction text with
  | nil => simp [hp]
  | cons c text ih => by_cases hc : p c = true <;> simp [hc, ih]

theorem dropWhile_newline {p : Char → Bool} (hp : p '\n' = false) (text rest : Text) :
    (text ++ '\n' :: rest).dropWhile p = text.dropWhile p ++ '\n' :: rest := by
  induction text with
  | nil => simp [hp]
  | cons c text ih => by_cases hc : p c = true <;> simp [hc, ih]

theorem isPrefixOf?_newline {sign : Text} (hs : '\n' ∉ sign) (text rest : Text) :
    sign.isPrefixOf? (text ++ '\n' :: rest) = (sign.isPrefixOf? text).map (· ++ '\n' :: rest) := by
  induction sign generalizing text with
  | nil => simp [List.isPrefixOf?]
  | cons c sign ih =>
    obtain ⟨hc, hs⟩ := not_or.mp (List.mem_cons.not.mp hs)
    cases text with
    | nil => simp [List.isPrefixOf?, Ne.symm hc]
    | cons d text =>
      by_cases he : c = d
      · simpa [List.isPrefixOf?, he] using ih hs text
      · simp [List.isPrefixOf?, he]

theorem isPrefixOf_newline {sign : Text} (hs : '\n' ∉ sign) (text rest : Text) :
    sign.isPrefixOf (text ++ '\n' :: rest) = sign.isPrefixOf text := by
  rw [← List.isSome_isPrefixOf?_eq_isPrefixOf, ← List.isSome_isPrefixOf?_eq_isPrefixOf,
    isPrefixOf?_newline hs, Option.isSome_map]

theorem head?_any_newline {p : Char → Bool} (hp : p '\n' = false) (text rest : Text) :
    (text ++ '\n' :: rest).head?.any p = text.head?.any p := by
  cases text with
  | nil => simp [hp]
  | cons c text => rfl

theorem findSome?_congr {β : Type} {l : List α} {p q : α → Option β} (h : ∀ x ∈ l, p x = q x) :
    l.findSome? p = l.findSome? q := by
  rw [← List.head?_filterMap, ← List.head?_filterMap, List.filterMap_congr h]

theorem firstLine_newline (text rest : Text) : firstLine (text ++ '\n' :: rest) = firstLine text :=
  takeWhile_newline (by simp) text rest

theorem firstLine_eq {body : Text} (h : '\n' ∉ body) : firstLine body = body :=
  List.takeWhile_eq_self_iff.mpr fun _ hc => decide_eq_true fun he => h (he ▸ hc)

theorem afterLine?_newline {body : Text} (h : '\n' ∉ body) (rest : Text) :
    afterLine? (body ++ '\n' :: rest) = some rest := by
  have hd : body.dropWhile (· ≠ '\n') = [] :=
    List.dropWhile_eq_nil_iff.mpr fun _ hc => decide_eq_true fun he => h (he ▸ hc)
  rw [afterLine?, dropWhile_newline (by simp), hd]
  rfl

theorem afterLine?_last {body : Text} (h : '\n' ∉ body) : afterLine? body = none := by
  have hd : body.dropWhile (· ≠ '\n') = [] :=
    List.dropWhile_eq_nil_iff.mpr fun _ hc => decide_eq_true fun he => h (he ▸ hc)
  rw [afterLine?, hd]
  rfl

theorem tailsFrom_last {body : Text} (h : '\n' ∉ body) (n : Nat) : tailsFrom n body = [] := by
  induction body generalizing n with
  | nil => rfl
  | cons c body ih =>
    obtain ⟨hc, hb⟩ := not_or.mp (List.mem_cons.not.mp h)
    rw [tailsFrom, if_neg (Ne.symm hc), ih hb]

theorem tailsFrom_line {body : Text} (h : '\n' ∉ body) (n : Nat) (rest : Text) :
    tailsFrom n (body ++ '\n' :: rest) =
      (n + body.length + 1, rest) :: tailsFrom (n + body.length + 1) rest := by
  induction body generalizing n with
  | nil => simp [tailsFrom]
  | cons c body ih =>
    obtain ⟨hc, hb⟩ := not_or.mp (List.mem_cons.not.mp h)
    have he : n + 1 + body.length + 1 = n + (c :: body).length + 1 := by
      simp only [List.length_cons]
      omega
    rw [List.cons_append, tailsFrom, if_neg (Ne.symm hc), ih hb, he]

theorem filter_start_of_le {first n : Nat} (h : first ≤ n) (text : Text) :
    (linesFrom n text).filter (first ≤ ·.start) = linesFrom n text :=
  List.filter_eq_self.mpr fun _ hl => decide_eq_true (h.trans (le_start_of_mem hl))

theorem filter_start_suffix (first n : Nat) (text : Text) :
    (linesFrom n text).filter (first ≤ ·.start) <:+ linesFrom n text := by
  by_cases hf : first ≤ n
  · exact ⟨[], by rw [filter_start_of_le hf, List.nil_append]⟩
  · induction text using byLine generalizing n with
    | last body hb =>
      rw [linesFrom_last hb, List.filter_cons_of_neg (by simpa using hf)]
      exact List.nil_suffix
    | line body rest hb ih =>
      rw [linesFrom_line hb, List.filter_cons_of_neg (by simpa using hf)]
      refine .trans ?_ (List.suffix_cons _ _)
      by_cases hnext : first ≤ n + body.length + 1
      · exact ⟨[], by rw [filter_start_of_le hnext, List.nil_append]⟩
      · exact ih _ hnext

structure OneLine (read? : Nat → Text → Option α) (stop : α → Nat) : Prop where
  newline : ∀ n body rest, '\n' ∉ body → read? n (body ++ '\n' :: rest) = read? n body
  stop_le : ∀ n body found, '\n' ∉ body → read? n body = some found → stop found ≤ n + body.length

namespace OneLine

variable {read? : Nat → Text → Option α} {stop : α → Nat}

theorem collect_eq (h : OneLine read? stop) (first n : Nat) (text : Text) :
    collect read? stop first ((n, text) :: tailsFrom n text) =
      ((linesFrom n text).filter (first ≤ ·.start)).filterMap fun l => read? l.start l.body := by
  induction text using byLine generalizing first n with
  | last body hb =>
    rw [linesFrom_last hb, tailsFrom_last hb]
    by_cases hf : first ≤ n
    · cases hr : read? n body <;> simp [collect, hf, hr]
    · simp [collect, hf]
  | line body rest hb ih =>
    rw [linesFrom_line hb, tailsFrom_line hb, collect]
    by_cases hf : first ≤ n
    · have hb' := filter_start_of_le (show first ≤ n + body.length + 1 by omega) rest
      rw [if_pos hf, h.newline n body rest hb, List.filter_cons_of_pos (by simpa using hf), hb',
        List.filterMap_cons]
      cases hr : read? n body with
      | none => simp only [ih, hb']
      | some found =>
        have hs := h.stop_le n body found hb hr
        simp only [ih, filter_start_of_le (show stop found ≤ n + body.length + 1 by omega)]
    · rw [if_neg hf, List.filter_cons_of_neg (by simpa using hf)]
      exact ih first _

theorem searchLines_eq (h : OneLine read? stop) (text : Text) (first last : Nat) :
    searchLines read? stop text first last =
      ((lines (text.take last)).filter (first ≤ ·.start)).filterMap fun l => read? l.start l.body :=
  h.collect_eq first 0 (text.take last)

theorem exists_of_mem_searchLines (h : OneLine read? stop) {text : Text} {first last : Nat} {found : α}
    (hf : found ∈ searchLines read? stop text first last) :
    ∃ l ∈ lines (text.take last), first ≤ l.start ∧ read? l.start l.body = some found := by
  rw [h.searchLines_eq] at hf
  obtain ⟨l, hl, hread⟩ := List.mem_filterMap.mp hf
  obtain ⟨hl, hfirst⟩ := List.mem_filter.mp hl
  exact ⟨l, hl, by simpa using hfirst, hread⟩

end OneLine

end Text

end Literate
