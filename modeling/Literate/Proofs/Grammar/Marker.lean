import Mathlib.Data.List.Basic
import Literate.Proofs.Text.Reading
import Literate.Grammar.Marker

namespace Literate

open Unicode

namespace Split

def extend (w : Text) (p : Split) : Split := (p.1, p.2 ++ w)

def IsOf (p : Split) (text : Text) : Prop := ∃ front : Text, text = front ++ p.2 ∧ front.length = p.1

theorem IsOf.trans {p q : Split} {text : Text} (hp : p.IsOf text) (hq : q.IsOf p.2) :
    IsOf (p.1 + q.1, q.2) text := by
  obtain ⟨a, ha, hal⟩ := hp
  obtain ⟨b, hb, hbl⟩ := hq
  exact ⟨a ++ b, by rw [ha, hb, List.append_assoc], by simp [hal, hbl]⟩

theorem IsOf.take_append {p : Split} {text : Text} (h : p.IsOf text) : text.take p.1 ++ p.2 = text := by
  obtain ⟨front, ht, hl⟩ := h
  rw [ht, ← hl, List.take_left]

theorem IsOf.take_eq {p : Split} {text : Text} (h : p.IsOf text) (w : Text) :
    (text ++ w).take p.1 = text.take p.1 := by
  obtain ⟨front, ht, hl⟩ := h
  rw [ht, ← hl, List.append_assoc, List.take_left, List.take_left]

theorem IsOf.newline_not_mem {p : Split} {text : Text} (h : p.IsOf text) (hn : '\n' ∉ text) : '\n' ∉ p.2 := by
  obtain ⟨front, ht, -⟩ := h
  exact fun hm => hn (ht ▸ List.mem_append_right front hm)

end Split

open Split

theorem splitsFrom_newline {p : Char → Bool} (hp : p '\n' = false) (taken : Nat) (fewer : List Split)
    (text rest : Text) :
    splitsFrom p taken (fewer.map (extend ('\n' :: rest))) (text ++ '\n' :: rest) =
      (splitsFrom p taken fewer text).map (extend ('\n' :: rest)) := by
  induction text generalizing taken fewer with
  | nil => simp [splitsFrom, hp, extend]
  | cons c text ih =>
    by_cases hc : p c = true
    · simpa [splitsFrom, hc, extend] using ih (taken + 1) ((taken, c :: text) :: fewer)
    · simp [splitsFrom, hc, extend]

theorem splitsOf_newline {p : Char → Bool} (hp : p '\n' = false) (text rest : Text) :
    splitsOf p (text ++ '\n' :: rest) = (splitsOf p text).map (extend ('\n' :: rest)) :=
  splitsFrom_newline hp 0 [] text rest

theorem mem_splitsFrom {p : Char → Bool} {taken : Nat} {fewer : List Split} {text : Text} {q : Split}
    (h : q ∈ splitsFrom p taken fewer text) :
    q ∈ fewer ∨ ∃ front : Text, text = front ++ q.2 ∧ q.1 = taken + front.length := by
  induction text generalizing taken fewer with
  | nil =>
    rcases List.mem_cons.mp h with rfl | h
    · exact .inr ⟨[], rfl, rfl⟩
    · exact .inl h
  | cons c text ih =>
    by_cases hc : p c = true
    · rw [splitsFrom, if_pos hc] at h
      rcases ih h with hq | ⟨front, rfl, hl⟩
      · rcases List.mem_cons.mp hq with rfl | hq
        · exact .inr ⟨[], rfl, rfl⟩
        · exact .inl hq
      · refine .inr ⟨c :: front, rfl, ?_⟩
        simp only [List.length_cons]
        omega
    · rw [splitsFrom, if_neg hc] at h
      rcases List.mem_cons.mp h with rfl | h
      · exact .inr ⟨[], rfl, rfl⟩
      · exact .inl h

theorem isOf_of_mem_splitsOf {p : Char → Bool} {text : Text} {q : Split} (h : q ∈ splitsOf p text) :
    q.IsOf text := by
  rcases mem_splitsFrom h with hn | ⟨front, ht, hl⟩
  · exact absurd hn List.not_mem_nil
  · exact ⟨front, ht, by omega⟩

theorem withBlanks_extend (p : Split) (rest : Text) :
    Grammar.withBlanks (p.extend ('\n' :: rest)) = extend ('\n' :: rest) (Grammar.withBlanks p) := by
  have hb : isBlank '\n' = false := by decide
  simp only [Grammar.withBlanks, extend, Text.takeWhile_newline hb, Text.dropWhile_newline hb]

theorem isOf_withBlanks {p : Split} {text : Text} (h : p.IsOf text) : (Grammar.withBlanks p).IsOf text := by
  have hq : IsOf ((p.2.takeWhile isBlank).length, p.2.dropWhile isBlank) p.2 :=
    ⟨p.2.takeWhile isBlank, List.takeWhile_append_dropWhile.symm, rfl⟩
  exact h.trans hq

namespace Grammar

structure WithinLine (g : Grammar) : Prop where
  styles : '\n' ∉ g.styles
  comment : '\n' ∉ g.comment
  loud : '\n' ∉ g.loud

variable {g : Grammar}

theorem WithinLine.stem (hg : g.WithinLine) : '\n' ∉ g.commentStem :=
  fun h => hg.comment ((List.dropLast_sublist _).subset h)

theorem WithinLine.tail (hg : g.WithinLine) : g.commentTail ≠ '\n' := by
  intro h
  rcases List.eq_nil_or_concat g.comment with hn | ⟨stem, c, hc⟩
  · simp [commentTail, hn] at h
  · have hl : g.commentTail = c := by simp [commentTail, hc]
    exact hg.comment (by simp [hc, ← hl, h])

theorem comments_newline (hg : g.WithinLine) (text rest : Text) :
    g.comments (text ++ '\n' :: rest) = (g.comments text).map (extend ('\n' :: rest)) := by
  rw [comments, comments, Text.isPrefixOf?_newline hg.stem]
  cases g.commentStem.isPrefixOf? text with
  | none => rfl
  | some tail =>
    have hc : decide ('\n' = g.commentTail) = false := decide_eq_false (Ne.symm hg.tail)
    have hn : splitsOf (· = g.commentTail) (tail ++ '\n' :: rest) =
        (splitsOf (· = g.commentTail) tail).map (extend ('\n' :: rest)) := splitsOf_newline hc tail rest
    simp only [Option.map_some, runsOf, hn, ← List.map_dropLast, List.map_map]
    rfl

theorem louds_newline (hg : g.WithinLine) (text rest : Text) :
    g.louds (text ++ '\n' :: rest) = (g.louds text).map (extend ('\n' :: rest)) := by
  have hd : '\n' ∉ g.loud.dropLast := fun h => hg.loud ((List.dropLast_sublist _).subset h)
  rw [louds, louds, Text.isPrefixOf?_newline hd, Text.isPrefixOf?_newline hg.loud]
  cases g.loud.dropLast.isPrefixOf? text with
  | none => rfl
  | some tail => cases g.loud.isPrefixOf? text <;> rfl

theorem signs_newline (hg : g.WithinLine) (text rest : Text) :
    g.signs (text ++ '\n' :: rest) = (g.signs text).map (extend ('\n' :: rest)) := by
  rw [signs, signs, comments_newline hg]
  by_cases hl : g.loud = []
  · rw [if_pos hl, if_pos hl, List.map_reverse]
  · rw [if_neg hl, if_neg hl, List.flatMap_map, List.map_flatMap]
    congr 1
    funext p
    simp only [extend, louds_newline hg, List.map_map]
    rfl

theorem signed_newline (hg : g.WithinLine) (p : Split) (rest : Text) :
    g.signed (p.extend ('\n' :: rest)) = (g.signed p).map (extend ('\n' :: rest)) := by
  simp only [signed, extend, signs_newline hg, List.map_map]
  congr 1
  funext q
  exact withBlanks_extend (p.1 + q.1, q.2) rest

theorem markers_newline (hg : g.WithinLine) (text rest : Text) :
    g.markers (text ++ '\n' :: rest) = (g.markers text).map (extend ('\n' :: rest)) := by
  rw [markers, markers, splitsOf_newline (show isBlank '\n' = false by decide)]
  cases splitsOf isBlank text with
  | nil => rfl
  | cons bare fewer =>
    simp only [List.map_cons, List.map_append, List.map_flatMap, List.flatMap_map, signed_newline hg]

theorem isOf_of_mem_comments {text : Text} {q : Split} (h : q ∈ g.comments text) : q.IsOf text := by
  rw [comments] at h
  cases hp : g.commentStem.isPrefixOf? text with
  | none => simp [hp] at h
  | some rest =>
    simp only [hp, List.mem_map] at h
    obtain ⟨r, hr, rfl⟩ := h
    have ht : g.commentStem ++ rest = text := List.append_eq_of_isPrefixOf?_eq_some hp
    have hs : IsOf (g.commentStem.length, rest) text := ⟨g.commentStem, ht.symm, rfl⟩
    exact hs.trans (isOf_of_mem_splitsOf ((List.dropLast_sublist _).subset hr))

theorem isOf_of_mem_louds {text : Text} {q : Split} (h : q ∈ g.louds text) : q.IsOf text := by
  rw [louds] at h
  cases hd : g.loud.dropLast.isPrefixOf? text with
  | none => simp [hd] at h
  | some rest =>
    have hr : IsOf (g.loud.dropLast.length, rest) text :=
      ⟨g.loud.dropLast, (List.append_eq_of_isPrefixOf?_eq_some hd).symm, rfl⟩
    cases hl : g.loud.isPrefixOf? text with
    | none =>
      simp only [hd, hl, List.mem_singleton] at h
      exact h ▸ hr
    | some quiet =>
      simp only [hd, hl, List.mem_cons, List.not_mem_nil, or_false] at h
      rcases h with rfl | rfl
      · exact ⟨g.loud, (List.append_eq_of_isPrefixOf?_eq_some hl).symm, rfl⟩
      · exact hr

theorem isOf_of_mem_signs {text : Text} {q : Split} (h : q ∈ g.signs text) : q.IsOf text := by
  rw [signs] at h
  by_cases hl : g.loud = []
  · rw [if_pos hl, List.mem_reverse] at h
    exact isOf_of_mem_comments h
  · rw [if_neg hl, List.mem_flatMap] at h
    obtain ⟨p, hp, hq⟩ := h
    obtain ⟨r, hr, rfl⟩ := List.mem_map.mp hq
    exact (isOf_of_mem_comments hp).trans (isOf_of_mem_louds hr)

theorem isOf_of_mem_signed {text : Text} {p q : Split} (hp : p.IsOf text) (h : q ∈ g.signed p) :
    q.IsOf text := by
  obtain ⟨r, hr, rfl⟩ := List.mem_map.mp h
  exact isOf_withBlanks (hp.trans (isOf_of_mem_signs hr))

theorem isOf_of_mem_markers {text : Text} {q : Split} (h : q ∈ g.markers text) : q.IsOf text := by
  rw [markers] at h
  cases hs : splitsOf isBlank text with
  | nil => simp [hs] at h
  | cons bare fewer =>
    have hof : ∀ p ∈ bare :: fewer, p.IsOf text := fun p hp => isOf_of_mem_splitsOf (hs ▸ hp)
    simp only [hs, List.mem_append, List.mem_cons, List.mem_flatMap] at h
    rcases h with h | rfl | ⟨p, hp, h⟩
    · exact isOf_of_mem_signed (hof bare (by simp)) h
    · exact hof q (by simp)
    · exact isOf_of_mem_signed (hof p (by simp [hp])) h

end Grammar

end Literate
