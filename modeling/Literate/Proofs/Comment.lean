import Literate.Comment
import Literate.Proofs.Grammar.Marker

namespace Literate

open Unicode Split

namespace Grammar

variable {g : Grammar}

theorem doubled?_newline (hg : g.WithinLine) (text rest : Text) :
    g.doubled? (text ++ '\n' :: rest) = (g.doubled? text).map (extend ('\n' :: rest)) := by
  have hs : '\n' ∉ g.commentStem ++ [g.commentTail, g.commentTail] := by
    simp [hg.stem, Ne.symm hg.tail]
  rw [doubled?, doubled?, Text.isPrefixOf?_newline hs]
  cases (g.commentStem ++ [g.commentTail, g.commentTail]).isPrefixOf? text with
  | none => rfl
  | some tail =>
    simp only [Option.map_some, Text.isPrefixOf_newline hg.comment]
    by_cases ht : g.loud ≠ [] ∧ g.comment.isPrefixOf tail = true
    · rw [if_pos ht, if_pos ht]
      rfl
    · rw [if_neg ht, if_neg ht]
      rfl

theorem loudsOrNone_newline (hg : g.WithinLine) (text rest : Text) :
    g.loudsOrNone (text ++ '\n' :: rest) = (g.loudsOrNone text).map (extend ('\n' :: rest)) := by
  by_cases hl : g.loud = []
  · simp [loudsOrNone, hl, extend]
  · simp [loudsOrNone, hl, louds_newline hg]

theorem docMarker?_newline (hg : g.WithinLine) (text rest : Text) :
    g.docMarker? (text ++ '\n' :: rest) = (g.docMarker? text).map (extend ('\n' :: rest)) := by
  have hb : isBlank '\n' = false := by decide
  rw [docMarker?, docMarker?, splitsOf_newline hb, List.findSome?_map, List.map_findSome?]
  apply Text.findSome?_congr
  intro p _
  simp only [Function.comp_apply, extend, doubled?_newline hg]
  cases g.doubled? p.2 with
  | none => rfl
  | some sign =>
    simp only [Option.map_some, Option.bind_some, extend, loudsOrNone_newline hg, List.findSome?_map,
      List.map_findSome?]
    apply Text.findSome?_congr
    intro loud _
    simp only [Function.comp_apply, extend, Text.head?_any_newline hb]
    by_cases hl : loud.2.head?.any isBlank = true
    · rw [if_pos hl, if_pos hl, Option.map_some]
      exact congrArg some (withBlanks_extend (p.1 + sign.1 + loud.1, loud.2) rest)
    · rw [if_neg hl, if_neg hl, Option.map_none]

theorem isOf_of_doubled? {text : Text} {p : Split} (h : g.doubled? text = some p) : p.IsOf text ∧ 0 < p.1 := by
  rw [doubled?] at h
  cases hs : (g.commentStem ++ [g.commentTail, g.commentTail]).isPrefixOf? text with
  | none => simp [hs] at h
  | some rest =>
    simp only [hs] at h
    split at h
    · simp at h
    · obtain rfl := Option.some.inj h
      exact ⟨⟨_, (List.append_eq_of_isPrefixOf?_eq_some hs).symm, rfl⟩, by simp⟩

theorem isOf_of_mem_loudsOrNone {text : Text} {p : Split} (h : p ∈ g.loudsOrNone text) : p.IsOf text := by
  rw [loudsOrNone] at h
  split at h
  · obtain rfl := List.mem_singleton.mp h
    exact ⟨[], rfl, rfl⟩
  · exact isOf_of_mem_louds h

theorem isOf_of_docMarker? {text : Text} {p : Split} (h : g.docMarker? text = some p) :
    p.IsOf text ∧ 0 < p.1 := by
  obtain ⟨indent, hi, h⟩ := List.exists_of_findSome?_eq_some h
  obtain ⟨sign, hs, h⟩ := Option.bind_eq_some_iff.mp h
  obtain ⟨loud, hl, h⟩ := List.exists_of_findSome?_eq_some h
  obtain ⟨hsign, hpos⟩ := isOf_of_doubled? hs
  split at h
  · obtain rfl := Option.some.inj h
    have hof := ((isOf_of_mem_splitsOf hi).trans hsign).trans (isOf_of_mem_loudsOrNone hl)
    refine ⟨isOf_withBlanks hof, ?_⟩
    simp only [withBlanks]
    omega
  · simp at h

theorem docComment?_newline (hg : g.WithinLine) (n : Nat) (body rest : Text) :
    g.docComment? n (body ++ '\n' :: rest) = g.docComment? n body := by
  rw [docComment?, docComment?, docMarker?_newline hg, Option.map_map]
  cases hm : g.docMarker? body with
  | none => rfl
  | some p =>
    have hof := (isOf_of_docMarker? hm).1
    simp only [Option.map_some, Function.comp_apply, extend, hof.take_eq, Text.firstLine_newline]

theorem docComment?_parts {n : Nat} {body : Text} (hb : '\n' ∉ body) {d : DocComment}
    (h : g.docComment? n body = some d) : d.start = n ∧ d.marker ≠ [] ∧ d.stop = n + body.length := by
  obtain ⟨p, hp, rfl⟩ := Option.map_eq_some_iff.mp h
  obtain ⟨hof, hpos⟩ := isOf_of_docMarker? hp
  have hlen := congrArg List.length hof.take_append
  have hne : body ≠ [] := by
    rintro rfl
    obtain ⟨front, hf, hl⟩ := hof
    have : front = [] := (List.append_eq_nil_iff.mp hf.symm).1
    simp [this] at hl
    omega
  refine ⟨rfl, ?_, ?_⟩
  · simp only [ne_eq, List.take_eq_nil_iff, hne, or_false]
    omega
  · simp only [DocComment.stop, DocComment.markerStop, Text.firstLine_eq (hof.newline_not_mem hb)]
    rw [List.length_append] at hlen
    omega

theorem docComments_oneLine (hg : g.WithinLine) : Text.OneLine g.docComment? DocComment.stop where
  newline n body rest _ := docComment?_newline hg n body rest
  stop_le _ _ _ hb h := (docComment?_parts hb h).2.2.le

end Grammar

end Literate
