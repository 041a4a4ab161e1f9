import Literate.Proofs.Comment
import Literate.Proofs.Title.Mark

namespace Literate

open Unicode

def TitleLine.TakesLoudMark (t : TitleLine) : Prop :=
  ∃ indent c rest, t.marker = indent ++ ['#', '#'] ∧ indent.all isBlank = true ∧ t.title ++ t.pad = '!' :: c :: rest ∧
    isBlank c = true

namespace Grammar

variable {styles : List Char} {text : Text} {p : Split}

theorem doubled?_eq_some {q : Split} (h : (ofStyles styles).doubled? text = some q) :
    text = ['#', '#'] ++ q.2 ∧ q.1 = 2 := by
  rw [doubled?] at h
  have hsign : (ofStyles styles).commentStem ++ [(ofStyles styles).commentTail, (ofStyles styles).commentTail] =
      ['#', '#'] := rfl
  rw [hsign] at h
  cases hs : ['#', '#'].isPrefixOf? text with
  | none => simp [hs] at h
  | some rest =>
    simp only [hs] at h
    split at h
    · simp at h
    · obtain rfl := Option.some.inj h
      exact ⟨(List.append_eq_of_isPrefixOf?_eq_some hs).symm, rfl⟩

theorem mem_loudsOrNone {q : Split} (h : q ∈ (ofStyles styles).loudsOrNone text) (hb : q.2.head?.any isBlank = true) :
    ∃ loud, (loud = [] ∨ loud = ['!']) ∧ text = loud ++ q.2 ∧ q.1 = loud.length := by
  have hloud : ¬(ofStyles styles).loud = [] := by simp [ofStyles]
  rw [loudsOrNone, if_neg hloud] at h
  by_cases hhead : text.head? = some '!'
  · obtain ⟨tail, rfl⟩ := List.head?_eq_some_iff.mp hhead
    rw [louds_loud, List.mem_cons, List.mem_singleton] at h
    rcases h with rfl | rfl
    · exact ⟨['!'], .inr rfl, rfl, rfl⟩
    · simp [isBlank] at hb
  · rw [louds_quiet hhead, List.mem_singleton] at h
    subst h
    exact ⟨[], .inl rfl, rfl, rfl⟩

theorem mem_splitsOf_sign {q : Split} (h : q ∈ splitsOf isBlank text) (hs : q.2.head? = some '#') :
    ∃ indent : Text, text = indent ++ q.2 ∧ indent.all isBlank = true ∧ q.1 = indent.length := by
  obtain ⟨more, he, hm⟩ := splitsOf_eq_cons isBlank text
  rw [he, List.mem_cons] at h
  rcases h with rfl | h
  · exact ⟨text.takeWhile isBlank, List.takeWhile_append_dropWhile.symm,
      List.all_eq_true.mpr fun c hc => List.mem_takeWhile_imp hc, rfl⟩
  · obtain ⟨c, hc, hb⟩ := hm q h
    obtain rfl : '#' = c := by simpa [hs] using hc
    exact absurd hb (by decide)

theorem docMarker?_shape (h : (ofStyles styles).docMarker? text = some p) :
    ∃ indent loud gap, text = indent ++ ['#', '#'] ++ loud ++ gap ++ p.2 ∧
      p.1 = (indent ++ ['#', '#'] ++ loud ++ gap).length ∧ indent.all isBlank = true ∧ (loud = [] ∨ loud = ['!']) ∧
      gap.all isBlank = true ∧ gap ≠ [] ∧ p.2.head?.any isBlank = false := by
  obtain ⟨bare, hi, h⟩ := List.exists_of_findSome?_eq_some h
  obtain ⟨sign, hs, h⟩ := Option.bind_eq_some_iff.mp h
  obtain ⟨q, hl, h⟩ := List.exists_of_findSome?_eq_some h
  split at h
  · rename_i hblank
    obtain rfl := Option.some.inj h
    obtain ⟨hdouble, hsign⟩ := doubled?_eq_some hs
    obtain ⟨indent, rfl, hindent, hlead⟩ := mem_splitsOf_sign hi (by rw [hdouble]; rfl)
    obtain ⟨loud, hloud, htail, hq⟩ := mem_loudsOrNone hl hblank
    have hrest : q.2.takeWhile isBlank ++ q.2.dropWhile isBlank = q.2 := List.takeWhile_append_dropWhile
    refine ⟨indent, loud, q.2.takeWhile isBlank, ?_, ?_, hindent, hloud,
      List.all_eq_true.mpr fun c hc => List.mem_takeWhile_imp hc, ?_, ?_⟩
    · rw [hdouble, htail]
      simp only [withBlanks, List.append_assoc, hrest]
    · simp only [withBlanks, hlead, hsign, hq, List.length_append, List.length_cons, List.length_nil]
    · cases hq2 : q.2 with
      | nil => simp [hq2] at hblank
      | cons c rest =>
        have hc : isBlank c = true := by simpa [hq2] using hblank
        simp [hc]
    · cases hd : q.2.dropWhile isBlank with
      | nil => simp [withBlanks, hd]
      | cons c rest =>
        have hc := List.head_dropWhile_not isBlank (show q.2.dropWhile isBlank ≠ [] by simp [hd])
        simpa [withBlanks, hd] using hc
  · simp at h

theorem docMarker?_of_loud (styles : List Char) {indent : Text} (rest : Text) {c : Char} (hi : indent.all isBlank = true)
    (hc : isBlank c = true) : ∃ p, (ofStyles styles).docMarker? (indent ++ ['#', '#'] ++ '!' :: c :: rest) = some p ∧
      indent.length + 3 < p.1 := by
  have hassoc : indent ++ ['#', '#'] ++ '!' :: c :: rest = indent ++ '#' :: '#' :: '!' :: c :: rest := by simp
  obtain ⟨more, he, -⟩ := splitsOf_eq_cons isBlank (indent ++ '#' :: '#' :: '!' :: c :: rest)
  have hdrop : (indent ++ '#' :: '#' :: '!' :: c :: rest).dropWhile isBlank = '#' :: '#' :: '!' :: c :: rest :=
    dropWhile_blank hi (by decide) _
  have htake : (indent ++ '#' :: '#' :: '!' :: c :: rest).takeWhile isBlank = indent := by
    rw [List.takeWhile_append_of_pos (List.all_eq_true.mp hi), List.takeWhile_cons_of_neg (by decide), List.append_nil]
  have hdouble : (ofStyles styles).doubled? ('#' :: '#' :: '!' :: c :: rest) = some (2, '!' :: c :: rest) := by
    simp [doubled?, commentStem, commentTail, ofStyles, List.isPrefixOf?, List.isPrefixOf]
  have hlouds : (ofStyles styles).loudsOrNone ('!' :: c :: rest) = [(1, c :: rest), (0, '!' :: c :: rest)] := by
    rw [loudsOrNone, if_neg (by simp [ofStyles]), louds_loud]
  refine ⟨withBlanks (indent.length + 2 + 1, c :: rest), ?_, ?_⟩
  · rw [hassoc, docMarker?, he, htake, hdrop, List.findSome?_cons]
    simp only [hdouble, Option.bind_some, hlouds, List.findSome?_cons]
    simp [hc]
  · simp only [withBlanks, List.takeWhile_cons_of_pos hc, List.length_cons]
    omega

theorem dropWhile_gap {gap rest : Text} (hg : gap.all isBlank = true) (hr : rest.head?.any isBlank = false) :
    (gap ++ rest).dropWhile isBlank = rest := by
  rw [List.dropWhile_append_of_pos (List.all_eq_true.mp hg)]
  cases rest with
  | nil => rfl
  | cons c rest => exact List.dropWhile_cons_of_neg (by simpa using hr)

theorem titleMarker_of_docMarker {t : TitleLine} (hb : '\n' ∉ text) (h : (ofStyles styles).docMarker? text = some p)
    (ht : (ofStyles styles).titleLine? text = some t) : t.marker.length = p.1 ∨ t.TakesLoudMark := by
  obtain ⟨indent, loud, gap, htext, hlen, hi, hl, hg, hne, hrest⟩ := docMarker?_shape h
  obtain ⟨q, hq, hmarker, htitle⟩ := exists_of_titleLine? ht
  obtain ⟨front, hfront, hfl⟩ := isOf_of_mem_markers hq
  have hmark : t.marker = front := by rw [hmarker, hfront, ← hfl, List.take_left]
  obtain ⟨c, gap, rfl⟩ := List.exists_cons_of_ne_nil hne
  have hc : isBlank c = true := List.all_eq_true.mp hg c List.mem_cons_self
  have hhead : (loud ++ (c :: gap ++ p.2)).head? ≠ some '#' := by
    intro hx
    rcases hl with rfl | rfl
    · obtain rfl : c = '#' := by simpa using hx
      exact absurd hc (by decide)
    · simp at hx
  have hsigned : text = indent ++ List.replicate (1 + 1) '#' ++ (loud ++ (c :: gap ++ p.2)) := by
    rw [htext, List.append_assoc, List.append_assoc]
    rfl
  have hunsigned := unsigned_signs hi 1 hhead
  rw [← hsigned] at hunsigned
  obtain ⟨hsign, hu⟩ := hunsigned
  obtain ⟨n, others, hm, ho⟩ := markers_sign styles hsign
  rw [hm, List.mem_append, hu] at hq
  have hq := hq.resolve_right fun hx => by simp [titleText?_sign (ho q hx)] at htitle
  have hsame : q.2 = p.2 → t.marker.length = p.1 := by
    intro he
    have hparts := hfront.symm.trans htext
    rw [he] at hparts
    rw [hmark, List.append_cancel_right hparts, hlen]
  obtain ⟨r, hr, rfl⟩ := List.mem_map.mp hq
  rcases hl with rfl | rfl
  · have hquiet : ([] ++ (c :: gap ++ p.2)).head? ≠ some '!' := by
      intro hx
      obtain rfl : c = '!' := by simpa using hx
      exact absurd hc (by decide)
    rw [louds_quiet hquiet, List.mem_singleton] at hr
    subst hr
    exact .inl (hsame (dropWhile_gap hg hrest))
  · rw [List.singleton_append, louds_loud, List.mem_cons, List.mem_singleton] at hr
    rcases hr with rfl | rfl
    · exact .inl (hsame (dropWhile_gap hg hrest))
    · have hq2 : (withBlanks (n + 0, '!' :: (c :: gap ++ p.2))).2 = '!' :: (c :: gap ++ p.2) :=
        List.dropWhile_cons_of_neg (show ¬isBlank '!' = true by decide)
      rw [hq2] at hfront htitle
      refine .inr ⟨indent, c, gap ++ p.2, ?_, hi, ?_, hc⟩
      · have hparts := hfront.symm.trans hsigned
        rw [List.singleton_append] at hparts
        rw [hmark, List.append_cancel_right hparts]
        rfl
      · have hline : '\n' ∉ '!' :: (c :: gap ++ p.2) := fun hx => hb (hfront ▸ List.mem_append_right _ hx)
        rw [(titleText?_parts htitle).1, Text.firstLine_eq hline]
        rfl

end Grammar

end Literate
