import Literate.Proofs.Title.LoudRun

namespace Literate

open Unicode

namespace Grammar

variable {styles : List Char}

def IsMark (mark : Text) : Prop :=
  mark.all isBlank = true ∨ ∃ indent signs loud gap, mark = indent ++ List.replicate (signs + 1) '#' ++ loud ++ gap ∧
    indent.all isBlank = true ∧ (loud = [] ∨ loud = ['!']) ∧ gap.all isBlank = true

theorem unsigned_signs {indent rest : Text} (hi : indent.all isBlank = true) (n : Nat) (hr : rest.head? ≠ some '#') :
    ((indent ++ List.replicate (n + 1) '#' ++ rest).dropWhile isBlank).head? = some '#' ∧
      unsigned (indent ++ List.replicate (n + 1) '#' ++ rest) = rest := by
  have hdrop : (indent ++ List.replicate (n + 1) '#' ++ rest).dropWhile isBlank = List.replicate (n + 1) '#' ++ rest := by
    rw [List.append_assoc, List.replicate_succ, List.cons_append]
    exact dropWhile_blank hi (by decide) _
  refine ⟨by rw [hdrop, List.replicate_succ]; rfl, ?_⟩
  rw [unsigned, hdrop, List.dropWhile_append_of_pos (by simp)]
  cases rest with
  | nil => rfl
  | cons c rest => exact List.dropWhile_cons_of_neg (by simpa using hr)

theorem head?_of_blank {gap : Text} (hg : gap.all isBlank = true) {c d : Char} (hd : isBlank d = false) (rest : Text)
    (h : (gap ++ c :: rest).head? = some d) : gap = [] ∧ c = d := by
  cases gap with
  | nil => exact ⟨rfl, by simpa using h⟩
  | cons b gap =>
    obtain rfl : b = d := by simpa using h
    simp [hd] at hg

theorem isMark_of_mem_markers {text rest : Text} {c : Char} {p : Split} (hs : c ≠ '#')
    (hp : p ∈ (ofStyles styles).markers text) (h : p.2 = c :: rest) :
    ∃ mark, text = mark ++ c :: rest ∧ mark.length = p.1 ∧ IsMark mark := by
  obtain ⟨mark, ht, hlen⟩ := isOf_of_mem_markers hp
  rw [h] at ht
  refine ⟨mark, ht, hlen, ?_⟩
  have hblank : ∀ front : Text, (front.takeWhile isBlank).all isBlank = true := fun front =>
    List.all_eq_true.mpr fun c hc => List.mem_takeWhile_imp hc
  by_cases hhead : (text.dropWhile isBlank).head? = some '#'
  · obtain ⟨indent, signs, hbody, hi⟩ := exists_signs hhead
    obtain ⟨n, others, hm, ho⟩ := markers_sign styles hhead
    rw [hm, List.mem_append] at hp
    have hp := hp.resolve_right fun hx => by
      have := ho p hx
      rw [h] at this
      exact hs (by simpa using this)
    obtain ⟨q, hq, rfl⟩ := List.mem_map.mp hp
    have hq2 : q.2.dropWhile isBlank = c :: rest := h
    have hgap : q.2 = q.2.takeWhile isBlank ++ c :: rest := by rw [← hq2, List.takeWhile_append_dropWhile]
    have hmark : ∀ loud : Text, unsigned text = loud ++ q.2 →
        mark = indent ++ List.replicate (signs + 1) '#' ++ loud ++ q.2.takeWhile isBlank := by
      intro loud hl
      rw [hl, ← List.append_assoc] at hbody
      have := ht.symm.trans (hbody.trans (congrArg (indent ++ List.replicate (signs + 1) '#' ++ loud ++ ·) hgap))
      rw [← List.append_assoc] at this
      exact List.append_cancel_right this
    refine .inr ?_
    by_cases hu : (unsigned text).head? = some '!'
    · cases hb : unsigned text with
      | nil => simp [hb] at hu
      | cons d tail =>
        obtain rfl : d = '!' := by simpa [hb] using hu
        rw [hb, louds_loud, List.mem_cons, List.mem_singleton] at hq
        rcases hq with rfl | rfl
        · exact ⟨indent, signs, ['!'], _, hmark ['!'] hb, hi, .inr rfl, hblank _⟩
        · exact ⟨indent, signs, [], _, hmark [] hb, hi, .inl rfl, hblank _⟩
    · rw [louds_quiet hu, List.mem_singleton] at hq
      obtain rfl := hq
      exact ⟨indent, signs, [], _, hmark [] rfl, hi, .inl rfl, hblank _⟩
  · obtain ⟨n, hm⟩ := markers_bare styles hhead
    rw [hm, List.mem_singleton] at hp
    have hrest : text.dropWhile isBlank = c :: rest := by rw [← h, hp]
    rw [← List.takeWhile_append_dropWhile (p := isBlank) (l := text), hrest] at ht
    exact .inl (List.append_cancel_right ht ▸ hblank text)

theorem getLast?_of_blank {front gap : Text} (hg : gap.all isBlank = true) (hne : gap ≠ []) :
    (front ++ gap).getLast? ≠ some '#' := by
  rw [List.getLast?_append_of_ne_nil _ hne]
  intro h
  have hblank := List.all_eq_true.mp hg '#' (List.mem_of_getLast? h)
  exact absurd hblank (by decide)

theorem withBlanks_rest (n : Nat) {c : Char} (hc : isBlank c = false) (rest : Text) :
    (withBlanks (n, c :: rest)).2 = c :: rest :=
  List.dropWhile_cons_of_neg (by simp [hc])

theorem IsMark.eq_signs {mark : Text} (h : IsMark mark) (hl : mark.getLast? = some '#') :
    ∃ indent signs, mark = indent ++ List.replicate (signs + 1) '#' ∧ indent.all isBlank = true := by
  rcases h with h | ⟨indent, signs, loud, gap, rfl, hi, hloud, hg⟩
  · exact absurd (List.all_eq_true.mp h '#' (List.mem_of_getLast? hl)) (by decide)
  · by_cases hgap : gap = []
    · subst hgap
      rcases hloud with rfl | rfl
      · exact ⟨indent, signs, by simp, hi⟩
      · simp at hl
    · exact absurd hl (getLast?_of_blank hg hgap)

theorem markers_signed (styles : List Char) {indent rest : Text} (hi : indent.all isBlank = true) (signs : Nat)
    (hr : rest.head? ≠ some '#') : ∃ n others, (ofStyles styles).markers (indent ++ List.replicate (signs + 1) '#' ++ rest) =
      ((ofStyles styles).louds rest).map (fun q => withBlanks (n + q.1, q.2)) ++ others := by
  obtain ⟨hsign, hu⟩ := unsigned_signs hi signs hr
  obtain ⟨n, others, hm, -⟩ := markers_sign styles hsign
  exact ⟨n, others, by rw [hm, hu]⟩

theorem markers_bang (styles : List Char) {indent : Text} (hi : indent.all isBlank = true) (signs : Nat) (rest : Text) :
    ∃ n others, (ofStyles styles).markers (indent ++ List.replicate (signs + 1) '#' ++ '!' :: rest) =
      withBlanks (n + 1, rest) :: withBlanks (n + 0, '!' :: rest) :: others := by
  obtain ⟨n, others, hm⟩ := markers_signed styles hi signs (show ('!' :: rest).head? ≠ some '#' by simp)
  exact ⟨n, others, by rw [hm, louds_loud]; rfl⟩

theorem exists_first_marker (styles : List Char) {mark : Text} (rest : Text) {c : Char} (hb : isBlank c = false) (hs : c ≠ '#')
    (hmark : IsMark mark) (hq : c = '!' → mark.getLast? ≠ some '#') :
    ∃ p others, (ofStyles styles).markers (mark ++ c :: rest) = p :: others ∧ p.2 = c :: rest := by
  rcases hmark with hmark | ⟨indent, signs, loud, gap, rfl, hi, hl, hg⟩
  · have hdrop := dropWhile_blank hmark hb rest
    have hhead : ((mark ++ c :: rest).dropWhile isBlank).head? ≠ some '#' := by rw [hdrop]; simpa using hs
    obtain ⟨n, hm⟩ := markers_bare styles hhead
    exact ⟨_, [], hm, hdrop⟩
  · have hdrop := dropWhile_blank hg hb rest
    have hhead : (loud ++ (gap ++ c :: rest)).head? ≠ some '#' := by
      intro h
      rcases hl with rfl | rfl
      · exact hs (head?_of_blank hg (by decide) rest h).2
      · simp at h
    obtain ⟨n, others, hm⟩ := markers_signed styles hi signs hhead
    rw [List.append_assoc, List.append_assoc, hm]
    rcases hl with rfl | rfl
    · have hquiet : (gap ++ c :: rest).head? ≠ some '!' := by
        intro h
        obtain ⟨rfl, rfl⟩ := head?_of_blank hg (by decide) rest h
        apply hq rfl
        rw [List.append_nil, List.append_nil, List.replicate_succ', ← List.append_assoc, List.getLast?_concat]
      exact ⟨withBlanks (n + 0, gap ++ c :: rest), others, by rw [List.nil_append, louds_quiet hquiet]; rfl, hdrop⟩
    · exact ⟨withBlanks (n + 1, gap ++ c :: rest), _, by rw [List.singleton_append, louds_loud]; rfl, hdrop⟩

theorem exists_mem_markers (styles : List Char) {mark : Text} (rest : Text) {c : Char} (hb : isBlank c = false) (hs : c ≠ '#')
    (hmark : IsMark mark) : ∃ p ∈ (ofStyles styles).markers (mark ++ c :: rest), p.2 = c :: rest := by
  by_cases hq : c = '!' ∧ mark.getLast? = some '#'
  · obtain ⟨rfl, hlast⟩ := hq
    obtain ⟨indent, signs, rfl, hi⟩ := hmark.eq_signs hlast
    obtain ⟨n, others, hm⟩ := markers_bang styles hi signs rest
    exact ⟨withBlanks (n + 0, '!' :: rest), by rw [hm]; simp, withBlanks_rest _ hb rest⟩
  · obtain ⟨p, others, hm, hp⟩ := exists_first_marker styles rest hb hs hmark fun hc hl => hq ⟨hc, hl⟩
    exact ⟨p, by rw [hm]; simp, hp⟩

theorem underline?_marked {body : Text} (h : Accepted styles) (hb : '\n' ∉ body) {u : Underline × Option Text}
    (hu : (ofStyles styles).underline? body = some u) : IsMark u.1.marker ∧ u.1.pad.all isBlank = true := by
  obtain ⟨p, hp, he⟩ := List.exists_of_findSome?_eq_some hu
  obtain ⟨⟨c, n, pad⟩, hr, rfl⟩ := Option.map_eq_some_iff.mp he
  obtain ⟨hc, hpos, htext, hpad⟩ := run?_parts hr
  obtain ⟨k, rfl⟩ : ∃ k, n = k + 1 := ⟨n - 1, by omega⟩
  have hrest := htext ((isOf_of_mem_markers hp).newline_not_mem hb)
  rw [List.replicate_succ, List.cons_append] at hrest
  obtain ⟨mark, hbody, hlen, hmark⟩ := isMark_of_mem_markers (h.style hc).2.2.1 hp hrest
  refine ⟨?_, hpad⟩
  have htake : body.take p.1 = mark := by rw [hbody, ← hlen, List.take_left]
  exact htake ▸ hmark

theorem underline?_of_run (h : Accepted styles) {mark pad : Text} {c : Char} (n : Nat) (hm : IsMark mark)
    (hc : c ∈ styles) (hp : pad.all isBlank = true) (hb : '\n' ∉ mark ++ (List.replicate (n + 1) c ++ pad)) :
    ((ofStyles styles).underline? (mark ++ (List.replicate (n + 1) c ++ pad))).isSome = true := by
  have hcons : List.replicate (n + 1) c ++ pad = c :: (List.replicate n c ++ pad) := by
    rw [List.replicate_succ, List.cons_append]
  obtain ⟨p, hmem, hrest⟩ :=
    exists_mem_markers styles (List.replicate n c ++ pad) (h.not_blank hc) (h.style hc).2.2.1 hm
  rw [← hcons] at hmem hrest
  have hn : '\n' ∉ List.replicate (n + 1) c ++ pad := fun hx => hb (List.mem_append_right _ hx)
  refine underline?_isSome_iff.mpr ⟨p, hmem, ?_⟩
  rw [hrest]
  exact (run?_isSome_iff h hn).mpr ⟨c, n, pad, rfl, hc, hp⟩

theorem newline_not_mem_written (h : Accepted styles) {marker pad : Text} {c : Char} (hc : c ∈ styles) (hmarker : '\n' ∉ marker)
    (hpad : '\n' ∉ pad) (width : Nat) : '\n' ∉ marker ++ (List.replicate width c ++ pad) := by
  simp only [List.mem_append, not_or]
  exact ⟨hmarker, fun hr => h.withinLine.styles (List.eq_of_mem_replicate hr ▸ hc), hpad⟩

theorem newline_not_mem_underline (h : Accepted styles) {body : Text} (hb : '\n' ∉ body) {u : Underline × Option Text}
    (hu : (ofStyles styles).underline? body = some u) {c : Char} (hc : c ∈ styles) (width : Nat) :
    '\n' ∉ u.1.marker ++ (List.replicate width c ++ u.1.pad) := by
  rw [← (underline?_parts hb hu).1, Underline.body] at hb
  simp only [List.mem_append, not_or] at hb
  exact newline_not_mem_written h hc hb.1.1 hb.2 width

theorem newline_not_mem_below (h : Accepted styles) {body : Text} (hb : '\n' ∉ body) {t : TitleLine}
    (ht : (ofStyles styles).titleLine? body = some t) {c : Char} (hc : c ∈ styles) (width : Nat) :
    '\n' ∉ t.marker ++ List.replicate width c := by
  rw [← (titleLine?_parts hb ht).1, TitleLine.body] at hb
  simp only [List.mem_append, not_or] at hb
  have hnew := newline_not_mem_written h hc hb.1.1 List.not_mem_nil width
  rwa [List.append_nil] at hnew

theorem underline?_resized (h : Accepted styles) {body : Text} (hb : '\n' ∉ body) {u : Underline × Option Text}
    (hu : (ofStyles styles).underline? body = some u) {n : Nat} (hn : 0 < n) :
    '\n' ∉ u.1.marker ++ (List.replicate n u.1.char ++ u.1.pad) ∧
      ((ofStyles styles).underline? (u.1.marker ++ (List.replicate n u.1.char ++ u.1.pad))).isSome = true := by
  obtain ⟨-, -, hchar⟩ := underline?_parts hb hu
  obtain ⟨hmark, hpad⟩ := underline?_marked h hb hu
  have hnew := newline_not_mem_underline h hb hu hchar n
  obtain ⟨k, rfl⟩ : ∃ k, n = k + 1 := ⟨n - 1, by omega⟩
  exact ⟨hnew, underline?_of_run h k hmark hchar hpad hnew⟩

theorem exists_of_titleLine? {g : Grammar} {body : Text} {t : TitleLine} (h : g.titleLine? body = some t) :
    ∃ q ∈ g.markers body, t.marker = body.take q.1 ∧ g.titleText? q.2 = some (t.title, t.pad) := by
  obtain ⟨p, hp, rfl⟩ := Option.map_eq_some_iff.mp h
  obtain ⟨q, hq, he⟩ := List.mem_filterMap.mp (List.mem_of_head? hp)
  split at he
  · simp at he
  · obtain ⟨⟨title, pad⟩, ht, rfl⟩ := Option.map_eq_some_iff.mp he
    exact ⟨q, hq, rfl, ht⟩

theorem titleLine?_marked {body : Text} {t : TitleLine} (ht : (ofStyles styles).titleLine? body = some t) :
    IsMark t.marker := by
  obtain ⟨q, hq, hmarker, htext⟩ := exists_of_titleLine? ht
  cases hrest : q.2 with
  | nil => simp [hrest, titleText?] at htext
  | cons c rest =>
    have hc : c ≠ '#' := by
      rintro rfl
      have hnone : (ofStyles styles).titleText? q.2 = none := titleText?_sign (by rw [hrest]; rfl)
      simp [hnone] at htext
    obtain ⟨mark, hbody, hlen, hmark⟩ := isMark_of_mem_markers hc hq hrest
    rw [hmarker, hbody, ← hlen, List.take_left]
    exact hmark

theorem IsMark.not_reserved {mark : Text} (h : IsMark mark) {c : Char} (hc : c ∈ mark) : [c] ∉ reserved := by
  have hchar : isBlank c = true ∨ c = '#' ∨ c = '!' := by
    rcases h with h | ⟨indent, signs, loud, gap, rfl, hi, hl, hg⟩
    · exact .inl (List.all_eq_true.mp h c hc)
    · rw [List.mem_append, List.mem_append, List.mem_append, List.mem_replicate] at hc
      rcases hc with ((hc | ⟨-, hc⟩) | hc) | hc
      · exact .inl (List.all_eq_true.mp hi c hc)
      · exact .inr (.inl hc)
      · rcases hl with rfl | rfl
        · simp at hc
        · exact .inr (.inr (List.mem_singleton.mp hc))
      · exact .inl (List.all_eq_true.mp hg c hc)
  intro hr
  simp only [reserved, List.mem_cons, List.cons.injEq, List.not_mem_nil, or_false, and_true] at hr
  rcases hr with rfl | rfl | rfl <;> exact absurd hchar (by decide)

end Grammar

end Literate
