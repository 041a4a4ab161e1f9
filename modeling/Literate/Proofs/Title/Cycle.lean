import Literate.Proofs.Doctest.Edited
import Literate.Proofs.Session.Resize

namespace Literate

open Unicode

namespace Grammar

variable {g : Grammar} {styles : List Char} {text : Text} {l : Line}

theorem unreserved_of_blank {c : Char} (hc : isBlank c = true) : [c] ∉ reserved := by
  intro h
  have hlead : (ofStyles []).leads c = true := leads_iff.mpr (.inr hc)
  simp [reserved_not_leads h] at hlead

theorem promptStop_le (hb : '\n' ∉ l.body) {d : DoctestLine} (h : g.doctest? l = some d) : d.promptStop ≤ l.stop := by
  have hstop : d.stop = l.stop := doctestFrom?_stop hb h
  have hpayload : d.promptStop ≤ d.payloadStart := Nat.le_add_right _ _
  have hend : d.payloadStart ≤ d.stop := Nat.le_add_right _ _
  omega

theorem promptStop_le_of_mem {above below : List Line} (h : text.lines = above ++ l :: below) {k : Line}
    (hk : k ∈ above ++ [l]) {d : DoctestLine} (hd : g.doctest? k = some d) : d.promptStop ≤ l.stop := by
  have hlines : Text.linesFrom 0 text = (above ++ [l]) ++ below := by rw [← Text.lines_eq_linesFrom, h]; simp
  have hprompt := promptStop_le (Text.newline_not_mem_body hlines (List.mem_append_left _ hk)) hd
  rcases List.mem_append.mp hk with hk | hk
  · have hapart := (Text.stop_lt_start (n := 0) h).1 k hk
    have hline := l.start_le_stop
    omega
  · rwa [List.mem_singleton.mp hk] at hprompt

theorem doctest?_of_unreserved (hb : '\n' ∉ l.body) (h : ∀ c ∈ l.body, [c] ∉ reserved) : g.doctest? l = none := by
  cases hd : g.doctest? l with
  | none => rfl
  | some d =>
    have hbody : d.body = l.body := (doctestFrom?_parts hb hd).2
    obtain ⟨c, hc, -⟩ := promptAt?_head (promptAt?_append d.prompt [])
    refine absurd (Prompt.reserved_of_mem hc) (h c ?_)
    rw [← hbody, DoctestLine.body]
    simp [hc]

end Grammar

namespace TextEdit

variable {g : Grammar} {text : Text} {e : TextEdit} {above below : List Line}

theorem makesNoPrompt_of_lines (hg : g.WithinLine) (mids : List Line) (h : (e.apply text).lines = above ++ (mids ++ below))
    (habove : ∀ l ∈ above, ∀ d, g.doctest? l = some d → d.promptStop ≤ text.offset e.start)
    (hmids : ∀ l ∈ mids, g.doctest? l = none)
    (hbelow : ∀ l ∈ below, text.offset e.start + e.text.length < l.start) : e.MakesNoPrompt g text := by
  intro start stop hp
  obtain ⟨l, hl, d, hd, rfl, rfl⟩ := (Grammar.prompts_iff_line hg).mp hp
  rw [h, List.mem_append, List.mem_append] at hl
  rcases hl with hl | hl | hl
  · exact .inl (habove l hl d hd)
  · simp [hmids l hl] at hd
  · exact .inr (hbelow l hl)

end TextEdit

namespace Grammar

variable {g : Grammar} {styles : List Char} {text : Text} {above : List Line} {k m l : Line} {below : List Line}
  {b : TitleBlock} {c : Char}

def Cuts (g : Grammar) (text : Text) (e : TextEdit) : Prop :=
  text.offset e.start ≤ text.offset e.stop ∧ e.MakesNoPrompt g text

section Written

variable {marker pad : Text}

theorem doctest?_written (h : Accepted styles) (hc : c ∈ styles) (hmark : IsMark marker) (hpad : ∀ d ∈ pad, isBlank d = true)
    {n width : Nat} (hb : '\n' ∉ marker ++ (List.replicate width c ++ pad)) :
    (ofStyles styles).doctest? ⟨n, marker ++ (List.replicate width c ++ pad)⟩ = none := by
  refine doctest?_of_unreserved hb fun d hd => ?_
  rw [List.mem_append, List.mem_append] at hd
  rcases hd with hd | hd | hd
  · exact hmark.not_reserved hd
  · exact List.eq_of_mem_replicate hd ▸ (h.style hc).2.2.2
  · exact unreserved_of_blank (hpad d hd)

end Written

theorem setUnderline_makesNoPrompt (h : Accepted styles) (hlines : text.lines = above ++ k :: m :: below)
    (hb : (ofStyles styles).blockOn false k (m :: below) = some b) (hc : c ∈ styles) :
    (ofStyles styles).Cuts text (b.setUnderline c) := by
  have hlines' : text.lines = (above ++ [k]) ++ m :: below := by rw [hlines]; simp
  have hm : '\n' ∉ m.body := Text.newline_not_mem_body (n := 0) hlines (by simp)
  obtain ⟨t, u, -, hu, hbu⟩ := pair?_eq_some hb
  have hunder : b.underline = u.1 := by rw [hbu]
  have hbody := (underline?_parts hm hu).1
  obtain ⟨hmark, hpad⟩ := underline?_marked h hm hu
  rw [← hunder] at hbody hmark hpad
  have hspan := blockOn_spans hlines hb
  have hlen := stop_le_length hlines hb
  have hstart : b.runStart = m.start + b.underline.marker.length := by rw [← hspan.underlineStart]; rfl
  have hrun : b.runStop = b.runStart + b.underline.length := rfl
  have hstop : b.runStop ≤ b.stop := (Nat.le_add_right _ _).trans (Nat.le_add_right _ _)
  have hfrom : text.offset (b.setUnderline c).start = b.runStart := Text.offset_of_le (by omega)
  have hto : text.offset (b.setUnderline c).stop = b.runStop := Text.offset_of_le (by omega)
  have hnew : '\n' ∉ b.underline.marker ++ (List.replicate b.titleWidth c ++ b.underline.pad) := by
    rw [← hbody, Underline.body] at hm
    simp only [List.mem_append, not_or] at hm
    exact newline_not_mem_written h hc hm.1.1 hm.2 _
  obtain ⟨below', happly, -⟩ := Text.lines_replace hlines' hnew
  rw [← apply_setUnderline hlines hb c] at happly
  refine ⟨by omega, TextEdit.makesNoPrompt_of_lines h.withinLine [_] happly ?_ ?_ ?_⟩
  · intro l hl d hd
    have hprompt := promptStop_le_of_mem hlines hl hd
    have hnext := hspan.next
    omega
  · intro l hl
    obtain rfl := List.mem_singleton.mp hl
    exact doctest?_written h hc hmark (List.all_eq_true.mp hpad) hnew
  · intro l hl
    have hapart := (Text.stop_lt_start (n := 0) happly).2 l hl
    have hlength : (b.setUnderline c).text.length = b.titleWidth := List.length_replicate
    simp only [Line.stop, List.length_append, List.length_replicate] at hapart
    omega

theorem dropUnderline_makesNoPrompt (h : Accepted styles) (hlines : text.lines = above ++ k :: m :: below)
    (hb : (ofStyles styles).blockOn false k (m :: below) = some b) :
    (ofStyles styles).Cuts text (b.dropUnderline text) := by
  have hlines' : text.lines = (above ++ [k]) ++ m :: below := by rw [hlines]; simp
  have hspan := blockOn_spans hlines hb
  have hlen := stop_le_length hlines hb
  have hstop := hspan.le_stop
  have hnext := hspan.next
  have hlower := hspan.lower
  have hfrom : text.offset (b.dropUnderline text).start = k.stop := by
    rw [dropUnderline_start hlines hb]
    exact Text.offset_of_le (by omega)
  have hto : text.offset (b.dropUnderline text).stop = m.stop := by
    rw [TitleBlock.dropUnderline, hspan.underlineStop]
    exact Text.offset_of_le (by omega)
  have happly := apply_dropUnderline hlines hb
  have hnew : ∃ below', ((b.dropUnderline text).apply text).lines = (above ++ [k]) ++ ([] ++ below') ∧
      ∀ l ∈ below', k.stop < l.start := by
    rcases Text.drop_stop hlines' with ⟨hend, -⟩ | ⟨rest, hrest, -⟩
    · exact ⟨[], by rw [happly, hend, List.append_nil, Text.lines_take_stop hlines]; simp, by simp⟩
    · refine ⟨_, by rw [happly, hrest]; exact Text.lines_take_stop_append hlines rest, fun l hl => ?_⟩
      have hle := Text.le_start_of_mem hl
      omega
  obtain ⟨below', hnew, hbelow⟩ := hnew
  refine ⟨by omega, TextEdit.makesNoPrompt_of_lines h.withinLine [] hnew ?_ (by simp) ?_⟩
  · intro l hl d hd
    rw [hfrom]
    exact promptStop_le_of_mem hlines hl hd
  · intro l hl
    have hlength : (b.dropUnderline text).text.length = 0 := rfl
    have := hbelow l hl
    omega

theorem addUnderline_makesNoPrompt (h : Accepted styles) (hlines : text.lines = above ++ l :: below) {t : TitleLine}
    (ht : (ofStyles styles).titleLine? l.body = some t) (hc : c ∈ styles) :
    (ofStyles styles).Cuts text ⟨l.stop, l.stop, '\n' :: (t.marker ++ List.replicate t.title.width c)⟩ := by
  have hl : '\n' ∉ l.body := Text.newline_not_mem_body (n := 0) hlines (by simp)
  have hlen := Text.stop_le_length hlines
  have hcut : text.offset l.stop = l.stop := Text.offset_of_le hlen
  have hnew := newline_not_mem_below h hl ht hc t.title.width
  have hwritten := hnew
  rw [← List.append_nil (List.replicate _ c)] at hwritten
  have hnone := doctest?_written (n := l.stop + 1) h hc (titleLine?_marked ht) (by simp) hwritten
  rw [List.append_nil] at hnone
  have hinsert := Text.lines_insertBelow hlines hnew
  have happly : (TextEdit.apply ⟨l.stop, l.stop, '\n' :: (t.marker ++ List.replicate t.title.width c)⟩ text).lines =
      (above ++ [l]) ++ ([⟨l.stop + 1, t.marker ++ List.replicate t.title.width c⟩] ++
        below.map (Line.shift ((t.marker ++ List.replicate t.title.width c).length + 1))) := by
    rw [TextEdit.apply_insertBelow hlen, hinsert]
    simp
  refine ⟨Nat.le_refl _, TextEdit.makesNoPrompt_of_lines h.withinLine [_] happly ?_ ?_ ?_⟩
  · intro k hk d hd
    rw [hcut]
    exact promptStop_le_of_mem hlines hk hd
  · intro k hk
    obtain rfl := List.mem_singleton.mp hk
    exact hnone
  · intro k hk
    have hapart := (Text.stop_lt_start (n := 0) happly).2 k hk
    simp only [Line.stop, List.length_append, List.length_cons] at hapart hcut ⊢
    omega

theorem Accepted.firstStyle_mem (h : Accepted styles) : (ofStyles styles).firstStyle ∈ styles := by
  cases styles with
  | nil => exact absurd h (by decide)
  | cons c styles => exact List.mem_cons_self

theorem promptStop_le_of_unreserved (h : Accepted styles) {front new : Text} (hnew : ∀ c ∈ new, [c] ∉ reserved)
    (hl : l ∈ Text.lines (front ++ new)) {d : DoctestLine} (hd : (ofStyles styles).doctest? l = some d) :
    d.promptStop ≤ front.length := by
  obtain ⟨f, lead, prompt, rest, htext, -, -, hf, hstop⟩ :=
    (prompts_iff h).mp ((prompts_iff_line h.withinLine).mpr ⟨l, hl, d, hd, rfl, rfl⟩)
  by_contra hlong
  have hlength : (f ++ (lead ++ prompt.text)).length = d.promptStop := by
    simp only [List.length_append, Prompt.length_text]
    omega
  have hwhole : f ++ (lead ++ prompt.text) <+: front ++ new :=
    ⟨rest, by rw [htext, List.append_assoc, List.append_assoc]⟩
  obtain ⟨more, hmore⟩ := List.prefix_of_prefix_length_le (List.prefix_append front new) hwhole (by omega)
  have hne : more ≠ [] := by
    rintro rfl
    rw [← hmore, List.append_nil] at hlength
    omega
  have hin : more <+: new := by
    rw [← hmore] at hwhole
    exact (List.prefix_append_right_inj front).mp hwhole
  have hprompt : prompt.text ≠ [] := by cases prompt <;> simp [Prompt.text]
  have hlast := congrArg List.getLast? hmore
  rw [List.getLast?_append_of_ne_nil _ hne, ← List.append_assoc, List.getLast?_append_of_ne_nil _ hprompt,
    List.getLast?_eq_some_getLast hne] at hlast
  exact hnew _ (hin.subset (List.getLast_mem hne)) (Prompt.reserved_of_mem (List.mem_of_getLast? hlast.symm))

theorem exists_linesFrom_underline (h : Accepted styles) (hc : c ∈ styles) (n : Nat) (rest : Text) : ∃ l below,
    Text.linesFrom n ('#' :: ' ' :: (List.replicate 5 c ++ rest)) = l :: below ∧
      (ofStyles styles).doctest? l = none ∧ n + 7 ≤ l.stop := by
  obtain ⟨hspace, -, hsign, hreserved⟩ := h.style hc
  have hlead : ¬(ofStyles styles).leads c = true := by
    rw [leads_iff]
    simp [hsign, h.not_blank hc]
  have hdrop : ('#' :: ' ' :: (List.replicate 5 c ++ rest)).dropWhile (ofStyles styles).leads =
      c :: (List.replicate 4 c ++ rest) := by
    rw [List.dropWhile_cons_of_pos (leads_iff.mpr (.inl rfl)), List.dropWhile_cons_of_pos (leads_iff.mpr (.inr (by decide))),
      List.replicate_succ, List.cons_append, List.dropWhile_cons_of_neg hlead]
  obtain ⟨below, hbelow⟩ := Text.exists_linesFrom n ('#' :: ' ' :: (List.replicate 5 c ++ rest))
  refine ⟨_, below, hbelow, ?_, ?_⟩
  · rw [doctest?, doctestFrom?_firstLine h.withinLine, doctestFrom?_eq, hdrop]
    cases hq : promptAt? (c :: (List.replicate 4 c ++ rest)) with
    | none => rfl
    | some q =>
      obtain ⟨d, hd, hhead⟩ := promptAt?_head hq
      obtain rfl : c = d := Option.some.inj hhead
      exact absurd (Prompt.reserved_of_mem hd) hreserved
  · have hne : c ≠ '\n' := fun he => h.withinLine.styles (he ▸ hc)
    have hline : ∀ d ∈ '#' :: ' ' :: List.replicate 5 c, decide (d ≠ '\n') = true := by simp [hne]
    have hfirst : Text.firstLine ('#' :: ' ' :: (List.replicate 5 c ++ rest)) =
        ('#' :: ' ' :: List.replicate 5 c) ++ Text.firstLine rest := List.takeWhile_append_of_pos hline
    rw [Line.stop, hfirst, List.length_append]
    simp only [List.length_cons, List.length_replicate]
    omega

theorem scaffold_makesNoPrompt (h : Accepted styles) (text : Text) (pos : Int) :
    (ofStyles styles).Cuts text ⟨pos, pos, (ofStyles styles).scaffold⟩ := by
  obtain ⟨c, hfirst, hc⟩ : ∃ c, (ofStyles styles).firstStyle = c ∧ c ∈ styles := ⟨_, rfl, h.firstStyle_mem⟩
  have hwidth : Text.width "Title".toList = 5 := by decide
  have hscaffold : (ofStyles styles).scaffold = "# Title".toList ++ '\n' :: '#' :: ' ' :: List.replicate 5 c := by
    rw [scaffold, writeTitle, hwidth, hfirst]
    rfl
  have hcut : (text.take (text.offset pos)).length = text.offset pos := by
    have hlen := TextEdit.offset_le text pos
    rw [List.length_take]
    omega
  have hfront : 0 + (text.take (text.offset pos) ++ "# Title".toList).length + 1 = text.offset pos + 8 := by
    rw [List.length_append, hcut, Nat.zero_add]
    rfl
  obtain ⟨under, below, hbelow, hunder, hstop⟩ :=
    exists_linesFrom_underline h hc (text.offset pos + 8) (text.drop (text.offset pos))
  have happly : (TextEdit.apply ⟨pos, pos, (ofStyles styles).scaffold⟩ text).lines =
      Text.lines (text.take (text.offset pos) ++ "# Title".toList) ++ ([under] ++ below) := by
    rw [List.singleton_append, ← hbelow, ← hfront, Text.lines_eq_linesFrom, Text.lines_eq_linesFrom,
      ← Text.linesFrom_append, TextEdit.apply, hscaffold]
    simp only [List.append_assoc, List.cons_append]
  refine ⟨Nat.le_refl _, TextEdit.makesNoPrompt_of_lines h.withinLine [_] happly ?_ ?_ ?_⟩
  · intro l hl d hd
    have hprompt := promptStop_le_of_unreserved h (show ∀ c ∈ "# Title".toList, [c] ∉ reserved by simp [reserved]) hl hd
    dsimp only
    omega
  · intro l hl
    obtain rfl := List.mem_singleton.mp hl
    exact hunder
  · intro l hl
    have hbelow' : Text.linesFrom _ _ = [] ++ under :: below := hbelow
    have hapart := (Text.stop_lt_start hbelow').2 l hl
    have hlength : (ofStyles styles).scaffold.length = 15 := by rw [hscaffold]; rfl
    dsimp only
    omega

theorem cycleTitle_makesNoPrompt (h : Accepted styles) (text : Text) (pos : Int) :
    (ofStyles styles).Cuts text ((ofStyles styles).cycleTitle text pos) := by
  have hg : (ofStyles styles).WithinLine := h.withinLine
  cases hb : (ofStyles styles).titleBlockAt text pos with
  | some b =>
    obtain ⟨above, k, m, below, hlines, hblock, -⟩ := exists_of_owner hg (owner_of_titleBlockAt hb)
    have hchar := mem_styles_of_titleBlockAt hb
    obtain ⟨i, hi⟩ := Option.isSome_iff_exists.mp (List.isSome_idxOf?.mpr hchar)
    rw [cycleTitle_of_block hb hi]
    split
    · split
      · exact setUnderline_makesNoPrompt h hlines hblock (List.mem_of_getElem? ‹_›)
      · exact dropUnderline_makesNoPrompt h hlines hblock
    · exact setUnderline_makesNoPrompt h hlines hblock hchar
  | none =>
    cases ht : (ofStyles styles).titleLineAt text pos with
    | some p =>
      obtain ⟨above, l, below, hlines, -, -, hf⟩ := Text.exists_focus text pos
      obtain ⟨t, hline, rfl⟩ := Option.map_eq_some_iff.mp ht
      have hl : text.lineAt pos = l := by rw [Text.lineAt, hf]
      rw [cycleTitle_of_line hb ht]
      rw [hl] at hline ⊢
      exact addUnderline_makesNoPrompt h hlines hline h.firstStyle_mem
    | none =>
      rw [cycleTitle_of_none hb ht]
      exact scaffold_makesNoPrompt h text pos

end Grammar

end Literate
