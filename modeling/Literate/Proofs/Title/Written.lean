import Literate.Proofs.Text.Splice
import Literate.Proofs.Title.Blocks
import Literate.Proofs.Title.Mark
import Literate.Title.Edit

namespace Literate

open Unicode

def TitleBlock.fitted (b : TitleBlock) (c : Char) : TitleBlock :=
  { b with underline := { b.underline with char := c, length := b.titleWidth } }

theorem TitleBlock.fitted_synchronized (b : TitleBlock) (c : Char) : (b.fitted c).synchronized = true :=
  decide_eq_true rfl

theorem TextEdit.apply_insertBelow {text : Text} {stop : Nat} (h : stop ≤ text.length) (body : Text) :
    apply ⟨stop, stop, '\n' :: body⟩ text = text.insertBelow stop body := by
  rw [apply, Text.offset_of_le h, Text.insertBelow, List.append_assoc, List.cons_append]

namespace Grammar

variable {styles : List Char} {mark pad : Text} {c : Char} {n : Nat}

theorem underline?_of_first {g : Grammar} {text : Text} {before others : List Split} {p : Split}
    (hm : g.markers text = before ++ p :: others) (hb : ∀ q ∈ before, g.run? q.2 = none) {r : Char × Nat × Text}
    (hr : g.run? p.2 = some r) :
    g.underline? text = some (⟨text.take p.1, r.1, r.2.1, r.2.2⟩, Text.afterLine? p.2) := by
  have hnone : before.findSome? (fun p => (g.run? p.2).map fun r =>
      (Underline.mk (text.take p.1) r.1 r.2.1 r.2.2, Text.afterLine? p.2)) = none := by
    rw [List.findSome?_eq_none_iff]
    intro q hq
    rw [hb q hq]
    rfl
  rw [underline?, hm, List.findSome?_append, hnone, Option.none_or, List.findSome?_cons, hr]
  rfl

theorem underline?_of_rest (h : Accepted styles) (hc : c ∈ styles) (hp : pad.all isBlank = true)
    (hb : '\n' ∉ mark ++ (List.replicate (n + 1) c ++ pad)) {before others : List Split} {p : Split}
    (hm : (ofStyles styles).markers (mark ++ (List.replicate (n + 1) c ++ pad)) = before ++ p :: others)
    (hbefore : ∀ q ∈ before, (ofStyles styles).run? q.2 = none) (hrest : p.2 = List.replicate (n + 1) c ++ pad) :
    (ofStyles styles).underline? (mark ++ (List.replicate (n + 1) c ++ pad)) = some (⟨mark, c, n + 1, pad⟩, none) := by
  have hr : (ofStyles styles).run? p.2 = some (c, n + 1, pad) := by rw [hrest, run?_replicate h hc n hp]
  have hmem : p ∈ (ofStyles styles).markers (mark ++ (List.replicate (n + 1) c ++ pad)) := by rw [hm]; simp
  obtain ⟨front, htext, hlen⟩ := isOf_of_mem_markers hmem
  have hfront : mark = front := by
    rw [hrest] at htext
    exact List.append_cancel_right htext
  have hlast : Text.afterLine? p.2 = none := Text.afterLine?_last fun hx => hb (hrest ▸ List.mem_append_right _ hx)
  rw [underline?_of_first hm hbefore hr, hlast, ← hlen, ← hfront, List.take_left]

section Bang

variable {indent : Text} {signs : Nat}

theorem underline?_bang (h : Accepted styles) (hc : '!' ∈ styles) (hi : indent.all isBlank = true)
    (hp : pad.all isBlank = true) (hb : '\n' ∉ indent ++ List.replicate (signs + 1) '#' ++ (List.replicate 1 '!' ++ pad)) :
    (ofStyles styles).underline? (indent ++ List.replicate (signs + 1) '#' ++ (List.replicate 1 '!' ++ pad)) =
      some (⟨indent ++ List.replicate (signs + 1) '#', '!', 1, pad⟩, none) := by
  obtain ⟨k, others, hm⟩ := markers_bang styles hi signs pad
  have hempty : (withBlanks (k + 1, pad)).2 = [] := List.dropWhile_eq_nil_iff.mpr (List.all_eq_true.mp hp)
  apply underline?_of_rest h hc hp hb (show _ = [withBlanks (k + 1, pad)] ++ _ :: _ from hm)
  · intro q hq
    rw [List.mem_singleton.mp hq, hempty]
    rfl
  · exact withBlanks_rest _ (by decide) pad

theorem underline?_bangs (h : Accepted styles) (hc : '!' ∈ styles) (hi : indent.all isBlank = true)
    (hp : pad.all isBlank = true) (n signs : Nat) : ∃ u, (ofStyles styles).underline?
      (indent ++ List.replicate (signs + 1) '#' ++ (List.replicate (n + 1 + 1) '!' ++ pad)) = some u ∧
        u.1.length = n + 1 := by
  obtain ⟨k, others, hm⟩ := markers_bang styles hi signs (List.replicate (n + 1) '!' ++ pad)
  have hrest : (withBlanks (k + 1, List.replicate (n + 1) '!' ++ pad)).2 = List.replicate (n + 1) '!' ++ pad := by
    rw [List.replicate_succ, List.cons_append]
    exact withBlanks_rest _ (by decide) _
  refine ⟨_, underline?_of_first (show _ = [] ++ _ :: _ from hm) (by simp) (by rw [hrest, run?_replicate h hc n hp]), rfl⟩

end Bang

theorem underline?_written_iff (h : Accepted styles) (hm : IsMark mark) (hc : c ∈ styles) (hp : pad.all isBlank = true)
    (hb : '\n' ∉ mark ++ (List.replicate (n + 1) c ++ pad)) :
    (ofStyles styles).underline? (mark ++ (List.replicate (n + 1) c ++ pad)) = some (⟨mark, c, n + 1, pad⟩, none) ↔
      ¬(c = '!' ∧ mark.getLast? = some '#' ∧ 0 < n) := by
  by_cases hq : c = '!' ∧ mark.getLast? = some '#'
  · obtain ⟨rfl, hlast⟩ := hq
    obtain ⟨indent, signs, rfl, hi⟩ := hm.eq_signs hlast
    cases n with
    | zero => exact iff_of_true (underline?_bang h hc hi hp hb) (by simp)
    | succ n =>
      apply iff_of_false _ (by simp [hlast])
      obtain ⟨u, hu, hlen⟩ := underline?_bangs h hc hi hp n signs
      rw [hu]
      intro he
      have hlong := congrArg (fun p => p.1.length) (Option.some.inj he)
      dsimp only at hlong
      omega
  · apply iff_of_true _ fun hx => hq ⟨hx.1, hx.2.1⟩
    obtain ⟨p, others, hmarks, hrest⟩ := exists_first_marker styles (List.replicate n c ++ pad) (h.not_blank hc)
      (h.style hc).2.2.1 hm fun hx hl => hq ⟨hx, hl⟩
    rw [← List.cons_append, ← List.replicate_succ] at hmarks hrest
    exact underline?_of_rest h hc hp hb (show _ = [] ++ _ :: _ from hmarks) (by simp) hrest

theorem underline?_written (h : Accepted styles) (hloud : '!' ∉ styles) (hm : IsMark mark) (hc : c ∈ styles)
    (hp : pad.all isBlank = true) {width : Nat} (hw : 0 < width) (hb : '\n' ∉ mark ++ (List.replicate width c ++ pad)) :
    (ofStyles styles).underline? (mark ++ (List.replicate width c ++ pad)) = some (⟨mark, c, width, pad⟩, none) := by
  obtain ⟨n, rfl⟩ : ∃ n, width = n + 1 := ⟨width - 1, by omega⟩
  apply (underline?_written_iff h hm hc hp hb).mpr
  rintro ⟨rfl, -⟩
  exact hloud hc

section Blocks

variable {text : Text} {above : List Line} {k m : Line} {below : List Line} {b : TitleBlock}

theorem split_run {g : Grammar} (h : text.lines = above ++ k :: m :: below)
    (hb : g.blockOn false k (m :: below) = some b) : text.take b.runStart = text.take m.start ++ b.underline.marker ∧
      text.drop b.runStop = b.underline.pad ++ text.drop m.stop ∧
      text = text.take b.runStart ++ (b.underline.run ++ text.drop b.runStop) := by
  have h' : text.lines = (above ++ [k]) ++ m :: below := by rw [h]; simp
  have hm : '\n' ∉ m.body := Text.newline_not_mem_body (n := 0) h (by simp)
  have hlen := Text.stop_le_length h'
  have hline := m.start_le_stop
  have hunder := (blockOn_spans h hb).underlineStart
  have hbody : b.underline.body = m.body := by
    obtain ⟨t, u, -, hu, rfl⟩ := pair?_eq_some hb
    exact (underline?_parts hm hu).1
  have hfront : (text.take m.start ++ b.underline.marker).length = b.runStart := by
    rw [List.length_append, List.length_take, Nat.min_eq_left (by omega), ← hunder]
    rfl
  have hrun : (text.take m.start ++ b.underline.marker ++ b.underline.run).length = b.runStop := by
    rw [List.length_append, hfront, Underline.run, List.length_replicate]
    rfl
  have hsplit : text = text.take m.start ++ b.underline.marker ++ (b.underline.run ++ (b.underline.pad ++ text.drop m.stop)) := by
    have htext := Text.take_body_drop h'
    rw [← hbody, Underline.body] at htext
    simpa only [List.append_assoc] using htext
  have htake : text.take b.runStart = text.take m.start ++ b.underline.marker := by
    have := congrArg (List.take b.runStart) hsplit
    rwa [← hfront, List.take_left, hfront] at this
  have hdrop : text.drop b.runStop = b.underline.pad ++ text.drop m.stop := by
    have := congrArg (List.drop b.runStop) hsplit
    rwa [← List.append_assoc, ← hrun, List.drop_left, hrun] at this
  exact ⟨htake, hdrop, by rw [htake, hdrop]; exact hsplit⟩

theorem apply_setUnderline {g : Grammar} (h : text.lines = above ++ k :: m :: below)
    (hb : g.blockOn false k (m :: below) = some b) (c : Char) :
    (b.setUnderline c).apply text = text.take m.start ++
      ((b.underline.marker ++ (List.replicate b.titleWidth c ++ b.underline.pad)) ++ text.drop m.stop) := by
  obtain ⟨htake, hdrop, -⟩ := split_run h hb
  have hlen := stop_le_length h hb
  have hrun : b.runStart ≤ b.runStop := Nat.le_add_right _ _
  have hstop : b.runStop ≤ b.stop := (Nat.le_add_right _ _).trans (Nat.le_add_right _ _)
  rw [TextEdit.apply, TitleBlock.setUnderline, Text.offset_of_le (show b.runStart ≤ text.length by omega),
    Text.offset_of_le (show b.runStop ≤ text.length by omega), htake, hdrop]
  simp only [List.append_assoc]

theorem dropUnderline_start {g : Grammar} (h : text.lines = above ++ k :: m :: below)
    (hb : g.blockOn false k (m :: below) = some b) : (b.dropUnderline text).start = k.stop := by
  rw [TitleBlock.dropUnderline, (blockOn_spans h hb).start, Text.lineStop, Text.lineAt, Text.focus_start h]

theorem apply_dropUnderline {g : Grammar} (h : text.lines = above ++ k :: m :: below)
    (hb : g.blockOn false k (m :: below) = some b) :
    (b.dropUnderline text).apply text = text.take k.stop ++ text.drop m.stop := by
  have hspan := blockOn_spans h hb
  have hlen := stop_le_length h hb
  have hstop := hspan.le_stop
  have hnext := hspan.next
  have hlower := hspan.lower
  rw [TextEdit.apply, dropUnderline_start h hb, TitleBlock.dropUnderline, hspan.underlineStop,
    Text.offset_of_le (show k.stop ≤ text.length by omega), Text.offset_of_le (show m.stop ≤ text.length by omega),
    List.append_nil]

theorem blockOn_setUnderline (h : Accepted styles) (hloud : '!' ∉ styles) (hlines : text.lines = above ++ k :: m :: below)
    (hb : (ofStyles styles).blockOn false k (m :: below) = some b) (hc : c ∈ styles) (hw : 0 < b.titleWidth) :
    ∃ m' below', ((b.setUnderline c).apply text).lines = above ++ k :: m' :: below' ∧
      (ofStyles styles).blockOn false k (m' :: below') = some (b.fitted c) := by
  have h' : text.lines = (above ++ [k]) ++ m :: below := by rw [hlines]; simp
  have hm : '\n' ∉ m.body := Text.newline_not_mem_body (n := 0) hlines (by simp)
  have happly := apply_setUnderline hlines hb c
  obtain ⟨t, u, ht, hu, rfl⟩ := pair?_eq_some hb
  obtain ⟨hmark, hpad⟩ := underline?_marked h hm hu
  have hnew := newline_not_mem_underline h hm hu hc t.title.width
  have hread := underline?_written h hloud hmark hc hpad (show 0 < t.title.width from hw) hnew
  obtain ⟨below', hlines', hbelow⟩ := Text.lines_replace h' hnew
  rw [List.append_assoc above, List.singleton_append] at hlines'
  refine ⟨⟨m.start, u.1.marker ++ (List.replicate t.title.width c ++ u.1.pad)⟩, below', ?_, ?_⟩
  · exact (congrArg Text.lines happly).trans hlines'
  · have hclosed : below'.isEmpty = below.isEmpty := by
      rw [Bool.eq_iff_iff, List.isEmpty_iff, List.isEmpty_iff]
      exact hbelow
    rw [blockOn, pair?, ht, hread, hclosed]
    rfl

end Blocks

end Grammar

end Literate
