import Literate.Extent
import Literate.Proofs.Title.Ownership

namespace Literate

namespace Extent

structure Whole (e : Extent) (g : Grammar) (above inner : List Line) (l : Line) (below : List Line) : Prop where
  before : ∀ k ∈ above, k.stop < e.start
  inside : ∀ k ∈ inner ++ [l], e.start ≤ k.start
  upper : ∀ k ∈ above.getLast?, g.blockOn false k (inner ++ l :: below) = none
  lower : g.blockOn false l below = none
  stop : (e.stop = l.stop + 1 ∧ below ≠ []) ∨
    (e.stop = l.stop ∧ (below = [] ∨ ∀ k ∈ inner.getLast?, g.blockOn false k (l :: below) = none))

variable {text : Text} {e : Extent}

theorem lastCovered_le (text : Text) (e : Extent) : e.lastCovered text ≤ e.stop := by
  rw [lastCovered]
  split <;> omega

theorem start_le_lastCovered (text : Text) (h : e.start ≤ e.stop) : e.start ≤ e.lastCovered text := by
  rw [lastCovered]
  split <;> omega

theorem stop_of_lastCovered {above : List Line} {l : Line} {below : List Line} (h : text.lines = above ++ l :: below)
    (hs : l.start ≤ e.lastCovered text) (ht : e.lastCovered text ≤ l.stop) :
    e.stop = e.lastCovered text ∨ (e.stop = l.stop + 1 ∧ below ≠ []) := by
  rw [lastCovered] at hs ht ⊢
  split at hs
  · rename_i hc
    rw [if_pos hc] at ht ⊢
    have hstop : ¬e.stop - 1 < l.stop := by
      intro hlt
      obtain ⟨c, hm, he⟩ := Text.getElem?_body h hs hlt
      obtain rfl : c = '\n' := Option.some.inj (he.symm.trans hc.2)
      exact Text.newline_not_mem_body (n := 0) h (by simp) hm
    refine .inr ⟨by omega, ?_⟩
    rintro rfl
    have hlen : l.stop < text.length := by
      obtain ⟨hlt, -⟩ := List.getElem?_eq_some_iff.mp hc.2
      omega
    have hlast := Text.last_stop (n := 0) h
    omega
  · rename_i hc
    rw [if_neg hc]
    exact .inl rfl

end Extent

namespace Grammar

variable {g : Grammar} {text : Text}

section Positions

variable {above : List Line} {l : Line} {below : List Line} {pos : Nat}

theorem extentStart_eq (hg : g.WithinLine) (h : text.lines = above ++ l :: below) (hs : l.start ≤ pos)
    (ht : pos ≤ l.stop) : g.extentStart text pos =
      ((above.getLast?.bind fun k => g.blockOn false k (l :: below)).map TitleBlock.start).getD l.start := by
  have hc : text.clamp pos = pos := Text.clamp_of_le_stop h ht
  rw [extentStart, titleBlockAbove_eq hg h (by omega) (by omega), Text.lineStart_eq h (by omega) (by omega)]
  cases above.getLast?.bind fun k => g.blockOn false k (l :: below) <;> rfl

theorem extentStop_eq (hg : g.WithinLine) (h : text.lines = above ++ l :: below) (hs : l.start ≤ pos)
    (ht : pos ≤ l.stop) : g.extentStop text pos =
      (((g.blockOn false l below).or (above.getLast?.bind fun k => g.blockOn false k (l :: below))).map
        TitleBlock.stop).getD l.stop := by
  have hc : text.clamp pos = pos := Text.clamp_of_le_stop h ht
  rw [extentStop, titleBlockAt_eq hg h (by omega) (by omega), Text.lineStop_eq h (by omega) (by omega)]
  cases (g.blockOn false l below).or (above.getLast?.bind fun k => g.blockOn false k (l :: below)) <;> rfl

end Positions

theorem upper_of_extentStart (hg : g.WithinLine) {above : List Line} {l : Line} {below : List Line} {pos : Nat}
    (h : text.lines = above ++ l :: below) (hs : l.start ≤ pos) (ht : pos ≤ l.stop)
    (he : g.extentStart text pos = pos) :
    l.start = pos ∧ (above.getLast?.bind fun k => g.blockOn false k (l :: below)) = none := by
  rw [extentStart_eq hg h hs ht] at he
  cases hb : above.getLast?.bind fun k => g.blockOn false k (l :: below) with
  | none =>
    rw [hb] at he
    exact ⟨he, rfl⟩
  | some b =>
    obtain ⟨front, k, rfl, h', hkb⟩ := exists_of_blockAbove h hb
    have hsp := blockOn_spans h' hkb
    have hstart := hsp.start
    have hnext := hsp.next
    have hupper := hsp.upper
    simp only [hb, Option.map_some, Option.getD_some] at he
    omega

theorem lower_of_extentStop (hg : g.WithinLine) {above : List Line} {l : Line} {below : List Line} {e : Extent}
    (h : text.lines = above ++ l :: below) (hs : l.start ≤ e.lastCovered text) (ht : e.lastCovered text ≤ l.stop)
    (he : g.extentStop text (e.lastCovered text) ≤ e.stop) :
    g.blockOn false l below = none ∧ ((e.stop = l.stop + 1 ∧ below ≠ []) ∨
      (e.stop = l.stop ∧ (below = [] ∨ ∀ k ∈ above.getLast?, g.blockOn false k (l :: below) = none))) := by
  rw [extentStop_eq hg h hs ht] at he
  have hstop := Extent.stop_of_lastCovered h hs ht
  have hlow : g.blockOn false l below = none := by
    cases hb : g.blockOn false l below with
    | none => rfl
    | some b =>
      cases below with
      | nil => simp [blockOn] at hb
      | cons m below =>
        have hsp := blockOn_spans h hb
        have hlower := hsp.lower
        have hle := hsp.le_stop
        have hnext := hsp.next
        simp only [hb, Option.some_or, Option.map_some, Option.getD_some] at he
        rcases hstop with hstop | ⟨hstop, -⟩ <;> omega
  refine ⟨hlow, ?_⟩
  rcases hstop with hstop | hstop
  · rw [hlow, Option.none_or] at he
    cases hb : above.getLast?.bind fun k => g.blockOn false k (l :: below) with
    | none =>
      simp only [hb, Option.map_none, Option.getD_none] at he
      refine .inr ⟨by omega, .inr fun k hk => ?_⟩
      simpa [Option.mem_def.mp hk] using hb
    | some b =>
      obtain ⟨front, k, rfl, h', hkb⟩ := exists_of_blockAbove h hb
      have hsp := blockOn_spans h' hkb
      have hle := hsp.le_stop
      have heq := hsp.stop_eq
      simp only [hb, Option.map_some, Option.getD_some] at he
      refine .inr ⟨by omega, .inl ?_⟩
      -- a block in front of further lines ends with a newline, which the extent would cover
      cases below with
      | nil => rfl
      | cons m below =>
        simp only [List.isEmpty_cons, Bool.not_false, Bool.or_true, if_true] at heq
        omega
  · exact .inl hstop

theorem whole_of_widen_eq (hg : g.WithinLine) {e : Extent} (hle : e.start ≤ e.stop) (hlen : e.stop ≤ text.length)
    (h : g.widen text e = e) :
    ∃ above inner l below, text.lines = above ++ (inner ++ l :: below) ∧ e.Whole g above inner l below := by
  have hstart : g.extentStart text e.start = e.start := congrArg Extent.start h
  have hstop : max e.stop (g.extentStop text (e.lastCovered text)) = e.stop := congrArg Extent.stop h
  have hfrom := Extent.start_le_lastCovered text hle
  have hto := Extent.lastCovered_le text e
  obtain ⟨above, first, rest, hf, hfs, hft⟩ :=
    Text.exists_line (n := 0) (Nat.zero_le e.start) (show e.start ≤ 0 + text.length by omega)
  obtain ⟨hfirst, hup⟩ := upper_of_extentStart hg hf hfs hft hstart
  have hafter : first.start ≤ e.lastCovered text := by omega
  have hwithin : e.lastCovered text ≤ first.start + (text.drop first.start).length := by
    rw [List.length_drop]
    omega
  obtain ⟨inner, l, below, hl, hls, hlt⟩ := Text.exists_line hafter hwithin
  rw [Text.drop_start hf] at hl
  have hlines : text.lines = above ++ (inner ++ l :: below) := by rw [← hl]; exact hf
  obtain ⟨hlow, hend⟩ := lower_of_extentStop hg (by rw [hlines, List.append_assoc]) hls hlt (by omega)
  refine ⟨above, inner, l, below, hlines, ?_, ?_, ?_, hlow, hend.imp_right fun hend => ?_⟩
  · have hp := Text.linesFrom_pairwise 0 text
    rw [hf, List.pairwise_append] at hp
    intro k hk
    have := hp.2.2 k hk first (by simp)
    omega
  · intro k hk
    have hmem : k ∈ Text.linesFrom first.start (text.drop first.start) := by
      rw [Text.drop_start hf, hl, ← List.singleton_append, ← List.append_assoc]
      exact List.mem_append_left _ hk
    have := Text.le_start_of_mem hmem
    omega
  · intro k hk
    rw [← hl]
    simpa [Option.mem_def.mp hk] using hup
  · refine ⟨hend.1, hend.2.imp_right fun hn k hk => hn k ?_⟩
    rw [List.getLast?_append, Option.mem_def.mp hk]
    rfl

theorem extentStart_le_line (hg : g.WithinLine) {above : List Line} {l : Line} {below : List Line} {pos : Nat}
    (h : text.lines = above ++ l :: below) (hs : l.start ≤ pos) (ht : pos ≤ l.stop) :
    g.extentStart text pos ≤ l.start := by
  rw [extentStart_eq hg h hs ht]
  cases hb : above.getLast?.bind fun k => g.blockOn false k (l :: below) with
  | none => exact Nat.le_refl _
  | some b =>
    obtain ⟨front, k, rfl, h', hkb⟩ := exists_of_blockAbove h hb
    have hsp := blockOn_spans h' hkb
    have hstart := hsp.start
    have hupper := hsp.upper
    have hnext := hsp.next
    simp only [Option.map_some, Option.getD_some]
    omega

theorem le_extentStop_line (hg : g.WithinLine) {above : List Line} {l : Line} {below : List Line} {pos : Nat}
    (h : text.lines = above ++ l :: below) (hs : l.start ≤ pos) (ht : pos ≤ l.stop) :
    l.stop ≤ g.extentStop text pos := by
  rw [extentStop_eq hg h hs ht]
  cases hlow : g.blockOn false l below with
  | some b =>
    cases below with
    | nil => simp [blockOn] at hlow
    | cons m below =>
      have hsp := blockOn_spans h hlow
      have hle := hsp.le_stop
      have hnext := hsp.next
      have hlower := hsp.lower
      simp only [Option.some_or, Option.map_some, Option.getD_some]
      omega
  | none =>
    cases hb : above.getLast?.bind fun k => g.blockOn false k (l :: below) with
    | none => exact Nat.le_refl _
    | some b =>
      obtain ⟨front, k, rfl, h', hkb⟩ := exists_of_blockAbove h hb
      exact (blockOn_spans h' hkb).le_stop

theorem extentStart_le (hg : g.WithinLine) {pos : Nat} (hpos : pos ≤ text.length) : g.extentStart text pos ≤ pos := by
  obtain ⟨above, l, below, h, hs, ht⟩ := Text.exists_line (n := 0) (Nat.zero_le pos) (by rw [Nat.zero_add]; exact hpos)
  exact (extentStart_le_line hg h hs ht).trans hs

section Block

variable {above : List Line} {k m : Line} {below : List Line} {b : TitleBlock} {pos : Nat}

theorem extentStart_of_block (hg : g.WithinLine) (h : text.lines = above ++ k :: m :: below)
    (hb : g.blockOn false k (m :: below) = some b) (hpos : pos ≤ m.stop) : g.extentStart text pos ≤ k.start := by
  have hm : m ∈ Text.linesFrom 0 text := by rw [← Text.lines_eq_linesFrom, h]; simp
  have hk : k ∈ Text.linesFrom 0 text := by rw [← Text.lines_eq_linesFrom, h]; simp
  have hlen := Text.stop_le_of_mem hm
  have hsp := blockOn_spans h hb
  have hnext := hsp.next
  obtain ⟨front, l, rest, hl, hs, ht⟩ := Text.exists_line (n := 0) (Nat.zero_le pos) (by omega : pos ≤ 0 + text.length)
  have hlm : l ∈ Text.linesFrom 0 text := by rw [hl]; simp
  have hle : l.start ≤ l.stop := Nat.le_add_right _ _
  have hline := extentStart_le_line hg hl hs ht
  rcases Text.apart_of_mem hlm hm with rfl | hlt | hgt
  · have h' : text.lines = (above ++ [k]) ++ l :: below := by rw [h]; simp
    rw [extentStart_eq hg h' hs ht, List.getLast?_concat, Option.bind_some, hb, Option.map_some, Option.getD_some,
      hsp.start]
  · rcases Text.apart_of_mem hlm hk with rfl | hlk | hkl
    · exact hline
    · omega
    · omega
  · omega

theorem extentStop_of_block (hg : g.WithinLine) (h : text.lines = above ++ k :: m :: below)
    (hb : g.blockOn false k (m :: below) = some b) (hpos : k.start ≤ pos) (hlen : pos ≤ text.length) :
    m.start < g.extentStop text pos := by
  have hm : m ∈ Text.linesFrom 0 text := by rw [← Text.lines_eq_linesFrom, h]; simp
  have hk : k ∈ Text.linesFrom 0 text := by rw [← Text.lines_eq_linesFrom, h]; simp
  have hsp := blockOn_spans h hb
  have hnext := hsp.next
  have hlower := hsp.lower
  have hbstop := hsp.le_stop
  obtain ⟨front, l, rest, hl, hs, ht⟩ := Text.exists_line (n := 0) (Nat.zero_le pos) (by omega : pos ≤ 0 + text.length)
  have hlm : l ∈ Text.linesFrom 0 text := by rw [hl]; simp
  have hle : l.start ≤ l.stop := Nat.le_add_right _ _
  have hline := le_extentStop_line hg hl hs ht
  rcases Text.apart_of_mem hlm hk with rfl | hlt | hgt
  · rw [extentStop_eq hg h hs ht, hb, Option.some_or, Option.map_some, Option.getD_some]
    omega
  · omega
  · rcases Text.apart_of_mem hlm hm with rfl | hlm' | hml
    · omega
    · omega
    · omega

theorem stop_le_extentStop (hg : g.WithinLine) (h : text.lines = above ++ k :: m :: below)
    (hb : g.blockOn false k (m :: below) = some b) (hpos : k.start ≤ pos) (hlen : pos ≤ text.length) :
    b.stop ≤ g.extentStop text pos := by
  have hm : m ∈ Text.linesFrom 0 text := by rw [← Text.lines_eq_linesFrom, h]; simp
  have hk : k ∈ Text.linesFrom 0 text := by rw [← Text.lines_eq_linesFrom, h]; simp
  have hsp := blockOn_spans h hb
  have hnext := hsp.next
  have hend := hsp.stop_le
  obtain ⟨front, l, rest, hl, hs, ht⟩ := Text.exists_line (n := 0) (Nat.zero_le pos) (by omega : pos ≤ 0 + text.length)
  have hlm : l ∈ Text.linesFrom 0 text := by rw [hl]; simp
  have hle := l.start_le_stop
  rcases Text.apart_of_mem hlm hk with rfl | hlt | hgt
  · obtain ⟨rfl, -, rfl⟩ := Text.lines_unique hl h rfl
    rw [extentStop_eq hg h hs ht, hb, Option.some_or, Option.map_some, Option.getD_some]
  · omega
  · rcases Text.apart_of_mem hlm hm with rfl | hlm' | hml
    · have h' : text.lines = (above ++ [k]) ++ l :: below := by rw [h]; simp
      rw [extentStop_eq hg h' hs ht, List.getLast?_concat, Option.bind_some, hb]
      cases hlow : g.blockOn false l below with
      | none => exact Nat.le_refl _
      | some c =>
        cases below with
        | nil => simp [blockOn] at hlow
        | cons n below =>
          have hlower := blockOn_spans h' hlow
          have hnext' := hlower.next
          have hline := hlower.lower
          have hstop := hlower.le_stop
          simp only [Option.some_or, Option.map_some, Option.getD_some]
          omega
    · omega
    · have := le_extentStop_line hg hl hs ht
      omega

theorem le_extentStart (hg : g.WithinLine) (h : text.lines = above ++ k :: m :: below) (hpos : m.stop < pos)
    (hlen : pos ≤ text.length) : m.start ≤ g.extentStart text pos := by
  have hm : m ∈ Text.linesFrom 0 text := by rw [← Text.lines_eq_linesFrom, h]; simp
  obtain ⟨front, l, rest, hl, hs, ht⟩ := Text.exists_line (n := 0) (Nat.zero_le pos) (by omega : pos ≤ 0 + text.length)
  have hlm : l ∈ Text.linesFrom 0 text := by rw [hl]; simp
  have hline := m.start_le_stop
  have hbehind : m.stop < l.start := by
    rcases Text.apart_of_mem hlm hm with rfl | hlt | hgt <;> omega
  rw [extentStart_eq hg hl hs ht]
  cases hc : front.getLast?.bind fun j => g.blockOn false j (l :: rest) with
  | none => exact (Nat.lt_of_le_of_lt hline hbehind).le
  | some c =>
    obtain ⟨lead, j, rfl, hj, hjc⟩ := exists_of_blockAbove hl hc
    have hsp := blockOn_spans hj hjc
    have hnext := hsp.next
    have hstart := hsp.start
    have hjm : j ∈ Text.linesFrom 0 text := by rw [← Text.lines_eq_linesFrom, hj]; simp
    rw [Option.map_some, Option.getD_some, hstart]
    rcases Text.apart_of_mem hjm hm with rfl | hlt | hgt <;> omega

end Block

theorem widenRounds_covers (hg : g.WithinLine) (n : Nat) {e : Extent} (he : e.start ≤ text.length) :
    (g.widenRounds text n e).start ≤ e.start ∧ e.stop ≤ (g.widenRounds text n e).stop := by
  induction n generalizing e with
  | zero => exact ⟨Nat.le_refl _, Nat.le_refl _⟩
  | succ n ih =>
    rw [widenRounds]
    split
    · exact ⟨Nat.le_refl _, Nat.le_refl _⟩
    · have hstart : (g.widen text e).start ≤ e.start := extentStart_le hg he
      have hstop : e.stop ≤ (g.widen text e).stop := Nat.le_max_left _ _
      obtain ⟨hs, ht⟩ := ih (hstart.trans he)
      exact ⟨hs.trans hstart, hstop.trans ht⟩

theorem widenFully_covers (hg : g.WithinLine) (text : Text) (start stop : Int) :
    (g.widenFully text start stop).start ≤ (g.widen text (.ofRange text start stop)).start ∧
      (g.widen text (.ofRange text start stop)).stop ≤ (g.widenFully text start stop).stop := by
  have he : (Extent.ofRange text start stop).start ≤ text.length := Text.clamp_le text start
  have hrounds : max 1 (8 : Int).toNat = 7 + 1 := rfl
  rw [widenFully, hrounds, widenRounds]
  split
  · rename_i hw
    rw [hw]
    exact ⟨Nat.le_refl _, Nat.le_refl _⟩
  · exact widenRounds_covers hg 7 ((extentStart_le hg he).trans he)

theorem widenFully_takes_in (hg : g.WithinLine) (text : Text) (start stop : Int) :
    (g.widenFully text start stop).start ≤ text.clamp start ∧ text.clamp stop ≤ (g.widenFully text start stop).stop := by
  obtain ⟨hstart, hstop⟩ := widenFully_covers hg text start stop
  have hfrom : (g.widen text (.ofRange text start stop)).start ≤ text.clamp start :=
    extentStart_le hg (Text.clamp_le text start)
  have hto : text.clamp stop ≤ (g.widen text (.ofRange text start stop)).stop :=
    (Nat.le_max_right _ _).trans (Nat.le_max_left _ _)
  exact ⟨hstart.trans hfrom, hto.trans hstop⟩

theorem drawn_or_apart (hg : g.WithinLine) {e wide : Extent} (hlen : e.stop ≤ text.length)
    (hlast : e.lastCovered text = e.stop) (hstart : wide.start ≤ (g.widen text e).start)
    (hstop : (g.widen text e).stop ≤ wide.stop) {above : List Line} {k m : Line} {below : List Line} {b : TitleBlock}
    (h : text.lines = above ++ k :: m :: below) (hb : g.blockOn false k (m :: below) = some b) :
    (wide.start ≤ k.start ∧ m.start < wide.stop) ∨ m.stop < e.start ∨ e.stop < k.start := by
  by_cases hbefore : m.stop < e.start
  · exact .inr (.inl hbefore)
  · by_cases hafter : e.stop < k.start
    · exact .inr (.inr hafter)
    · have hs := extentStart_of_block hg h hb (Nat.le_of_not_lt hbefore)
      have ht := extentStop_of_block hg h hb (Nat.le_of_not_lt hafter) hlen
      have hws : (g.widen text e).start = g.extentStart text e.start := rfl
      have hwt : g.extentStop text (e.lastCovered text) ≤ (g.widen text e).stop := Nat.le_max_right _ _
      rw [hlast] at hwt
      exact .inl ⟨by omega, by omega⟩

end Grammar

end Literate
