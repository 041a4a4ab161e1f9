import Mathlib.Order.Bounds.Basic
import Literate.Proofs.Extent.Rounds

namespace Literate

namespace Extent

def lastLine (text : Text) (e : Extent) : Line :=
  if e.start < e.stop ∧ text[e.stop - 1]? = some '\n' then text.lineAt (e.stop - 1 : Nat) else text.lineAt e.stop

def Touches (e : Extent) (text : Text) (l : Line) : Prop :=
  l ∈ text.lines ∧ text.lineStart e.start ≤ l.start ∧ l.start ≤ (e.lastLine text).start

def Meets (e : Extent) (g : Grammar) (text : Text) (b : TitleBlock) : Prop :=
  (∃ pos, g.titleBlock? text pos = some b) ∧ ∃ l, e.Touches text l ∧ b.Owns l.start

def Overlaps (e : Extent) (b : TitleBlock) : Prop := b.start < e.stop ∧ e.start < b.stop

def Contains (e : Extent) (b : TitleBlock) : Prop := e.start ≤ b.start ∧ b.stop ≤ e.stop

variable {text : Text} {e : Extent}

theorem lastLine_eq (text : Text) (e : Extent) : e.lastLine text = text.lineAt (e.lastCovered text) := by
  rw [lastLine, lastCovered]
  split <;> rfl

theorem touches_iff (he : e.start ≤ e.stop) (hlen : e.stop ≤ text.length) {l : Line} (hl : l ∈ text.lines) :
    e.Touches text l ↔ e.start ≤ l.stop ∧ l.start ≤ e.lastCovered text := by
  have hlast := lastCovered_le text e
  obtain ⟨above, k, rest, hk, hks, hkt, hkf⟩ := Text.exists_focus text e.start
  obtain ⟨front, m, below, hm, hms, hmt, hmf⟩ := Text.exists_focus text (e.lastCovered text)
  have hfirst : text.lineStart e.start = k.start := Text.lineStart_eq hk hks hkt
  have hend : e.lastLine text = m := by rw [lastLine_eq, Text.lineAt, hmf]
  rw [Text.clamp_of_le (by omega)] at hks hkt hms hmt
  rw [Touches, hfirst, hend, and_iff_right hl]
  have hline := l.start_le_stop
  have hkm : k ∈ text.lines := by rw [hk]; simp
  have hmm : m ∈ text.lines := by rw [hm]; simp
  refine and_congr ?_ ?_
  · rcases Text.apart_of_mem hl hkm with rfl | hlt | hgt <;> omega
  · rcases Text.apart_of_mem hl hmm with rfl | hlt | hgt <;> omega

end Extent

namespace Grammar

variable {g : Grammar} {text : Text} {e : Extent} {styles : List Char}

theorem titleBlock?_of_lines (hg : g.WithinLine) {above : List Line} {k m : Line} {below : List Line} {b : TitleBlock}
    (h : text.lines = above ++ k :: m :: below) (hb : g.blockOn false k (m :: below) = some b) :
    g.titleBlock? text k.start = some b := by
  have hle := k.start_le_stop
  have hc : text.clamp k.start = k.start := Text.clamp_of_le_stop h hle
  rw [titleBlock?_eq hg h (by omega) (by omega), hb]

theorem exists_of_titleBlock? (hg : g.WithinLine) {pos : Int} {b : TitleBlock} (hb : g.titleBlock? text pos = some b) :
    ∃ above k m below, text.lines = above ++ k :: m :: below ∧ g.blockOn false k (m :: below) = some b := by
  obtain ⟨above, k, m, below, h, hkb, -⟩ := exists_of_owner hg (.inl hb)
  exact ⟨above, k, m, below, h, hkb⟩

section Meets

variable {above : List Line} {k m : Line} {below : List Line} {b : TitleBlock}

theorem meets_upper (hg : g.WithinLine) (h : text.lines = above ++ k :: m :: below)
    (hb : g.blockOn false k (m :: below) = some b) (ht : e.Touches text k) : e.Meets g text b :=
  ⟨⟨k.start, titleBlock?_of_lines hg h hb⟩, k, ht, .inl (blockOn_spans h hb).start⟩

theorem meets_lower (hg : g.WithinLine) (h : text.lines = above ++ k :: m :: below)
    (hb : g.blockOn false k (m :: below) = some b) (ht : e.Touches text m) : e.Meets g text b :=
  ⟨⟨k.start, titleBlock?_of_lines hg h hb⟩, m, ht, .inr (blockOn_spans h hb).underlineStart⟩

theorem exists_of_meets (hg : g.WithinLine) (he : e.start ≤ e.stop) (hlen : e.stop ≤ text.length)
    (h : e.Meets g text b) : ∃ above k m below, text.lines = above ++ k :: m :: below ∧
      g.blockOn false k (m :: below) = some b ∧ e.start ≤ m.stop ∧ k.start ≤ e.lastCovered text := by
  obtain ⟨⟨pos, hpos⟩, l, ht, hown⟩ := h
  obtain ⟨hstart, hstop⟩ := (Extent.touches_iff he hlen ht.1).mp ht
  obtain ⟨above, k, m, below, hl, hb⟩ := exists_of_titleBlock? hg hpos
  have hsp := blockOn_spans hl hb
  have hnext := hsp.next
  have hlower := hsp.lower
  have hk : k ∈ text.lines := by rw [hl]; simp
  have hm : m ∈ text.lines := by rw [hl]; simp
  have hline := l.start_le_stop
  have hupper := hsp.upper
  refine ⟨above, k, m, below, hl, hb, ?_⟩
  rcases hown with hown | hown
  · rw [hsp.start] at hown
    rcases Text.apart_of_mem ht.1 hk with rfl | hlt | hgt <;> omega
  · rw [hsp.underlineStart] at hown
    rcases Text.apart_of_mem ht.1 hm with rfl | hlt | hgt <;> omega

theorem meets_of_overlaps (hg : g.WithinLine) (he : e.start ≤ e.stop) (hlen : e.stop ≤ text.length) {pos : Int}
    (hb : g.titleBlock? text pos = some b) (h : e.Overlaps b) : e.Meets g text b := by
  obtain ⟨hstart, hstop⟩ := h
  obtain ⟨above, k, m, below, hl, hkb⟩ := exists_of_titleBlock? hg hb
  have hsp := blockOn_spans hl hkb
  have hfrom := hsp.start
  have hnext := hsp.next
  have hto := hsp.stop_le
  have hk : k ∈ text.lines := by rw [hl]; simp
  have hm : m ∈ text.lines := by rw [hl]; simp
  have hcovered := Extent.start_le_lastCovered text he
  have hlast := le_lastCovered_succ text e
  by_cases hupper : e.start ≤ k.stop
  · exact meets_upper hg hl hkb ((Extent.touches_iff he hlen hk).mpr ⟨hupper, by omega⟩)
  · exact meets_lower hg hl hkb ((Extent.touches_iff he hlen hm).mpr ⟨by omega, by omega⟩)

end Meets

theorem widen_start_isLeast (hg : g.WithinLine) (he : e.start ≤ e.stop) (hlen : e.stop ≤ text.length) :
    IsLeast {n | n = text.lineStart e.start ∨ ∃ b, e.Meets g text b ∧ b.start = n} (g.widen text e).start := by
  have hwide : (g.widen text e).start = g.extentStart text e.start := rfl
  obtain ⟨above, k, rest, hk, hks, hkt, hkf⟩ := Text.exists_focus text e.start
  rw [Text.clamp_of_le (he.trans hlen)] at hks hkt
  have hline : text.lineStart e.start = k.start := by rw [Text.lineStart, Text.lineAt, hkf]
  have htouch : e.Touches text k := (Extent.touches_iff he hlen (by rw [hk]; simp)).mpr
    ⟨hkt, hks.trans (Extent.start_le_lastCovered text he)⟩
  rw [hline]
  constructor
  · rw [Set.mem_ofPred_eq, hwide, extentStart_eq hg hk hks hkt]
    cases hb : above.getLast?.bind fun j => g.blockOn false j (k :: rest) with
    | none => exact .inl rfl
    | some b =>
      obtain ⟨front, j, -, hj, hjb⟩ := exists_of_blockAbove hk hb
      exact .inr ⟨b, meets_lower hg hj hjb htouch, rfl⟩
  · rintro n (rfl | ⟨b, hb, rfl⟩)
    · exact extentStart_le_line hg hk hks hkt
    · obtain ⟨front, j, m, below, hl, hjb, hstart, -⟩ := exists_of_meets hg he hlen hb
      rw [(blockOn_spans hl hjb).start]
      exact extentStart_of_block hg hl hjb hstart

theorem widen_stop_isGreatest (hg : g.WithinLine) (he : e.start ≤ e.stop) (hlen : e.stop ≤ text.length) :
    IsGreatest {n | n = e.stop ∨ n = (e.lastLine text).stop ∨ ∃ b, e.Meets g text b ∧ b.stop = n}
      (g.widen text e).stop := by
  have hwide := widen_stop g text e
  have hlast := Extent.lastCovered_le text e
  obtain ⟨above, l, below, hl, hls, hlt, hlf⟩ := Text.exists_focus text (e.lastCovered text)
  rw [Text.clamp_of_le (hlast.trans hlen)] at hls hlt
  have hline : e.lastLine text = l := by rw [Extent.lastLine_eq, Text.lineAt, hlf]
  have htouch : e.Touches text l := (Extent.touches_iff he hlen (by rw [hl]; simp)).mpr
    ⟨(Extent.start_le_lastCovered text he).trans hlt, hls⟩
  rw [hline]
  constructor
  · rw [Set.mem_ofPred_eq, hwide]
    rcases Nat.le_total (g.extentStop text (e.lastCovered text)) e.stop with hle | hle
    · exact .inl (Nat.max_eq_left hle)
    · rw [Nat.max_eq_right hle, extentStop_eq hg hl hls hlt]
      cases hb : (g.blockOn false l below).or (above.getLast?.bind fun k => g.blockOn false k (l :: below)) with
      | none => exact .inr (.inl rfl)
      | some b =>
        rcases Option.or_eq_some_iff.mp hb with hlow | ⟨-, hup⟩
        · cases below with
          | nil => simp [blockOn] at hlow
          | cons m below => exact .inr (.inr ⟨b, meets_upper hg hl hlow htouch, rfl⟩)
        · obtain ⟨front, k, -, hk, hkb⟩ := exists_of_blockAbove hl hup
          exact .inr (.inr ⟨b, meets_lower hg hk hkb htouch, rfl⟩)
  · have hright : g.extentStop text (e.lastCovered text) ≤ (g.widen text e).stop := Nat.le_max_right _ _
    rintro n (rfl | rfl | ⟨b, hb, rfl⟩)
    · exact Nat.le_max_left _ _
    · exact (le_extentStop_line hg hl hls hlt).trans hright
    · obtain ⟨front, k, m, rest, hk, hkb, -, hstop⟩ := exists_of_meets hg he hlen hb
      exact (stop_le_extentStop hg hk hkb hstop (hlast.trans hlen)).trans hright

theorem widen_contains (hg : g.WithinLine) (he : e.start ≤ e.stop) (hlen : e.stop ≤ text.length) {b : TitleBlock}
    (hb : e.Meets g text b) : (g.widen text e).Contains b :=
  ⟨(widen_start_isLeast hg he hlen).2 (.inr ⟨b, hb, rfl⟩),
    (widen_stop_isGreatest hg he hlen).2 (.inr (.inr ⟨b, hb, rfl⟩))⟩

theorem widen_contains_of_unstacked (hg : g.WithinLine) (hu : g.Unstacked false text.lines) (he : e.start ≤ e.stop)
    (hlen : e.stop ≤ text.length) {pos : Int} {b : TitleBlock} (hb : g.titleBlock? text pos = some b)
    (h : (g.widen text e).Overlaps b) : (g.widen text e).Contains b := by
  obtain ⟨hordered, hwithin⟩ := widenRounds_within hg 1 he hlen
  rw [widenRounds_eq_iterate, Function.iterate_one] at hordered hwithin
  have hcontains := widen_contains hg hordered hwithin (meets_of_overlaps hg hordered hwithin hb h)
  rwa [widen_fixed_of_unstacked hg hu he hlen] at hcontains

/-- A range is widened to the least start and the greatest end among its own end, its first and its last line, and the
blocks that own one of its lines, so it takes in whole every block that it meets. It may meet further ones then, but
only where blocks are stacked. -/
theorem widenRange_hull (h : Accepted styles) (text : Text) (start stop : Int) :
    let g := ofStyles styles
    let asked := Extent.ofRange text start stop
    let wide := (g.widenRange text start stop).1
    IsLeast {n | n = text.lineStart asked.start ∨ ∃ b, asked.Meets g text b ∧ b.start = n} wide.start ∧
      IsGreatest {n | n = asked.stop ∨ n = (asked.lastLine text).stop ∨ ∃ b, asked.Meets g text b ∧ b.stop = n}
        wide.stop ∧
      ((g.widenRange text start stop).2 = true ↔ wide ≠ asked) ∧
      (wide.start ≤ asked.start ∧ asked.stop ≤ wide.stop) ∧
      (∀ b, asked.Meets g text b → wide.Contains b) ∧
      (∀ pos b, g.titleBlock? text pos = some b → asked.Overlaps b → asked.Meets g text b) ∧
      (g.Unstacked false text.lines → ∀ pos b, g.titleBlock? text pos = some b → wide.Overlaps b → wide.Contains b) := by
  intro g asked wide
  have hg : g.WithinLine := h.withinLine
  have hordered := Extent.ofRange_ordered text start stop
  have hwithin := Extent.ofRange_stop_le text start stop
  refine ⟨widen_start_isLeast hg hordered hwithin, widen_stop_isGreatest hg hordered hwithin, decide_eq_true_iff,
    ⟨extentStart_le hg (hordered.trans hwithin), Nat.le_max_left _ _⟩, fun b => widen_contains hg hordered hwithin,
    fun pos b => meets_of_overlaps hg hordered hwithin,
    fun hu pos b => widen_contains_of_unstacked hg hu hordered hwithin⟩

theorem widenRange_hull_stacked : Accepted ['=', '-'] ∧
    let text := "A\n#! =\n-".toList
    let asked := Extent.ofRange text 4 4
    (ofStyles ['=', '-']).widenRange text 4 4 = (⟨0, 8⟩, true) ∧
      IsLeast {n | n = Text.lineStart text asked.start ∨
        ∃ b, asked.Meets (ofStyles ['=', '-']) text b ∧ b.start = n} 0 ∧
      IsGreatest {n | n = asked.stop ∨ n = (asked.lastLine text).stop ∨
        ∃ b, asked.Meets (ofStyles ['=', '-']) text b ∧ b.stop = n} 8 := by
  have haccepted : Accepted ['=', '-'] := by decide
  have hwide : (ofStyles ['=', '-']).widenRange "A\n#! =\n-".toList 4 4 = (⟨0, 8⟩, true) := by decide
  obtain ⟨hleast, hgreatest, -⟩ := widenRange_hull haccepted "A\n#! =\n-".toList 4 4
  rw [hwide] at hleast hgreatest
  exact ⟨haccepted, hwide, hleast, hgreatest⟩

end Grammar

end Literate
