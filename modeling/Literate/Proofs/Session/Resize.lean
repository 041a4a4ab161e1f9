import Literate.Proofs.Extent.Rounds
import Literate.Proofs.Session.Redraw
import Literate.Proofs.Title.Written

/-!
What a resize leaves of the extent of a change. The extent is found in the text that the resize leaves, but from
positions of the text before it, so it falls short where the resize moves what was put in.
-/

namespace Literate

open Unicode

namespace TextEdit

variable {e : TextEdit} {source : Text}

def growth (e : TextEdit) : Int := e.text.length - (e.stop - e.start)

def place? (e : TextEdit) (i : Int) : Option Int :=
  if i < e.start then some i else if e.stop ≤ i then some (i + e.growth) else none

theorem getElem?_place (hstart : 0 ≤ e.start) (hstop : e.start ≤ e.stop) (hlen : e.stop ≤ source.length) {i : Nat}
    {j : Int} (h : e.place? i = some j) : 0 ≤ j ∧ (e.apply source)[j.toNat]? = source[i]? := by
  obtain ⟨front, old, back, hs, ha, hfront, hold⟩ := exists_parts hstart hstop hlen
  rw [ha, hs]
  rw [place?] at h
  split at h
  · obtain rfl : (i : Int) = j := by simpa using h
    refine ⟨Int.natCast_nonneg i, ?_⟩
    rw [Int.toNat_natCast, List.getElem?_append_left (by omega), List.getElem?_append_left (by omega)]
  · split at h
    · obtain rfl : i + e.growth = j := by simpa using h
      have hj : ((i : Int) + e.growth).toNat + old.length = i + e.text.length := by
        simp only [growth]
        omega
      refine ⟨by simp only [growth]; omega, ?_⟩
      rw [List.getElem?_append_right (by omega), List.getElem?_append_right (by omega),
        List.getElem?_append_right (by omega), List.getElem?_append_right (by omega)]
      congr 1
      omega
    · simp at h

theorem length_apply (hstart : 0 ≤ e.start) (hstop : e.start ≤ e.stop) (hlen : e.stop ≤ source.length) :
    ((e.apply source).length : Int) = source.length + e.growth := by
  obtain ⟨front, old, back, hs, ha, hfront, hold⟩ := exists_parts hstart hstop hlen
  rw [ha, hs, growth]
  simp only [List.length_append]
  omega

end TextEdit

namespace Grammar

variable {styles : List Char} {text : Text} {above : List Line} {k m : Line} {below : List Line} {b : TitleBlock}

theorem growth_setUnderline (b : TitleBlock) (c : Char) :
    (b.setUnderline c).growth = b.titleWidth - b.underline.length := by
  have hrun : b.runStop = b.runStart + b.underline.length := rfl
  simp only [TextEdit.growth, TitleBlock.setUnderline, List.length_replicate]
  omega

structure Resized (g : Grammar) (after : Text) (b c : TitleBlock) (growth : Int) (above : List Line) (k m : Line)
    (below : List Line) : Prop where
  lines : after.lines = above ++ k :: m :: below
  block : g.blockOn false k (m :: below) = some c
  start : b.start = k.start
  underlineStop : (m.stop : Int) = b.underlineStop + growth
  closed : b.closed = true ↔ below ≠ []

theorem exists_resized (h : Accepted styles) (hlines : text.lines = above ++ k :: m :: below)
    (hb : (ofStyles styles).blockOn false k (m :: below) = some b) (hw : 0 < b.titleWidth) :
    ∃ c m' below', (ofStyles styles).Resized ((b.setUnderline b.underline.char).apply text) b c
      (b.setUnderline b.underline.char).growth above k m' below' := by
  have h' : text.lines = (above ++ [k]) ++ m :: below := by rw [hlines]; simp
  have hm : '\n' ∉ m.body := Text.newline_not_mem_body (n := 0) hlines (by simp)
  have happly := apply_setUnderline hlines hb b.underline.char
  have hgrowth := growth_setUnderline b b.underline.char
  have hspan := blockOn_spans hlines hb
  have hend := hspan.underlineStop
  obtain ⟨t, u, ht, hu, hbu⟩ := pair?_eq_some hb
  have hunder : b.underline = u.1 := by rw [hbu]
  rw [hunder] at happly hgrowth ⊢
  obtain ⟨hnew, hsome⟩ := underline?_resized h hm hu hw
  obtain ⟨below', hlines', hbelow⟩ := Text.lines_replace h' hnew
  rw [← happly, List.append_assoc, List.singleton_append] at hlines'
  have htitle : ((ofStyles styles).titleLine? k.body).isSome = true := by rw [ht]; rfl
  have hblock : ((ofStyles styles).blockOn false k
      (⟨m.start, u.1.marker ++ (List.replicate b.titleWidth u.1.char ++ u.1.pad)⟩ :: below')).isSome = true :=
    blockOn_isSome htitle hsome
  obtain ⟨c, hc⟩ := Option.isSome_iff_exists.mp hblock
  refine ⟨c, _, below', hlines', hc, hspan.start, ?_, ?_⟩
  · have hlen := congrArg List.length (underline?_parts hm hu).1
    simp only [Underline.body, Underline.run, List.length_append, List.length_replicate] at hlen
    simp only [Line.stop, List.length_append, List.length_replicate] at hend ⊢
    omega
  · rw [hspan.closed, Ne, hbelow]
    simp

namespace Resized

variable {g : Grammar} {after : Text} {c : TitleBlock} {growth : Int}

theorem stop (hr : g.Resized after b c growth above k m below) : (c.stop : Int) = b.stop + growth := by
  have hend := hr.underlineStop
  have hstop := (blockOn_spans hr.lines hr.block).stop_eq
  have hclosed := hr.closed
  have hb : b.stop = b.underlineStop + if b.closed = true then 1 else 0 := rfl
  cases below with
  | nil =>
    have hopen : ¬b.closed = true := fun hc => hclosed.mp hc rfl
    rw [if_neg hopen] at hb
    simp only [List.isEmpty_nil, Bool.not_true, Bool.or_false, Bool.false_eq_true, if_false] at hstop
    omega
  | cons n below =>
    rw [if_pos (hclosed.mpr (by simp))] at hb
    simp only [List.isEmpty_cons, Bool.not_false, Bool.or_true, if_true] at hstop
    omega

theorem extentStart_le_iff (hg : g.WithinLine) (hr : g.Resized after b c growth above k m below) (p : Nat) :
    g.extentStart after (min p after.length) ≤ b.start ↔ (b.closed = true → (p : Int) ≤ b.underlineStop + growth) := by
  have hend := hr.underlineStop
  have h := hr.lines
  have h' : after.lines = (above ++ [k]) ++ m :: below := by rw [h]; simp
  rw [hr.closed, hr.start]
  constructor
  · intro hstart hbelow
    obtain ⟨n, below, rfl⟩ := List.exists_cons_of_ne_nil hbelow
    have hn : n ∈ Text.linesFrom 0 after := by rw [← Text.lines_eq_linesFrom, h]; simp
    have hlen := Text.stop_le_of_mem hn
    have hnext := Text.next_start (n := 0) h'
    have hupper := Text.next_start (n := 0) h
    have hline := n.start_le_stop
    have hkline := k.start_le_stop
    by_contra hp
    have := le_extentStart hg h (show m.stop < min p after.length by omega) (Nat.min_le_right _ _)
    omega
  · intro hblock
    apply extentStart_of_block hg h hr.block
    by_cases hbelow : below = []
    · subst hbelow
      have hlast := Text.last_stop (n := 0) h'
      omega
    · have := hblock hbelow
      omega

end Resized

theorem resizeUnderline_eq_some {g : Grammar} {pos : Int} {r : TextEdit} (hr : g.resizeUnderline text pos = some r)
    (hb : g.titleBlockAt text pos = some b) : r = b.setUnderline b.underline.char := by
  rw [resizeUnderline_of_block hb] at hr
  split at hr
  · simp at hr
  · exact (Option.some.inj hr).symm

end Grammar

namespace Document

structure CoversChange (d : Document) (g : Grammar) (pos added : Int) : Prop where
  inserted : ∀ i j, pos ≤ i → i < pos + added →
    (g.resizeUnderline d.text pos).elim (some i) (·.place? i) = some j →
      (d.changed g pos added).2.start ≤ j ∧ j < (d.changed g pos added).2.stop
  block : ∀ r b, g.resizeUnderline d.text pos = some r → g.titleBlockAt d.text pos = some b →
    (d.changed g pos added).2.start ≤ b.start ∧ b.stop + r.growth ≤ (d.changed g pos added).2.stop

structure ReachesResized (g : Grammar) (after : Text) (b : TitleBlock) (growth pos added : Int) : Prop where
  block : b.closed = true → pos ≤ b.underlineStop + growth
  behind : b.stop < pos + added → growth ≤ 0 ∨
    pos + added + growth ≤ g.extentStop after ((Extent.ofRange after pos (pos + added)).lastCovered after)

variable {d : Document} {g : Grammar} {pos added : Int} {r : TextEdit} {b : TitleBlock}

theorem changed_text (d : Document) (g : Grammar) (pos added : Int) : (d.changed g pos added).1.text =
    (g.resizeUnderline d.text pos).elim d.text fun r => r.apply d.text := by
  rw [changed, Plan.changed]
  cases g.resizeUnderline d.text pos <;> rfl

theorem changed_extent (d : Document) (g : Grammar) (pos : Int) (hadded : 0 ≤ added) : (d.changed g pos added).2 =
    g.widenFully (d.changed g pos added).1.text pos (pos + added) := by
  rw [changed_text, changed, Plan.changed, Int.max_eq_right hadded]

theorem coversChange_of_quiet (hg : g.WithinLine) (hpos : 0 ≤ pos) (hadded : 0 ≤ added)
    (hlen : pos + added ≤ d.text.length) (hr : g.resizeUnderline d.text pos = none) : d.CoversChange g pos added := by
  have htext : (d.changed g pos added).1.text = d.text := by
    rw [changed_text, hr]
    rfl
  have hextent := changed_extent d g pos hadded
  rw [htext] at hextent
  obtain ⟨hfrom, hto⟩ := Grammar.widenFully_takes_in hg d.text pos (pos + added)
  rw [← hextent] at hfrom hto
  constructor
  · intro i j hi hj hplace
    rw [hr] at hplace
    obtain rfl : i = j := by simpa using hplace
    simp only [Text.clamp] at hfrom hto
    omega
  · intro r b hr'
    simp [hr] at hr'

theorem coversChange_iff_of_resize (hr : g.resizeUnderline d.text pos = some r)
    (hb : g.titleBlockAt d.text pos = some b) (hin : pos ≤ b.stop) (hfrom : (d.changed g pos added).2.start ≤ pos) :
    d.CoversChange g pos added ↔ (d.changed g pos added).2.start ≤ b.start ∧
      max (b.stop : Int) (pos + added) + r.growth ≤ (d.changed g pos added).2.stop := by
  obtain rfl := Grammar.resizeUnderline_eq_some hr hb
  have hgrowth := Grammar.growth_setUnderline b b.underline.char
  have hrun : b.runStop = b.runStart + b.underline.length := rfl
  have hstart : b.start ≤ b.runStart := by
    simp only [TitleBlock.runStart, TitleBlock.underlineStart, TitleBlock.headingStop, TitleBlock.titleStop,
      TitleBlock.titleStart]
    omega
  have hstop : b.runStop ≤ b.stop := (Nat.le_add_right _ _).trans (Nat.le_add_right _ _)
  have hedit : (b.setUnderline b.underline.char).start = b.runStart ∧
      (b.setUnderline b.underline.char).stop = b.runStop := ⟨rfl, rfl⟩
  constructor
  · rintro ⟨hins, hblock⟩
    obtain ⟨hbs, hbt⟩ := hblock _ b hr hb
    refine ⟨hbs, ?_⟩
    by_cases hbehind : b.stop < pos + added
    · have hlast := hins (pos + added - 1) (pos + added - 1 + (b.setUnderline b.underline.char).growth) (by omega)
        (by omega) (by
          rw [hr, Option.elim_some, TextEdit.place?, if_neg (by omega), if_pos (by omega)])
      omega
    · omega
  · rintro ⟨hbs, hbt⟩
    constructor
    · intro i j hi hj hplace
      rw [hr, Option.elim_some, TextEdit.place?] at hplace
      split at hplace
      · obtain rfl : i = j := by simpa using hplace
        omega
      · split at hplace
        · obtain rfl : i + (b.setUnderline b.underline.char).growth = j := by simpa using hplace
          omega
        · simp at hplace
    · intro r c hr' hc
      obtain rfl : b.setUnderline b.underline.char = r := Option.some.inj (hr.symm.trans hr')
      obtain rfl : b = c := Option.some.inj (hb.symm.trans hc)
      omega

theorem changed_start_le (hg : g.WithinLine) (hpos : 0 ≤ pos) (hadded : 0 ≤ added) :
    (d.changed g pos added).2.start ≤ pos := by
  have hfrom := (Grammar.widenFully_takes_in hg (d.changed g pos added).1.text pos (pos + added)).1
  rw [← changed_extent d g pos hadded, Text.clamp] at hfrom
  omega

section Resized

variable {above : List Line} {k m : Line} {below : List Line} {c : TitleBlock} {after : Text} {growth : Int} {p a : Nat}

theorem ofRange_eq (after : Text) (p a : Nat) :
    Extent.ofRange after p (p + a : Int) = ⟨min p after.length, min (p + a) after.length⟩ := by
  have hcast : (p + a : Int) = (p + a : Nat) := rfl
  rw [Extent.ofRange, hcast, Text.clamp, Text.clamp, Int.toNat_natCast, Int.toNat_natCast, Nat.max_eq_right]
  omega

theorem covered_of_reaches (hg : g.WithinLine) (hr : g.Resized after b c growth above k m below)
    (hp : b.start ≤ p) (hlen : p + a + growth ≤ after.length) (hreach : ReachesResized g after b growth p a) :
    (g.widenFully after p (p + a)).start ≤ b.start ∧
      max (b.stop : Int) (p + a) + growth ≤ (g.widenFully after p (p + a)).stop := by
  obtain ⟨hstart, hstop⟩ := Grammar.widenFully_covers hg after p (p + a)
  have hfrom := (hr.extentStart_le_iff hg p).mpr hreach.block
  have hbehind := hreach.behind
  have hlast := Extent.start_le_lastCovered (e := ⟨min p after.length, min (p + a) after.length⟩) after
    (show min p after.length ≤ min (p + a) after.length by omega)
  have hend := Extent.lastCovered_le after ⟨min p after.length, min (p + a) after.length⟩
  have hblock : c.stop ≤ g.extentStop after
      ((⟨min p after.length, min (p + a) after.length⟩ : Extent).lastCovered after) := by
    have hkl := Text.stop_le_length hr.lines
    have hks := hr.start
    have hline := k.start_le_stop
    dsimp only at hlast hend
    exact Grammar.stop_le_extentStop hg hr.lines hr.block (by omega) (by omega)
  have hcstop := hr.stop
  rw [ofRange_eq] at hstart hstop hbehind
  rw [Grammar.widen_stop] at hstop
  dsimp only at hstop
  exact ⟨hstart.trans hfrom, by omega⟩

theorem reaches_of_covered (hg : g.WithinLine) (hu : g.Unstacked false after.lines)
    (hr : g.Resized after b c growth above k m below) (hstart : (g.widenFully after p (p + a)).start ≤ b.start)
    (hstop : max (b.stop : Int) (p + a) + growth ≤ (g.widenFully after p (p + a)).stop) :
    ReachesResized g after b growth p a := by
  rw [Grammar.widenFully_of_unstacked hg hu, ofRange_eq] at hstart hstop
  rw [Grammar.widen_stop] at hstop
  refine ⟨(hr.extentStart_le_iff hg p).mp hstart, fun hbehind => ?_⟩
  rw [ofRange_eq]
  dsimp only at hstop
  omega

end Resized

/-- Without a resize the extent covers the change. With one, it does where the positions of the edit still reach the
block and what was put in behind it; where no line of the new text belongs to two blocks, it does only there. -/
theorem coversChange_iff {styles : List Char} (h : Grammar.Accepted styles) (d : Document) (hpos : 0 ≤ pos)
    (hadded : 0 ≤ added) (hlen : pos + added ≤ d.text.length) :
    let g := Grammar.ofStyles styles
    (g.resizeUnderline d.text pos = none → d.CoversChange g pos added) ∧
      ∀ r b, g.resizeUnderline d.text pos = some r → g.titleBlockAt d.text pos = some b →
        (d.CoversChange g pos added ↔ (d.changed g pos added).2.start ≤ b.start ∧
          max (b.stop : Int) (pos + added) + r.growth ≤ (d.changed g pos added).2.stop) ∧
        (0 < b.titleWidth →
          (∃ c, g.titleBlock? (r.apply d.text) b.start = some c ∧ c.start = b.start ∧
            (c.stop : Int) = b.stop + r.growth) ∧
          (ReachesResized g (r.apply d.text) b r.growth pos added → d.CoversChange g pos added) ∧
          ((∀ p ≤ (r.apply d.text).length,
              g.titleBlock? (r.apply d.text) p = none ∨ g.titleBlockAbove (r.apply d.text) p = none) →
            d.CoversChange g pos added → ReachesResized g (r.apply d.text) b r.growth pos added)) := by
  intro g
  have hg : g.WithinLine := h.withinLine
  refine ⟨coversChange_of_quiet hg hpos hadded hlen, fun r b hr hb => ?_⟩
  obtain ⟨p, rfl⟩ := Int.eq_ofNat_of_zero_le hpos
  obtain ⟨a, rfl⟩ := Int.eq_ofNat_of_zero_le hadded
  obtain ⟨above, k, m, below, hlines, hkb, hkp, hpm⟩ := Grammar.exists_of_titleBlockAt hg (by omega) hb
  have hspan := Grammar.blockOn_spans hlines hkb
  have hbstop := hspan.le_stop
  have hiff := coversChange_iff_of_resize hr hb (by omega) (changed_start_le hg hpos hadded)
  refine ⟨hiff, fun hw => ?_⟩
  rw [hiff]
  have hextent := changed_extent d g p hadded
  rw [changed_text, hr, Option.elim_some] at hextent
  rw [hextent]
  obtain rfl := Grammar.resizeUnderline_eq_some hr hb
  obtain ⟨c, m', below', hres⟩ := Grammar.exists_resized h hlines hkb hw
  have hstart := hspan.start
  have hrun : b.runStart ≤ b.runStop := Nat.le_add_right _ _
  have hstop : b.runStop ≤ d.text.length := by
    have := Grammar.stop_le_length hlines hkb
    have : b.runStop ≤ b.stop := (Nat.le_add_right _ _).trans (Nat.le_add_right _ _)
    omega
  have hlength := TextEdit.length_apply (e := b.setUnderline b.underline.char) (Int.natCast_nonneg _)
    (Int.ofNat_le.mpr hrun) (Int.ofNat_le.mpr hstop)
  refine ⟨⟨c, ?_, ?_, hres.stop⟩, fun hreach => ?_, fun hsingle ⟨hfrom, hto⟩ => ?_⟩
  · have hline := k.start_le_stop
    have hclamp := Text.clamp_of_le_stop hres.lines hline
    rw [hres.start, Grammar.titleBlock?_eq hg hres.lines (by omega) (by omega), hres.block]
  · exact (Grammar.blockOn_spans hres.lines hres.block).start.trans hres.start.symm
  · exact covered_of_reaches hg hres (by omega) (by omega) hreach
  · exact reaches_of_covered hg (Grammar.unstacked_of_single hg hsingle) hres hfrom hto

theorem not_coversChange_of_growth : Grammar.Accepted ['='] ∧
    ¬(ofText "Title\n==\nfoo".toList 0 false).CoversChange (Grammar.ofStyles ['=']) 0 12 := by
  have h : Grammar.Accepted ['='] := by decide
  refine ⟨h, fun hcovers => ?_⟩
  have hresize := (coversChange_iff h (ofText "Title\n==\nfoo".toList 0 false) (show (0 : Int) ≤ 0 by decide)
    (show (0 : Int) ≤ 12 by decide) (by decide)).2 ⟨6, 8, "=====".toList⟩ ⟨0, ⟨[], "Title".toList, []⟩, ⟨[], '=', 2, []⟩, true⟩
    (by decide +kernel) (by decide +kernel)
  have hreach := (hresize.2 (by decide)).2.2 (by decide +kernel) hcovers
  exact absurd (hreach.behind (by decide)) (by decide +kernel)

end Document

end Literate
