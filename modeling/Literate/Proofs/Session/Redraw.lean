import Literate.Proofs.Extent
import Literate.Proofs.Render.TitleStyle
import Literate.Proofs.Text.Splice
import Literate.Session.Document

/-!
What an edit leaves undrawn. The extent of an edit is found in the new text alone, so a line outside of it that was
the title or the underline of a block still looks like one when the block is gone.
-/

namespace Literate

variable {π : Type}

def Extent.Spares (e : Extent) (l : Line) : Prop :=
  ∀ i, l.start ≤ i → i < l.stop → ¬(e.start ≤ i ∧ i < e.stop)

structure TextEdit.Keeps (e : TextEdit) (source : Text) (old line : Line) : Prop where
  before : old ∈ source.lines
  after : line ∈ (e.apply source).lines
  body : old.body = line.body
  place : ((old.stop : Int) ≤ e.start ∧ line.start = old.start) ∨
    (e.stop ≤ old.start ∧ (line.start : Int) + e.stop = old.start + (e.start + e.text.length))

namespace Document

def Keeps (d : Document) (g : Grammar) (e : TextEdit) (old line : Line) : Prop :=
  ∃ mid, e.Keeps d.text old mid ∧
    match g.resizeUnderline (e.apply d.text) e.start with
    | none => line = mid
    | some r => r.Keeps (e.apply d.text) mid line

def DrawsAll (d : Document) (a : Annotator π) (s : Settings) (e : TextEdit) : Prop :=
  ∀ old line, d.Keeps s.grammar e old line → (d.edited s.grammar e).2.Spares line →
    old.view (a.annotate s none d.text 0 none) =
      line.view (a.annotate s none (d.edited s.grammar e).1.text 0 none)

section Edited

variable {d : Document} {g : Grammar} {e : TextEdit}

theorem edited_text (d : Document) (g : Grammar) (e : TextEdit) : (d.edited g e).1.text =
    (g.resizeUnderline (e.apply d.text) e.start).elim (e.apply d.text) fun r => r.apply (e.apply d.text) := by
  rw [edited, changed, Plan.changed]
  cases g.resizeUnderline (e.apply d.text) e.start <;> rfl

theorem edited_extent (d : Document) (g : Grammar) (e : TextEdit) : (d.edited g e).2 =
    g.widenFully (d.edited g e).1.text e.start (e.start + e.text.length) := by
  rw [edited_text, edited, changed, Plan.changed]
  have hmax : max 0 (e.text.length : Int) = e.text.length := Int.max_eq_right (Int.natCast_nonneg _)
  rw [hmax]

theorem keeps_iff (hr : g.resizeUnderline (e.apply d.text) e.start = none) {old line : Line} :
    d.Keeps g e old line ↔ e.Keeps d.text old line := by
  rw [Keeps, hr]
  constructor
  · rintro ⟨mid, hmid, rfl⟩
    exact hmid
  · intro h
    exact ⟨line, h, rfl⟩

theorem Keeps.lines {old line : Line} (h : d.Keeps g e old line) :
    old ∈ d.text.lines ∧ line ∈ (d.edited g e).1.text.lines ∧ old.body = line.body := by
  obtain ⟨mid, hmid, hline⟩ := h
  rw [edited_text]
  cases hr : g.resizeUnderline (e.apply d.text) e.start with
  | none =>
    rw [hr] at hline
    obtain rfl := hline
    exact ⟨hmid.before, hmid.after, hmid.body⟩
  | some r =>
    rw [hr] at hline
    exact ⟨hmid.before, hline.after, hmid.body.trans hline.body⟩

end Edited

end Document

namespace TextEdit

variable {e : TextEdit} {source : Text}

theorem exists_parts (hstart : 0 ≤ e.start) (hstop : e.start ≤ e.stop) (hlen : e.stop ≤ source.length) :
    ∃ front old back, source = front ++ (old ++ back) ∧ e.apply source = front ++ (e.text ++ back) ∧
      e.start = front.length ∧ e.stop = front.length + old.length := by
  obtain ⟨a, ha⟩ := Int.eq_ofNat_of_zero_le hstart
  obtain ⟨b, hb⟩ := Int.eq_ofNat_of_zero_le (Int.le_trans hstart hstop)
  have hsource := Text.take_take_drop source (show a ≤ b by omega)
  refine ⟨source.take a, (source.drop a).take (b - a), source.drop b, hsource.symm, ?_, ?_, ?_⟩
  · rw [apply, ha, hb, Text.offset_of_le (show a ≤ source.length by omega), Text.offset_of_le (show b ≤ source.length by omega),
      List.append_assoc]
  · rw [List.length_take, Nat.min_eq_left (by omega), ha]
  · rw [List.length_take, List.length_take, List.length_drop, hb]
    omega

theorem ofRange_apply (hstart : 0 ≤ e.start) (hstop : e.start ≤ e.stop) (hlen : e.stop ≤ source.length) :
    ((Extent.ofRange (e.apply source) e.start (e.start + e.text.length)).start : Int) = e.start ∧
      ((Extent.ofRange (e.apply source) e.start (e.start + e.text.length)).stop : Int) = e.start + e.text.length ∧
      (e.text.getLast? ≠ some '\n' →
        (Extent.ofRange (e.apply source) e.start (e.start + e.text.length)).lastCovered (e.apply source) =
          (Extent.ofRange (e.apply source) e.start (e.start + e.text.length)).stop) := by
  obtain ⟨front, old, back, -, happly, hfront, -⟩ := exists_parts hstart hstop hlen
  have hrange : Extent.ofRange (e.apply source) e.start (e.start + e.text.length) =
      ⟨front.length, front.length + e.text.length⟩ := by
    have hend : (front.length : Int) + e.text.length = (front.length + e.text.length : Nat) := rfl
    rw [Extent.ofRange, happly, hfront, hend, Text.clamp_of_le, Text.clamp_of_le, Nat.max_eq_right]
    · exact Nat.le_add_right _ _
    · rw [List.length_append, List.length_append]
      omega
    · rw [List.length_append]
      omega
  rw [hrange, happly]
  refine ⟨hfront.symm, by rw [hfront]; rfl, fun hnew => ?_⟩
  rw [Extent.lastCovered, if_neg]
  rintro ⟨hlt, hc⟩
  apply hnew
  dsimp only at hlt hc
  rw [← hc, List.getElem?_append_right (by omega), List.getElem?_append_left (by omega), List.getLast?_eq_getElem?]
  congr 1
  omega

end TextEdit

namespace Annotator

variable {g : Grammar} {e : TextEdit}

theorem titleStyleAt_of_apart (hg : g.WithinLine) {source : Text} (hu : g.Unstacked false source.lines)
    (hstart : 0 ≤ e.start) (hstop : e.start ≤ e.stop) (hlen : e.stop ≤ source.length) {old line : Line}
    (hkeep : e.Keeps source old line) {above : List Line} {k m : Line} {below : List Line} {b : TitleBlock}
    (h : (e.apply source).lines = above ++ k :: m :: below) (hb : g.blockOn false k (m :: below) = some b)
    (hapart : (m.stop : Int) < e.start ∨ e.start + e.text.length < k.start) {st : Style π}
    (hst : (line = k ∧ st = titleStyle g b) ∨ (line = m ∧ st = .markup)) :
    titleStyleAt g source old.start = some st := by
  have hspan := Grammar.blockOn_spans h hb
  have hnext := hspan.next
  have hupper := hspan.upper
  have hlower := hspan.lower
  have hplace := hkeep.place
  have hold : old.start ≤ old.stop := Nat.le_add_right _ _
  obtain ⟨front, cut, back, hsource, happly, hfront, hcut⟩ := TextEdit.exists_parts hstart hstop hlen
  rw [happly] at h
  rcases hapart with hm | hk
  · obtain ⟨ls, hls⟩ := Text.pair_front h (by omega) cut
    rw [← hsource] at hls
    obtain ⟨htitle, hunder⟩ := titleStyleAt_of_pair (π := π) hg hu hb hls rfl rfl
    rcases hst with ⟨rfl, rfl⟩ | ⟨rfl, rfl⟩
    · have hsame : old.start = line.start := by omega
      rw [hsame, htitle]
    · have hsame : old.start = line.start := by omega
      rw [hsame, hunder]
  · obtain ⟨up, k', m', ls, hls, hkb, hmb, -, hks, hms⟩ := Text.pair_back h (by omega) cut
    rw [← hsource] at hls
    obtain ⟨htitle, hunder⟩ := titleStyleAt_of_pair (π := π) hg hu hb hls hkb hmb
    rcases hst with ⟨rfl, rfl⟩ | ⟨rfl, rfl⟩
    · have hsame : old.start = k'.start := by omega
      rw [hsame, htitle]
    · have hsame : old.start = m'.start := by omega
      rw [hsame, hunder]

end Annotator

namespace Document

open Annotator

variable {d : Document} {e : TextEdit}

theorem titleStyleAt_of_spared {g : Grammar} (hg : g.WithinLine) (hu : g.Unstacked false d.text.lines)
    (hstart : 0 ≤ e.start) (hstop : e.start ≤ e.stop) (hlen : e.stop ≤ d.text.length)
    (hr : g.resizeUnderline (e.apply d.text) e.start = none) (hnew : e.text.getLast? ≠ some '\n') {old line : Line}
    (hkeep : d.Keeps g e old line) (hspare : (d.edited g e).2.Spares line) {st : Style π}
    (hst : titleStyleAt g (d.edited g e).1.text line.start = some st) : titleStyleAt g d.text old.start = some st := by
  have htext : (d.edited g e).1.text = e.apply d.text := by
    rw [edited_text, hr]
    rfl
  rw [keeps_iff hr] at hkeep
  rw [htext] at hst
  obtain ⟨above, k, m, below, b, h, hb, hcase⟩ := exists_of_titleStyleAt hg hkeep.after hst
  apply titleStyleAt_of_apart hg hu hstart hstop hlen hkeep h hb ?_ hcase
  obtain ⟨hrs, hrt, hlast⟩ := TextEdit.ofRange_apply hstart hstop hlen
  have hcover := Grammar.widenFully_covers hg (e.apply d.text) e.start (e.start + e.text.length)
  rw [← htext, ← edited_extent, htext] at hcover
  have hend : (Extent.ofRange (e.apply d.text) e.start (e.start + e.text.length)).stop ≤ (e.apply d.text).length :=
    Nat.max_le.mpr ⟨Text.clamp_le _ _, Text.clamp_le _ _⟩
  have hspan := Grammar.blockOn_spans h hb
  have hupper := hspan.upper
  have hlower := hspan.lower
  have hnext := hspan.next
  rcases Grammar.drawn_or_apart hg hend (hlast hnew) hcover.1 hcover.2 h hb with ⟨hfrom, hto⟩ | hbefore | hafter
  · rcases hcase with ⟨rfl, -⟩ | ⟨rfl, -⟩
    · exact absurd ⟨hfrom, by omega⟩ (hspare _ (Nat.le_refl _) hupper)
    · exact absurd ⟨by omega, hto⟩ (hspare _ (Nat.le_refl _) hlower)
  · exact .inl (by omega)
  · exact .inr (by omega)

variable {s : Settings}

theorem drawsAll_iff_titleStyleAt (hg : s.grammar.WithinLine) (a : Annotator π) (d : Document) (e : TextEdit) :
    d.DrawsAll a s e ↔ ∀ old line, d.Keeps s.grammar e old line → (d.edited s.grammar e).2.Spares line →
      titleStyleAt (π := π) s.grammar d.text old.start =
        titleStyleAt s.grammar (d.edited s.grammar e).1.text line.start := by
  have hfull : ∀ text : Text, a.annotate s none text 0 none =
      a.directives s.grammar (.ofSettings s none) text 0 text.length := by
    intro text
    have hzero : text.clamp 0 = 0 := Nat.zero_min _
    rw [annotate, hzero]
    rfl
  have hview : ∀ old line, d.Keeps s.grammar e old line →
      (old.view (a.annotate s none d.text 0 none) =
          line.view (a.annotate s none (d.edited s.grammar e).1.text 0 none) ↔
        titleStyleAt (π := π) s.grammar d.text old.start =
          titleStyleAt s.grammar (d.edited s.grammar e).1.text line.start) := by
    intro old line hkeep
    obtain ⟨hold, hline, hbody⟩ := hkeep.lines
    rw [hfull, hfull]
    exact view_eq_iff hg rfl hold hline hbody
  constructor
  · intro h old line hkeep hspare
    exact (hview old line hkeep).mp (h old line hkeep hspare)
  · intro h old line hkeep hspare
    exact (hview old line hkeep).mpr (h old line hkeep hspare)

/-- A host that draws the extent of an edit shows what a full redraw would if and only if no line outside of the
extent changes the style of its title block. Where the edit resizes nothing, does not end with a newline, and no
line belonged to two blocks, this means that no such line loses its block. -/
theorem drawsAll_iff (h : Grammar.Accepted s.titleStyles) (a : Annotator π) (d : Document) {e : TextEdit}
    (hstart : 0 ≤ e.start) (hstop : e.start ≤ e.stop) (hlen : e.stop ≤ d.text.length) :
    (d.DrawsAll a s e ↔ ∀ old line, d.Keeps s.grammar e old line → (d.edited s.grammar e).2.Spares line →
        titleStyleAt (π := π) s.grammar d.text old.start =
          titleStyleAt s.grammar (d.edited s.grammar e).1.text line.start) ∧
      (s.grammar.resizeUnderline (e.apply d.text) e.start = none → e.text.getLast? ≠ some '\n' →
        (∀ pos ≤ d.text.length,
          s.grammar.titleBlock? d.text pos = none ∨ s.grammar.titleBlockAbove d.text pos = none) →
        (d.DrawsAll a s e ↔ ∀ old line, d.Keeps s.grammar e old line → (d.edited s.grammar e).2.Spares line →
          (∃ b ∈ s.grammar.titleBlocks d.text 0 d.text.length, b.Owns old.start) →
          ∃ b ∈ s.grammar.titleBlocks (d.edited s.grammar e).1.text 0 (d.edited s.grammar e).1.text.length,
            b.Owns line.start)) := by
  have hg : s.grammar.WithinLine := h.withinLine
  have hstyle := drawsAll_iff_titleStyleAt hg a d e
  refine ⟨hstyle, fun hr hnew hsingle => ?_⟩
  have hu := Grammar.unstacked_of_single hg hsingle
  rw [hstyle]
  constructor
  · intro hall old line hkeep hspare hold
    by_contra hline
    have heq := hall old line hkeep hspare
    rw [titleStyleAt_eq_none_iff.mpr hline] at heq
    exact titleStyleAt_eq_none_iff.mp heq hold
  · intro hall old line hkeep hspare
    cases hst : titleStyleAt (π := π) s.grammar (d.edited s.grammar e).1.text line.start with
    | some st => exact titleStyleAt_of_spared hg hu hstart hstop hlen hr hnew hkeep hspare hst
    | none =>
      rw [titleStyleAt_eq_none_iff] at hst ⊢
      exact fun hold => hst (hall old line hkeep hspare hold)

theorem not_drawsAll_without_underline : Grammar.Accepted ({} : Settings).titleStyles ∧
    ¬(ofText "A\n=".toList 0 false).DrawsAll (Annotator.mk none [] : Annotator Unit) {} ⟨2, 3, ['x']⟩ := by
  have h : Grammar.Accepted ({} : Settings).titleStyles := by decide
  have hr : ({} : Settings).grammar.resizeUnderline
      (TextEdit.apply ⟨2, 3, ['x']⟩ (ofText "A\n=".toList 0 false).text) 2 = none := by decide
  have hkeep : (ofText "A\n=".toList 0 false).Keeps ({} : Settings).grammar ⟨2, 3, ['x']⟩ ⟨0, ['A']⟩ ⟨0, ['A']⟩ :=
    (keeps_iff hr).mpr ⟨by decide, by decide, rfl, .inl ⟨by decide, rfl⟩⟩
  have hextent : ((ofText "A\n=".toList 0 false).edited ({} : Settings).grammar ⟨2, 3, ['x']⟩).2 = ⟨2, 3⟩ := by decide
  have hiff := (drawsAll_iff h (Annotator.mk none [] : Annotator Unit) (ofText "A\n=".toList 0 false)
    (e := ⟨2, 3, ['x']⟩) (by decide) (by decide) (by decide)).2 hr (by decide) (by decide)
  refine ⟨h, fun hall => absurd (hiff.mp hall _ _ hkeep ?_ (by decide)) (by decide)⟩
  rw [hextent]
  intro i _ ht hi
  simp only [Line.stop, List.length_singleton] at ht hi
  omega

end Document

end Literate
