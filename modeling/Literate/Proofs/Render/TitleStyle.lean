import Literate.Proofs.Render.View

namespace Literate

variable {π : Type}

namespace Annotator

def titleStyleAt (g : Grammar) (text : Text) (start : Nat) : Option (Style π) :=
  (TitleBlock.owner? (g.titleBlocks text 0 text.length) start).map fun b =>
    if b.start = start then titleStyle g b else .markup

theorem titleStyle_ne_markup (g : Grammar) (b : TitleBlock) : titleStyle (π := π) g b ≠ .markup := by
  unfold titleStyle Style.ofIndex
  split <;> simp

variable {g : Grammar} {v : Visibility} {a : Annotator π}

theorem owner?_parts (hg : g.WithinLine) {text : Text} {l : Line} (hl : l ∈ text.lines) {b : TitleBlock}
    (h : TitleBlock.owner? (g.titleBlocks text 0 text.length) l.start = some b) :
    (b.start = l.start ∧ g.titleLine? l.body = some b.heading) ∨
      (b.start ≠ l.start ∧ (g.underline? l.body).map Prod.fst = some b.underline) := by
  obtain ⟨above, k, m, below, he, hb, hline⟩ := Grammar.exists_of_owner? hg hl h
  have hsp := Grammar.blockOn_spans he hb
  have hstart := hsp.start
  have hnext := hsp.next
  have hupper := hsp.upper
  obtain ⟨t, u, ht, hu, rfl⟩ := Grammar.pair?_eq_some hb
  rcases hline with rfl | rfl
  · exact .inl ⟨hstart, ht⟩
  · exact .inr ⟨by omega, by rw [hu]; rfl⟩

theorem hidesTitle_of_none (hv : v.revealed = none) (s : Span) : v.hidesTitle s = v.hideTitles := by
  rw [Visibility.hidesTitle, Visibility.covers, hv]
  simp

section Lines

variable {text text' : Text} {l l' : Line}

theorem view_own (hv : v.revealed = none) (l : Line) :
    l.view (commentsOn (π := π) g v l) = (Line.mk 0 l.body).view (commentsOn g v ⟨0, l.body⟩) ∧
      l.view (a.doctestsOn g l) = (Line.mk 0 l.body).view (a.doctestsOn g ⟨0, l.body⟩) ∧
      l.view (a.quotesOn g v l) = (Line.mk 0 l.body).view (a.quotesOn g v ⟨0, l.body⟩) := by
  have hl : l = (Line.mk 0 l.body).shift l.start := by rw [Line.shift, Nat.zero_add]
  have hcomments := view_commentsOn_shift (π := π) (g := g) (v := v) ⟨0, l.body⟩ l.start
  have hdoctests := view_doctestsOn_shift (a := a) (g := g) ⟨0, l.body⟩ l.start
  have hquotes := view_quotesOn_shift (a := a) (g := g) (v := v) ⟨0, l.body⟩ l.start
  rw [← hl] at hcomments hdoctests hquotes
  rw [Visibility.shift_eq_self hv] at hcomments hquotes
  exact ⟨hcomments, hdoctests, hquotes⟩

theorem getLast?_blockPart (start : Nat) (b : TitleBlock) : (blockPart (π := π) g v start b).getLast?.map
    Directive.style = some (if b.start = start then titleStyle g b else .markup) := by
  rw [blockPart]
  split
  · rw [headingPart, List.getLast?_concat]
    rfl
  · rw [underlinePart, List.getLast?_concat]
    rfl

theorem part_eq_iff (hg : g.WithinLine) (hv : v.revealed = none) (hl : l ∈ text.lines) (hl' : l' ∈ text'.lines)
    (hbody : l.body = l'.body) :
    (TitleBlock.owner? (g.titleBlocks text 0 text.length) l.start).elim [] (blockPart (π := π) g v l.start) =
        (TitleBlock.owner? (g.titleBlocks text' 0 text'.length) l'.start).elim [] (blockPart g v l'.start) ↔
      titleStyleAt (π := π) g text l.start = titleStyleAt g text' l'.start := by
  have hlast : ∀ (o : Option TitleBlock) (start : Nat),
      (o.elim [] (blockPart (π := π) g v start)).getLast?.map Directive.style =
        o.map fun b => if b.start = start then titleStyle g b else .markup := by
    intro o start
    cases o with
    | none => rfl
    | some b => exact getLast?_blockPart start b
  constructor
  · intro he
    rw [titleStyleAt, titleStyleAt, ← hlast, ← hlast, he]
  · rw [titleStyleAt, titleStyleAt]
    intro he
    cases ho : TitleBlock.owner? (g.titleBlocks text 0 text.length) l.start with
    | none =>
      rw [ho, Option.map_none, eq_comm, Option.map_eq_none_iff] at he
      rw [he]
      rfl
    | some b =>
      cases ho' : TitleBlock.owner? (g.titleBlocks text' 0 text'.length) l'.start with
      | none => simp [ho, ho'] at he
      | some b' =>
        rw [ho, ho', Option.map_some, Option.map_some, Option.some_inj] at he
        rw [Option.elim_some, Option.elim_some, blockPart, blockPart, hidesTitle_of_none hv, hidesTitle_of_none hv]
        rcases owner?_parts hg hl ho with ⟨hs, ht⟩ | ⟨hs, ht⟩ <;>
          rcases owner?_parts hg hl' ho' with ⟨hs', ht'⟩ | ⟨hs', ht'⟩
        · rw [if_pos hs, if_pos hs'] at he
          rw [hbody, ht', Option.some_inj] at ht
          rw [if_pos hs, if_pos hs', he, ht]
        · rw [if_pos hs, if_neg hs'] at he
          exact absurd he (titleStyle_ne_markup g b)
        · rw [if_neg hs, if_pos hs'] at he
          exact absurd he.symm (titleStyle_ne_markup g b')
        · rw [hbody, ht', Option.some_inj] at ht
          rw [if_neg hs, if_neg hs', ht]

theorem view_eq_iff (hg : g.WithinLine) (hv : v.revealed = none) (hl : l ∈ text.lines) (hl' : l' ∈ text'.lines)
    (hbody : l.body = l'.body) :
    l.view (a.directives g v text 0 text.length) = l'.view (a.directives g v text' 0 text'.length) ↔
      titleStyleAt (π := π) g text l.start = titleStyleAt g text' l'.start := by
  obtain ⟨above, below, h⟩ := List.append_of_mem hl
  obtain ⟨above', below', h'⟩ := List.append_of_mem hl'
  obtain ⟨hc, hd, hq⟩ := view_own (a := a) (g := g) hv l
  obtain ⟨hc', hd', hq'⟩ := view_own (a := a) (g := g) hv l'
  rw [← part_eq_iff hg hv hl hl' hbody, directives_all hg, directives_all hg, view_ofLines h, view_ofLines h',
    hc, hd, hq, hc', hd', hq', hbody, Grammar.titleBlocks_all hg, Grammar.titleBlocks_all hg,
    List.append_cancel_right_eq, List.append_cancel_right_eq, List.append_cancel_left_eq]

end Lines

section Blocks

variable {text : Text} {above : List Line} {k m : Line} {below : List Line} {b : TitleBlock}

theorem exists_of_titleStyleAt (hg : g.WithinLine) {l : Line} (hl : l ∈ text.lines) {st : Style π}
    (h : titleStyleAt g text l.start = some st) :
    ∃ above k m below b, text.lines = above ++ k :: m :: below ∧ g.blockOn false k (m :: below) = some b ∧
      ((l = k ∧ st = titleStyle g b) ∨ (l = m ∧ st = .markup)) := by
  obtain ⟨b, ho, rfl⟩ := Option.map_eq_some_iff.mp h
  obtain ⟨above, k, m, below, he, hb, hline⟩ := Grammar.exists_of_owner? hg hl ho
  refine ⟨above, k, m, below, b, he, hb, ?_⟩
  have hsp := Grammar.blockOn_spans he hb
  have hstart := hsp.start
  have hnext := hsp.next
  have hupper := hsp.upper
  rcases hline with rfl | rfl
  · exact .inl ⟨rfl, if_pos hstart⟩
  · exact .inr ⟨rfl, if_neg (by omega)⟩

theorem titleStyleAt_upper (hg : g.WithinLine) (hu : g.Unstacked false text.lines)
    (h : text.lines = above ++ k :: m :: below) (hb : g.blockOn false k (m :: below) = some b) :
    titleStyleAt (π := π) g text k.start = some (titleStyle g b) := by
  rw [titleStyleAt, Grammar.titleBlocks_all hg, Grammar.owner?_of_unstacked hg hu h, hb, Option.some_or,
    Option.map_some, if_pos (Grammar.blockOn_spans h hb).start]

theorem titleStyleAt_lower (hg : g.WithinLine) (hu : g.Unstacked false text.lines)
    (h : text.lines = above ++ k :: m :: below) (hb : g.blockOn false k (m :: below) = some b) :
    titleStyleAt (π := π) g text m.start = some .markup := by
  have h' : text.lines = (above ++ [k]) ++ m :: below := by rw [h]; simp
  have hsp := Grammar.blockOn_spans h hb
  have hstart := hsp.start
  have hnext := hsp.next
  have hupper := hsp.upper
  rw [titleStyleAt, Grammar.titleBlocks_all hg, Grammar.owner?_of_unstacked hg hu h',
    hu above k m below h (by rw [hb]; rfl), Option.none_or, List.getLast?_concat, Option.bind_some, hb,
    Option.map_some, if_neg (by omega)]

theorem titleStyleAt_of_pair (hg : g.WithinLine) (hu : g.Unstacked false text.lines)
    (hb : g.blockOn false k (m :: below) = some b) {up ls : List Line} {k' m' : Line}
    (h : text.lines = up ++ k' :: m' :: ls) (hk : k'.body = k.body) (hm : m'.body = m.body) :
    titleStyleAt (π := π) g text k'.start = some (titleStyle g b) ∧
      titleStyleAt (π := π) g text m'.start = some .markup := by
  obtain ⟨t, u, ht, hun, rfl⟩ := Grammar.pair?_eq_some hb
  have hb' : g.blockOn false k' (m' :: ls) = some ⟨k'.start, t, u.1, false || !ls.isEmpty⟩ := by
    rw [Grammar.blockOn, Grammar.pair?, hk, hm, ht, hun]
    rfl
  constructor
  · rw [titleStyleAt_upper hg hu h hb']
    rfl
  · exact titleStyleAt_lower hg hu h hb'

theorem titleStyleAt_eq_none_iff {start : Nat} : titleStyleAt (π := π) g text start = none ↔
    ¬∃ b ∈ g.titleBlocks text 0 text.length, b.Owns start := by
  rw [titleStyleAt, Option.map_eq_none_iff, TitleBlock.owner?, List.find?_eq_none]
  simp

end Blocks

end Annotator

end Literate
