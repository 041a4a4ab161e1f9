import Literate.Proofs.Render.View

namespace Literate

namespace Render

variable {text : Text} {above : List Line} {line : Line} {below : List Line}

theorem linesFrom_next (h : text.lines = above ++ line :: below) :
    Text.linesFrom line.start (line.body ++ below.head?.elim [] fun n => '\n' :: n.body) =
      line :: below.head?.toList := by
  have hl : '\n' ∉ line.body := Text.newline_not_mem_body h (by simp)
  cases below with
  | nil => simpa using Text.linesFrom_last hl line.start
  | cons m below =>
    have hm : '\n' ∉ m.body := Text.newline_not_mem_body h (by simp)
    have hnext : m.start = line.start + line.body.length + 1 := Text.next_start h
    rw [List.head?_cons, Option.elim_some, Text.linesFrom_line hl, Text.linesFrom_last hm, ← hnext]
    rfl

theorem linesFrom_context (h : text.lines = above ++ line :: below) :
    Text.linesFrom (Context.ofLines above.getLast? line below.head?).start
        (Context.ofLines above.getLast? line below.head?).text =
      above.getLast?.toList ++ line :: below.head?.toList := by
  have hrest := linesFrom_next h
  rcases List.eq_nil_or_concat above with rfl | ⟨front, k, rfl⟩
  · exact hrest
  · have hk : '\n' ∉ k.body := Text.newline_not_mem_body h (by simp)
    have h' : text.lines = front ++ k :: line :: below := by simpa using h
    have hnext : line.start = k.start + k.body.length + 1 := Text.next_start h'
    rw [List.concat_eq_append, List.getLast?_concat, Context.ofLines, Text.linesFrom_line hk, ← hnext, hrest]
    rfl

theorem context_offset (h : text.lines = above ++ line :: below) :
    line.start = (Context.ofLines above.getLast? line below.head?).offset +
      (Context.ofLines above.getLast? line below.head?).start := by
  rcases List.eq_nil_or_concat above with rfl | ⟨front, k, rfl⟩
  · exact (Nat.zero_add _).symm
  · have h' : text.lines = front ++ k :: line :: below := by simpa using h
    have hnext : line.start = k.start + k.body.length + 1 := Text.next_start h'
    rw [List.concat_eq_append, List.getLast?_concat, Context.ofLines]
    dsimp only
    omega

theorem context_lines (h : text.lines = above ++ line :: below) :
    ∃ up down, (Context.ofLines above.getLast? line below.head?).text.lines =
        up ++ ⟨(Context.ofLines above.getLast? line below.head?).offset, line.body⟩ :: down ∧
      up.map (Line.shift (Context.ofLines above.getLast? line below.head?).start) = above.getLast?.toList ∧
      down.map (Line.shift (Context.ofLines above.getLast? line below.head?).start) = below.head?.toList := by
  have hlines := linesFrom_context h
  have hoffset := context_offset h
  generalize Context.ofLines above.getLast? line below.head? = c at hlines hoffset ⊢
  have hshift := Text.linesFrom_shift 0 c.start c.text
  rw [Nat.zero_add, hlines, ← Text.lines_eq_linesFrom] at hshift
  obtain ⟨up, rest, he, hup, hrest⟩ := List.map_eq_append_iff.mp hshift.symm
  obtain ⟨l, down, rfl, hl, hdown⟩ := List.map_eq_cons_iff.mp hrest
  refine ⟨up, down, ?_, hup, hdown⟩
  subst hl
  have hstart : l.start = c.offset := by
    rw [Line.shift_start] at hoffset
    omega
  rw [he, ← hstart, Line.shift_body]

theorem owner_in_context {g : Grammar} (hg : g.WithinLine) (h : text.lines = above ++ line :: below)
    (hu : g.Unstacked false text.lines) {c : Context} (hc : c = Context.ofLines above.getLast? line below.head?) :
    (TitleBlock.owner? (g.blocksOf false c.text.lines) c.offset).map (TitleBlock.shift c.start) =
      (g.blockOn false line below.head?.toList).or
        (above.getLast?.bind fun k => g.blockOn false k (line :: below)) := by
  obtain ⟨up, down, hlines, hup, hdown⟩ := context_lines h
  have hoffset := context_offset h
  rw [← hc] at hlines hup hdown hoffset
  have hline : line = Line.shift c.start ⟨c.offset, line.body⟩ := by
    rw [Line.shift, ← hoffset]
  have hwindow : c.text.lines.map (Line.shift c.start) = above.getLast?.toList ++ line :: below.head?.toList := by
    rw [hlines, List.map_append, List.map_cons, hup, hdown, ← hline]
  have hinfix : ∃ front back, text.lines =
      front ++ ((above.getLast?.toList ++ line :: below.head?.toList) ++ back) := by
    rw [h]
    rcases List.eq_nil_or_concat above with rfl | ⟨front, k, rfl⟩
    · cases below with
      | nil => exact ⟨[], [], rfl⟩
      | cons m below => exact ⟨[], below, rfl⟩
    · cases below with
      | nil => exact ⟨front, [], by simp⟩
      | cons m below => exact ⟨front, below, by simp⟩
  obtain ⟨front, back, hfb⟩ := hinfix
  have huc : g.Unstacked false c.text.lines := by
    apply Grammar.Unstacked.of_shift (n := c.start)
    rw [hwindow]
    rw [hfb] at hu
    exact hu.of_infix
  have hline' : (Line.mk c.offset line.body).shift c.start :: down.map (Line.shift c.start) =
      line :: below.head?.toList := by
    rw [hdown, ← hline]
  rw [Grammar.owner?_of_unstacked hg huc hlines, Option.map_or, ← Grammar.blockOn_shift, hdown, ← hline]
  congr 1
  cases ha : above.getLast? with
  | none =>
    rw [ha] at hup
    obtain rfl := List.map_eq_nil_iff.mp hup
    rfl
  | some k =>
    rw [ha] at hup
    obtain ⟨k', rfl, rfl⟩ := List.map_eq_singleton_iff.mp hup
    have hhead : g.blockOn false (k'.shift c.start) (line :: below.head?.toList) =
        g.blockOn false (k'.shift c.start) (line :: below) := by
      cases below <;> rfl
    rw [Option.bind_some, ← hhead, ← hline', ← List.map_cons, Grammar.blockOn_shift]
    rfl

end Render

namespace Grammar

variable {g : Grammar} {text : Text} {above : List Line} {line m : Line} {rest : List Line}

theorem eq_of_covers {b c : TitleBlock} (hlines : text.lines = above ++ line :: m :: rest)
    (hb : g.blockOn false line (m :: rest) = some b) (hc : c ∈ g.blocksOf false text.lines)
    (hstart : c.start ≤ line.start) (hstop : m.stop ≤ c.stop) : c = b := by
  obtain ⟨front, k, n, back, he, hk⟩ := exists_of_mem_blocksOf hc
  have hbs := blockOn_spans hlines hb
  have hcs := blockOn_spans he hk
  have hm : m ∈ Text.linesFrom 0 text := by rw [← Text.lines_eq_linesFrom, hlines]; simp
  have hkm : k ∈ Text.linesFrom 0 text := by rw [← Text.lines_eq_linesFrom, he]; simp
  have hnm : n ∈ Text.linesFrom 0 text := by rw [← Text.lines_eq_linesFrom, he]; simp
  have hcstart := hcs.start
  have hcnext := hcs.next
  have hcstop := hcs.stop_le
  have hbnext := hbs.next
  have hbupper := hbs.upper
  have hblower := hbs.lower
  rcases Text.apart_of_mem hnm hm with rfl | hlt | hgt
  · have he' : text.lines = (front ++ [k]) ++ n :: back := by rw [he]; simp
    have hlines' : text.lines = (above ++ [line]) ++ n :: rest := by rw [hlines]; simp
    obtain ⟨hup, -, rfl⟩ := Text.lines_unique he' hlines' rfl
    obtain ⟨-, hkl⟩ := List.append_inj' hup rfl
    obtain rfl : k = line := by simpa using hkl
    exact Option.some.inj (hk.symm.trans hb)
  · omega
  · rcases Text.apart_of_mem hkm hm with rfl | hlt | hlt <;> omega

end Grammar

namespace Annotator

variable {π : Type} {g : Grammar} {v : Visibility} {text : Text} {above : List Line} {line : Line} {below : List Line}

theorem hidesTitle_open {b : TitleBlock} {m : Line} {rest : List Line} (h : text.lines = above ++ line :: m :: rest)
    (hb : g.blockOn false line (m :: rest) = some b)
    (hr : ∀ w ∈ v.revealed, ∃ c ∈ g.blocksOf false text.lines, c.span = w) :
    v.hidesTitle { b with closed := false }.span = v.hidesTitle b.span := by
  have hs := Grammar.blockOn_spans h hb
  have hstart := hs.start
  have hunder := hs.underlineStop
  have hle := hs.le_stop
  have hcovers : v.covers { b with closed := false }.span = v.covers b.span := by
    rw [Visibility.covers, Visibility.covers]
    cases hv : v.revealed with
    | none => rfl
    | some w =>
      obtain ⟨c, hc, rfl⟩ := hr w hv
      rw [Option.any_some, Option.any_some, Bool.eq_iff_iff, Span.within, Span.within, Bool.and_eq_true,
        Bool.and_eq_true, decide_eq_true_eq, decide_eq_true_eq, decide_eq_true_eq, decide_eq_true_eq]
      have hopen : ({ b with closed := false } : TitleBlock).stop = m.stop := hunder
      simp only [TitleBlock.span, hopen]
      constructor
      · rintro ⟨hcs, hct⟩
        obtain rfl := Grammar.eq_of_covers h hb hc (by omega) (by omega)
        omega
      · rintro ⟨hcs, hct⟩
        omega
  rw [Visibility.hidesTitle, Visibility.hidesTitle, hcovers]

theorem blockPart_context (hg : g.WithinLine) (h : text.lines = above ++ line :: below)
    (hu : g.Unstacked false text.lines)
    (hr : ∀ w ∈ v.revealed, ∃ c ∈ g.blocksOf false text.lines, c.span = w) {c : Render.Context}
    (hc : c = Render.Context.ofLines above.getLast? line below.head?) :
    (TitleBlock.owner? (g.blocksOf false c.text.lines) c.offset).elim []
        (blockPart (π := π) g (v.shift (-c.start)) c.offset) =
      (TitleBlock.owner? (g.blocksOf false text.lines) line.start).elim [] (blockPart g v line.start) := by
  have hoffset := Render.context_offset h
  rw [← hc] at hoffset
  have hshift : ∀ o : Option TitleBlock, o.elim [] (blockPart (π := π) g (v.shift (-c.start)) c.offset) =
      (o.map (TitleBlock.shift c.start)).elim [] (blockPart g v line.start) := by
    intro o
    cases o with
    | none => rfl
    | some b => rw [hoffset]; exact (blockPart_shift g v c.offset c.start b).symm
  rw [hshift, Render.owner_in_context hg h hu hc, Grammar.owner?_of_unstacked hg hu h]
  cases below with
  | nil => rfl
  | cons m rest =>
    cases hb : g.blockOn false line (m :: rest) with
    | none =>
      have hn : g.blockOn false line [m] = none := Grammar.blockOn_eq_none_iff.mpr (Grammar.blockOn_eq_none_iff.mp hb)
      rw [List.head?_cons, Option.toList_some, hn]
    | some b =>
      obtain ⟨t, u, ht, hun, rfl⟩ := Grammar.pair?_eq_some hb
      have hn : g.blockOn false line [m] = some ⟨line.start, t, u.1, false⟩ := by
        simp [Grammar.blockOn, Grammar.pair?, ht, hun]
      rw [List.head?_cons, Option.toList_some, hn, Option.some_or, Option.some_or, Option.elim_some, Option.elim_some]
      simp only [blockPart, if_true]
      rw [← hidesTitle_open h hb hr]
      rfl

variable {s : Settings}

theorem lineDirectives_eq_view (h : Grammar.Accepted s.titleStyles) (a : Annotator π) {revealed : Option Span}
    (hsingle : ∀ pos ≤ text.length,
      s.grammar.titleBlock? text pos = none ∨ s.grammar.titleBlockAbove text pos = none)
    (hrevealed : ∀ w ∈ revealed, ∃ b ∈ s.grammar.titleBlocks text 0 text.length, b.span = w)
    (hline : text.lines = above ++ line :: below) :
    Render.lineDirectives a s revealed above.getLast? line below.head? =
      line.view (a.annotate s revealed text 0 none) := by
  have hg : s.grammar.WithinLine := h.withinLine
  have hu := Grammar.unstacked_of_single hg hsingle
  rw [Grammar.titleBlocks_all hg] at hrevealed
  obtain ⟨up, down, hlines, -, -⟩ := Render.context_lines hline
  have hpart := blockPart_context (π := π) (v := .ofSettings s revealed) hg hline hu hrevealed rfl
  have hoffset := Render.context_offset hline
  rw [Render.lineDirectives]
  generalize Render.Context.ofLines above.getLast? line below.head? = c at hlines hpart hoffset ⊢
  have hmoved : line = (Line.mk c.offset line.body).shift c.start := by rw [Line.shift, ← hoffset]
  have hfull : ∀ (r : Option Span) (t : Text), a.annotate s r t 0 none =
      a.ofLines s.grammar (.ofSettings s r) false t.lines := by
    intro r t
    rw [← directives_all hg, annotate]
    rfl
  have hcomments := view_commentsOn_shift (π := π) (g := s.grammar) (v := .ofSettings s revealed)
    ⟨c.offset, line.body⟩ c.start
  have hdoctests := view_doctestsOn_shift (a := a) (g := s.grammar) ⟨c.offset, line.body⟩ c.start
  have hquotes := view_quotesOn_shift (a := a) (g := s.grammar) (v := .ofSettings s revealed)
    ⟨c.offset, line.body⟩ c.start
  rw [← hmoved] at hcomments hdoctests hquotes
  rw [annotatePart, hfull, hfull, view_ofLines hline, hcomments, hdoctests, hquotes, ← hpart]
  exact view_ofLines (v := (Visibility.ofSettings s revealed).shift (-c.start)) hlines a

theorem lineDirectives_revealed_underline :
    Render.lineDirectives (Annotator.mk none [] : Annotator Unit) { hideTitleMarkup := true } (some ⟨0, 4⟩)
        (some ⟨0, ['A']⟩) ⟨2, ['=']⟩ (some ⟨4, ['x']⟩) =
      (Line.mk 2 ['=']).view ((Annotator.mk none [] : Annotator Unit).annotate { hideTitleMarkup := true }
        (some ⟨0, 4⟩) "A\n=\nx".toList 0 none) ∧
    Render.lineDirectives (Annotator.mk none [] : Annotator Unit) { hideTitleMarkup := true } (some ⟨0, 4⟩)
        (some ⟨0, ['A']⟩) ⟨2, ['=']⟩ (some ⟨4, ['x']⟩) = [.plain 0 1 .markup] ∧
    Render.lineDirectives (Annotator.mk none [] : Annotator Unit) { hideTitleMarkup := true } none
        (some ⟨0, ['A']⟩) ⟨2, ['=']⟩ (some ⟨4, ['x']⟩) = [⟨0, 1, .markup, true, false⟩] := by
  have hrevealed : ∀ w ∈ some (Span.mk 0 4), ∃ b ∈ ({ hideTitleMarkup := true } : Settings).grammar.titleBlocks
      "A\n=\nx".toList 0 5, b.span = w := by
    intro w hw
    obtain rfl := Option.some.inj hw
    exact ⟨⟨0, ⟨[], ['A'], []⟩, ⟨[], '=', 1, []⟩, true⟩, by decide, rfl⟩
  have hline : Text.lines "A\n=\nx".toList = [⟨0, ['A']⟩] ++ ⟨2, ['=']⟩ :: [⟨4, ['x']⟩] := by decide
  exact ⟨lineDirectives_eq_view (by decide) _ (by decide) hrevealed hline, by decide, by decide⟩

end Annotator

end Literate
