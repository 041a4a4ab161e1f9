import Literate.Proofs.Title.Ownership
import Literate.Proofs.Title.Written

namespace Literate

namespace TitleLine

def lower (t : TitleLine) (l : Line) (c : Char) : Line := ⟨l.stop + 1, t.marker ++ List.replicate t.title.width c⟩

def underlined (t : TitleLine) (text : Text) (l : Line) (c : Char) : Text := text.insertBelow l.stop (t.lower l c).body

def block (t : TitleLine) (l : Line) (c : Char) (closed : Bool) : TitleBlock :=
  ⟨l.start, t, ⟨t.marker, c, t.title.width, []⟩, closed⟩

variable (t : TitleLine) (l : Line) (c : Char)

theorem lower_stop : (t.lower l c).stop = l.stop + 1 + t.marker.length + t.title.width := by
  rw [Line.stop, lower, List.length_append, List.length_replicate, Nat.add_assoc (l.stop + 1)]

theorem stop_le_lower : l.stop ≤ (t.lower l c).stop := by
  rw [lower_stop]
  omega

theorem block_synchronized (closed : Bool) : (t.block l c closed).synchronized = true := decide_eq_true rfl

end TitleLine

namespace Grammar

variable {styles before rest : List Char} {c d : Char} {text : Text} {above : List Line} {l : Line} {below : List Line}
  {t : TitleLine} {p : Nat}

theorem styleIndex_of_split (h : Accepted styles) (hs : styles = before ++ c :: rest) :
    (ofStyles styles).styleIndex c = some before.length ∧ styles[before.length + 1]? = rest.head? := by
  have hlt : before.length < styles.length := by simp [hs]
  have hat : styles[before.length] = c := by simp [hs]
  constructor
  · rw [← hat]
    exact h.styleIndex hlt
  · rw [hs, List.getElem?_append_right (Nat.le_add_right _ 1), Nat.add_sub_cancel_left, List.getElem?_cons_succ,
      List.head?_eq_getElem?]

section Synchronized

variable {g : Grammar} {pos : Int} {b : TitleBlock} {i : Nat}

theorem cycleTitle_of_next (hb : g.titleBlockAt text pos = some b) (hs : b.synchronized = true)
    (hi : g.styleIndex b.underline.char = some i) (hd : g.styles[i + 1]? = some d) :
    g.cycleTitle text pos = b.setUnderline d := by
  rw [cycleTitle_of_block hb hi, if_pos hs, hd]

theorem cycleTitle_of_last (hb : g.titleBlockAt text pos = some b) (hs : b.synchronized = true)
    (hi : g.styleIndex b.underline.char = some i) (hd : g.styles[i + 1]? = none) :
    g.cycleTitle text pos = b.dropUnderline text := by
  rw [cycleTitle_of_block hb hi, if_pos hs, hd]

theorem cycleTitle_first (hb : g.titleBlockAt text pos = none) (ht : g.titleLineAt text pos = some (l, t))
    (hlen : l.stop ≤ text.length) : (g.cycleTitle text pos).apply text = t.underlined text l g.firstStyle := by
  have hedit : g.cycleTitle text pos = ⟨l.stop, l.stop, '\n' :: (t.lower l g.firstStyle).body⟩ :=
    cycleTitle_of_line hb ht
  rw [hedit, TextEdit.apply_insertBelow hlen]
  rfl

end Synchronized

section Underlined

variable (h : Accepted styles) (hlines : text.lines = above ++ l :: below)
  (ht : (ofStyles styles).titleLine? l.body = some t) (hc : c ∈ styles)

include h hlines ht hc

theorem lines_underlined : (t.underlined text l c).lines = above ++ l :: t.lower l c ::
    below.map (Line.shift ((t.lower l c).body.length + 1)) := by
  have hl : '\n' ∉ l.body := Text.newline_not_mem_body (n := 0) hlines (by simp)
  exact Text.lines_insertBelow hlines (newline_not_mem_below h hl ht hc _)

variable (hloud : '!' ∉ styles) (hw : 0 < t.title.width)

include hloud hw

theorem blockOn_underlined (n : Nat) : (ofStyles styles).blockOn false l (t.lower l c :: below.map (Line.shift n)) =
    some (t.block l c (!below.isEmpty)) := by
  have hl : '\n' ∉ l.body := Text.newline_not_mem_body (n := 0) hlines (by simp)
  have hnew := newline_not_mem_below h hl ht hc t.title.width
  rw [← List.append_nil (List.replicate _ c)] at hnew
  have hread := underline?_written h hloud (titleLine?_marked ht) hc rfl hw hnew
  rw [List.append_nil] at hread
  rw [blockOn, pair?, ht, TitleLine.lower, hread, List.isEmpty_map]
  rfl

variable (hfree : (ofStyles styles).blockOn false l below = none) (hs : l.start ≤ p)

include hfree hs

theorem titleBlockAt_underlined (hp : p ≤ (t.lower l c).stop) :
    (ofStyles styles).titleBlockAt (t.underlined text l c) p = some (t.block l c (!below.isEmpty)) := by
  have hnew := lines_underlined h hlines ht hc
  have hblock := blockOn_underlined h hlines ht hc hloud hw ((t.lower l c).body.length + 1)
  by_cases hl : p ≤ l.stop
  · have hclamp := Text.clamp_of_le_stop hnew hl
    rw [titleBlockAt_eq h.withinLine hnew (by omega) (by omega), hblock, Option.some_or]
  · have hnew' : (t.underlined text l c).lines = (above ++ [l]) ++ t.lower l c ::
        below.map (Line.shift ((t.lower l c).body.length + 1)) := by rw [hnew]; simp
    have hclamp := Text.clamp_of_le_stop hnew' hp
    have hfrom : (t.lower l c).start ≤ p := Nat.lt_of_not_le hl
    have hlower : (ofStyles styles).blockOn false (t.lower l c)
        (below.map (Line.shift ((t.lower l c).body.length + 1))) = none := by
      cases below with
      | nil => rfl
      | cons m below =>
        -- the title made no block with the line below it, so that line is no underline of any other
        have hunder := (blockOn_eq_none_iff.mp hfree).resolve_left (by rw [ht]; exact Option.some_ne_none t)
        exact blockOn_eq_none_iff.mpr (.inr hunder)
    rw [titleBlockAt_eq h.withinLine hnew' (by omega) (by omega), hlower, Option.none_or, List.getLast?_concat]
    exact hblock

variable (hp : p ≤ l.stop)

include hp

theorem cycleTitle_next {i : Nat} (hi : (ofStyles styles).styleIndex c = some i) (hd : styles[i + 1]? = some d) :
    ((ofStyles styles).cycleTitle (t.underlined text l c) p).apply (t.underlined text l c) = t.underlined text l d := by
  have hat := titleBlockAt_underlined h hlines ht hc hloud hw hfree hs (hp.trans (t.stop_le_lower l c))
  have hlen := Text.stop_le_length hlines
  rw [cycleTitle_of_next hat (t.block_synchronized l c _) hi hd,
    apply_setUnderline (lines_underlined h hlines ht hc) (blockOn_underlined h hlines ht hc hloud hw _)]
  calc (t.underlined text l c).take (l.stop + 1) ++ (t.marker ++ (List.replicate t.title.width d ++ []) ++
        (t.underlined text l c).drop (l.stop + 1 + (t.lower l c).body.length))
    _ = (text.take l.stop ++ ['\n']) ++ ((t.lower l d).body ++ text.drop l.stop) := by
        rw [TitleLine.underlined, Text.take_insertBelow hlen, Text.drop_insertBelow hlen, List.append_nil]
        rfl
    _ = t.underlined text l d := by
        rw [List.append_assoc]
        rfl

theorem cycleTitle_last {i : Nat} (hi : (ofStyles styles).styleIndex c = some i) (hd : styles[i + 1]? = none) :
    ((ofStyles styles).cycleTitle (t.underlined text l c) p).apply (t.underlined text l c) = text := by
  have hat := titleBlockAt_underlined h hlines ht hc hloud hw hfree hs (hp.trans (t.stop_le_lower l c))
  have hlen := Text.stop_le_length hlines
  rw [cycleTitle_of_last hat (t.block_synchronized l c _) hi hd,
    apply_dropUnderline (lines_underlined h hlines ht hc) (blockOn_underlined h hlines ht hc hloud hw _)]
  calc (t.underlined text l c).take l.stop ++ (t.underlined text l c).drop (l.stop + 1 + (t.lower l c).body.length)
    _ = text.take l.stop ++ text.drop l.stop := by
        rw [TitleLine.underlined, Text.take_stop_insertBelow hlen, Text.drop_insertBelow hlen]
    _ = text := List.take_append_drop _ _

omit hc

theorem cycleTexts_underlined (hsplit : styles = before ++ c :: rest) :
    (ofStyles styles).cycleTexts p (rest.length + 1) (t.underlined text l c) = rest.map (t.underlined text l) ++ [text] := by
  obtain ⟨hindex, hafter⟩ := styleIndex_of_split h hsplit
  have hc : c ∈ styles := by simp [hsplit]
  -- the styles that are left; each step moves one of them to those that were gone through
  induction rest generalizing before c with
  | nil =>
    rw [List.length_nil, cycleTexts, cycleTitle_last h hlines ht hc hloud hw hfree hs hp hindex hafter]
    rfl
  | cons d rest ih =>
    have hsplit' : styles = (before ++ [c]) ++ d :: rest := by rw [hsplit]; simp
    rw [List.length_cons, cycleTexts, cycleTitle_next h hlines ht hc hloud hw hfree hs hp hindex hafter,
      ih hsplit' (styleIndex_of_split h hsplit').1 (styleIndex_of_split h hsplit').2 (by simp [hsplit])]
    rfl

end Underlined

/-- The cycle of a title that has no underline goes through the styles from the first one on, each of them in an
underline that fits, and comes back to the text as it was. -/
theorem cycleTexts_returns (h : Accepted styles) (hloud : '!' ∉ styles) (hpos : p ≤ text.length)
    (hfree : (ofStyles styles).titleBlockAt text p = none) (hline : (ofStyles styles).titleLineAt text p = some (l, t))
    (hw : 0 < t.title.width) :
    (ofStyles styles).cycleTexts p (styles.length + 1) text = styles.map (t.underlined text l) ++ [text] ∧
      l.start ≤ p ∧ p ≤ l.stop ∧
      ∀ (i : Nat) (hi : i < styles.length), ∃ b, b.synchronized = true ∧ (ofStyles styles).level b.underline.char = some (i + 1) ∧
        ∀ q : Nat, l.start ≤ q → q ≤ (t.lower l styles[i]).stop →
          (ofStyles styles).titleBlockAt (t.underlined text l styles[i]) q = some b := by
  obtain ⟨above, k, below, hlines, hs, hp, hf⟩ := Text.exists_focus text p
  obtain ⟨t', ht, he⟩ := Option.map_eq_some_iff.mp hline
  rw [Text.lineAt, hf] at ht he
  obtain ⟨rfl, rfl⟩ := Prod.mk.inj he
  have hbelow := hfree
  rw [titleBlockAt_eq h.withinLine hlines hs hp, Option.or_eq_none_iff] at hbelow
  rw [Text.clamp_of_le hpos] at hs hp
  have hfirst := cycleTitle_first hfree hline (Text.stop_le_length hlines)
  refine ⟨?_, hs, hp, fun i hi => ⟨t'.block k styles[i] (!below.isEmpty), t'.block_synchronized k _ _, h.level hi, ?_⟩⟩
  · cases styles with
    | nil => exact absurd h (by decide)
    | cons c rest =>
      have hcycle := cycleTexts_underlined h hlines ht hloud hw hbelow.1 hs hp (List.nil_append (c :: rest)).symm
      rw [List.length_cons, cycleTexts, hfirst]
      exact congrArg (t'.underlined text k c :: ·) hcycle
  · intro q hfrom hto
    exact titleBlockAt_underlined h hlines ht (List.getElem_mem hi) hloud hw hbelow.1 hfrom hto

theorem cycleTexts_returns_notes : Accepted ['=', '-', '~'] ∧ '!' ∉ ['=', '-', '~'] ∧
    (ofStyles ['=', '-', '~']).titleBlockAt "    # Notes  \ncode()".toList 6 = none ∧
    (ofStyles ['=', '-', '~']).cycleTexts 6 4 "    # Notes  \ncode()".toList =
      ["    # Notes  \n    # =====\ncode()".toList, "    # Notes  \n    # -----\ncode()".toList,
        "    # Notes  \n    # ~~~~~\ncode()".toList, "    # Notes  \ncode()".toList] := by
  have h : Accepted ['=', '-', '~'] := by decide
  have hloud : '!' ∉ ['=', '-', '~'] := by decide
  have hfree : (ofStyles ['=', '-', '~']).titleBlockAt "    # Notes  \ncode()".toList 6 = none := by decide +kernel
  have hline : (ofStyles ['=', '-', '~']).titleLineAt "    # Notes  \ncode()".toList 6 =
      some (⟨0, "    # Notes  ".toList⟩, ⟨"    # ".toList, "Notes".toList, "  ".toList⟩) := by decide +kernel
  have hcycle := cycleTexts_returns (p := 6) h hloud (by decide) hfree hline (by decide)
  exact ⟨h, hloud, hfree, hcycle.1.trans (by decide +kernel)⟩

end Grammar

end Literate
