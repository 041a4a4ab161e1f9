import Literate.Proofs.Title.Blocks
import Literate.Proofs.Title.LoudRun

/-!
Who owns a line. The block that is found from a line and the blocks that a search of the text finds agree unless
blocks are stacked: a title line over a loud run over an underline, where the loud run is the underline of the
first two lines and the title of the last two.
-/

namespace Literate

def TitleBlock.Owns (b : TitleBlock) (start : Nat) : Prop := b.start = start ∨ b.underlineStart = start

instance (b : TitleBlock) (start : Nat) : Decidable (b.Owns start) := inferInstanceAs (Decidable (_ ∨ _))

theorem TitleBlock.contains_iff (b : TitleBlock) (pos : Int) :
    b.span.contains pos = true ↔ (b.start : Int) ≤ pos ∧ pos < b.stop := by
  rw [Span.contains, Bool.and_eq_true, decide_eq_true_iff, decide_eq_true_iff]
  rfl

def TitleBlock.owner? (bs : List TitleBlock) (start : Nat) : Option TitleBlock :=
  bs.find? fun b => decide (b.Owns start)

namespace Grammar

variable {g : Grammar} {styles : List Char}

def Unstacked (g : Grammar) (more : Bool) (ls : List Line) : Prop :=
  ∀ above k l below, ls = above ++ k :: l :: below → (g.blockOn more k (l :: below)).isSome = true →
    g.blockOn more l below = none

theorem Unstacked.of_infix {more more' : Bool} {above ls below : List Line}
    (hu : g.Unstacked more (above ++ (ls ++ below))) : g.Unstacked more' ls := by
  rintro front k l rest rfl hk
  have hk' : (g.blockOn more k (l :: (rest ++ below))).isSome = true := by
    rw [Option.isSome_iff_ne_none] at hk ⊢
    exact fun hn => hk (blockOn_eq_none_iff.mpr (blockOn_eq_none_iff.mp hn))
  have hl := hu (above ++ front) k l (rest ++ below) (by simp) hk'
  cases rest with
  | nil => rfl
  | cons m rest => exact blockOn_eq_none_iff.mpr (blockOn_eq_none_iff.mp hl)

theorem Unstacked.of_shift {more : Bool} {ls : List Line} {n : Nat}
    (hu : g.Unstacked more (ls.map (Line.shift n))) : g.Unstacked more ls := by
  rintro front k l rest rfl hk
  have hk' : (g.blockOn more (k.shift n) (l.shift n :: rest.map (Line.shift n))).isSome = true := by
    rw [← List.map_cons, blockOn_shift, Option.isSome_map]
    exact hk
  have hl := hu (front.map (Line.shift n)) (k.shift n) (l.shift n) (rest.map (Line.shift n)) (by simp) hk'
  rw [blockOn_shift] at hl
  exact Option.map_eq_none_iff.mp hl

theorem mem_blocksOf_of_unstacked {more : Bool} {above : List Line} {l : Line} {below : List Line} {b : TitleBlock}
    (hu : g.Unstacked more (above ++ l :: below)) (hb : g.blockOn more l below = some b) :
    b ∈ g.blocksOf more (above ++ l :: below) := by
  rcases blocksOf_split g more above l below with he | ⟨front, k, c, rfl, hc, -⟩
  · cases below with
    | nil => simp [blockOn] at hb
    | cons m below =>
      rw [he, blocksOf_some hb]
      simp
  · have hn := hu front k l below (by simp) (by simp [hc])
    simp [hn] at hb

theorem titleBlockAt_eq (hg : g.WithinLine) {text : Text} {above : List Line} {l : Line} {below : List Line}
    {pos : Int} (h : text.lines = above ++ l :: below) (hs : l.start ≤ text.clamp pos)
    (ht : text.clamp pos ≤ l.stop) :
    g.titleBlockAt text pos =
      (g.blockOn false l below).or (above.getLast?.bind fun k => g.blockOn false k (l :: below)) := by
  rw [titleBlockAt, titleBlock?_eq hg h hs ht, titleBlockAbove_eq hg h hs ht]

/-- The line at `pos` is the title line of the block, or its underline. -/
def Owner (g : Grammar) (text : Text) (pos : Int) (b : TitleBlock) : Prop :=
  g.titleBlock? text pos = some b ∨ g.titleBlockAbove text pos = some b

section Owner

variable {text : Text} {pos : Int} {b : TitleBlock}

theorem owner_of_titleBlockAt (h : g.titleBlockAt text pos = some b) : g.Owner text pos b :=
  (Option.or_eq_some_iff.mp h).imp_right And.right

theorem exists_of_owner (hg : g.WithinLine) (h : g.Owner text pos b) : ∃ above k m below,
    text.lines = above ++ k :: m :: below ∧ g.blockOn false k (m :: below) = some b ∧ k.start ≤ text.clamp pos ∧
      text.clamp pos ≤ m.stop := by
  obtain ⟨above, l, below, hl, hs, ht, -⟩ := Text.exists_focus text pos
  rcases h with h | h
  · rw [titleBlock?_eq hg hl hs ht] at h
    cases below with
    | nil => simp [blockOn] at h
    | cons m below =>
      have hsp := blockOn_spans hl h
      have hnext := hsp.next
      have hlower := hsp.lower
      exact ⟨above, l, m, below, hl, h, hs, by omega⟩
  · rw [titleBlockAbove_eq hg hl hs ht] at h
    obtain ⟨front, k, -, hk, hkb⟩ := exists_of_blockAbove hl h
    have hsp := blockOn_spans hk hkb
    have hnext := hsp.next
    have hupper := hsp.upper
    exact ⟨front, k, l, below, hk, hkb, by omega, ht⟩

theorem owner_of_contains (hg : g.WithinLine) (h : g.Owner text pos b) {p : Int} (hp : b.span.contains p = true) :
    g.Owner text p b := by
  obtain ⟨above, k, m, below, hl, hb, -⟩ := exists_of_owner hg h
  obtain ⟨hfrom, hto⟩ := (b.contains_iff p).mp hp
  obtain ⟨n, rfl⟩ := Int.eq_ofNat_of_zero_le (Int.le_trans (Int.natCast_nonneg _) hfrom)
  have hspan := blockOn_spans hl hb
  have hstart := hspan.start
  have hstop := hspan.stop_le
  have hnext := hspan.next
  have hlen := stop_le_length hl hb
  have hclamp : text.clamp n = n := Text.clamp_of_le (by omega)
  by_cases hn : n ≤ k.stop
  · exact .inl (by rw [titleBlock?_eq hg hl (by omega) (by omega), hb])
  · have hl' : text.lines = (above ++ [k]) ++ m :: below := by rw [hl]; simp
    refine .inr ?_
    rw [titleBlockAbove_eq hg hl' (by omega) (by omega)]
    simpa using hb

end Owner

theorem exists_of_titleBlockAt (hg : g.WithinLine) {text : Text} {pos : Nat} (hpos : pos ≤ text.length) {b : TitleBlock}
    (hb : g.titleBlockAt text pos = some b) : ∃ above k m below, text.lines = above ++ k :: m :: below ∧
      g.blockOn false k (m :: below) = some b ∧ k.start ≤ pos ∧ pos ≤ m.stop := by
  have h := exists_of_owner hg (owner_of_titleBlockAt hb)
  rwa [Text.clamp_of_le hpos] at h

theorem titleBlockAt_contains_iff (hg : g.WithinLine) {text : Text} {pos : Nat} (hpos : pos ≤ text.length)
    {b : TitleBlock} (hb : g.titleBlockAt text pos = some b) :
    b.span.contains pos = true ↔ pos < text.length := by
  obtain ⟨above, k, m, below, hlines, hblock, hfrom, hto⟩ := exists_of_titleBlockAt hg hpos hb
  have hspan := blockOn_spans hlines hblock
  have hstart := hspan.start
  have hstop := hspan.stop_eq
  have hlen := stop_le_length hlines hblock
  rw [b.contains_iff]
  cases below with
  | nil =>
    have hm : text.lines = (above ++ [k]) ++ [m] := by rw [hlines]; simp
    have hlast := Text.last_stop hm
    simp only [List.isEmpty_nil, Bool.not_true, Bool.or_false, Bool.false_eq_true, if_false] at hstop
    omega
  | cons l below =>
    simp only [List.isEmpty_cons, Bool.not_false, Bool.or_true, if_true] at hstop
    omega

theorem exists_titleBlockAt (hg : g.WithinLine) {text : Text} {pos : Int} {b : TitleBlock}
    (h : g.Owner text pos b) (hp : b.span.contains pos = true) :
    ∃ c, g.titleBlockAt text pos = some c ∧ c.span.contains pos = true := by
  obtain ⟨above, k, m, below, hl, hb, -⟩ := exists_of_owner hg h
  have hlen := stop_le_length hl hb
  obtain ⟨hfrom, hto⟩ := (b.contains_iff pos).mp hp
  obtain ⟨n, rfl⟩ := Int.eq_ofNat_of_zero_le (Int.le_trans (Int.natCast_nonneg _) hfrom)
  have hsome : (g.titleBlockAt text n).isSome = true := by
    rw [titleBlockAt]
    rcases h with h | h <;> simp [h]
  obtain ⟨c, hc⟩ := Option.isSome_iff_exists.mp hsome
  exact ⟨c, hc, (titleBlockAt_contains_iff hg (by omega) hc).mpr (by omega)⟩

theorem unstacked_of_single (hg : g.WithinLine) {text : Text}
    (h : ∀ pos ≤ text.length, g.titleBlock? text pos = none ∨ g.titleBlockAbove text pos = none) :
    g.Unstacked false text.lines := by
  intro above k l below hlines hk
  have hl : text.lines = (above ++ [k]) ++ l :: below := by rw [hlines]; simp
  have hle : l.start ≤ l.stop := Nat.le_add_right _ _
  have hc : text.clamp l.start = l.start := Text.clamp_of_le_stop hl hle
  have hlen := Text.clamp_le text l.start
  rcases h l.start (by omega) with hn | hn
  · rw [titleBlock?_eq hg hl (by omega) (by omega)] at hn
    exact hn
  · rw [titleBlockAbove_eq hg hl (by omega) (by omega), List.getLast?_concat, Option.bind_some] at hn
    simp [hn] at hk

theorem exists_title_of_blockOn {more : Bool} {l m : Line} {below : List Line}
    (h : (g.blockOn more l (m :: below)).isSome = true) :
    (g.titleLine? l.body).isSome = true ∧ (g.underline? m.body).isSome = true := by
  obtain ⟨b, hb⟩ := Option.isSome_iff_exists.mp h
  obtain ⟨t, u, ht, hu, -⟩ := pair?_eq_some hb
  exact ⟨by rw [ht]; rfl, by rw [hu]; rfl⟩

theorem blockOn_isSome {more : Bool} {l m : Line} {below : List Line} (ht : (g.titleLine? l.body).isSome = true)
    (hu : (g.underline? m.body).isSome = true) : (g.blockOn more l (m :: below)).isSome = true := by
  obtain ⟨t, ht⟩ := Option.isSome_iff_exists.mp ht
  obtain ⟨u, hu⟩ := Option.isSome_iff_exists.mp hu
  simp [blockOn, pair?, ht, hu]

theorem unstacked_iff (h : Accepted styles) (text : Text) :
    (ofStyles styles).Unstacked false text.lines ↔
      ¬∃ above k l m below, text.lines = above ++ k :: l :: m :: below ∧
        ((ofStyles styles).titleLine? k.body).isSome = true ∧ LoudRun styles l.body ∧
        ((ofStyles styles).underline? m.body).isSome = true := by
  constructor
  · rintro hu ⟨above, k, l, m, below, he, hk, hl, hm⟩
    have hb : '\n' ∉ l.body := Text.newline_not_mem_body he (by simp)
    obtain ⟨hlt, hlu⟩ := (loudRun_iff h hb).mpr hl
    have hn := hu above k l (m :: below) he (blockOn_isSome hk hlu)
    have hs : (blockOn _ false l (m :: below)).isSome = true := blockOn_isSome hlt hm
    simp [hn] at hs
  · intro hn above k l below he hk
    rw [← Option.not_isSome_iff_eq_none]
    intro hl
    cases below with
    | nil => simp [blockOn] at hl
    | cons m below =>
      have hb : '\n' ∉ l.body := Text.newline_not_mem_body he (by simp)
      obtain ⟨hkt, hlu⟩ := exists_title_of_blockOn hk
      obtain ⟨hlt, hmu⟩ := exists_title_of_blockOn hl
      exact hn ⟨above, k, l, m, below, he, hkt, (loudRun_iff h hb).mp ⟨hlt, hlu⟩, hmu⟩

theorem owner_of_unstacked (hg : g.WithinLine) {text : Text} (hu : g.Unstacked false text.lines) (pos : Int)
    (b : TitleBlock) : g.titleBlockAt text pos = some b ↔
      b ∈ g.titleBlocks text 0 text.length ∧ b.Owns (text.lineStart pos) := by
  obtain ⟨above, l, below, h, hs, ht, -⟩ := Text.exists_focus text pos
  rw [titleBlockAt_eq hg h hs ht, Text.lineStart_eq h hs ht, titleBlocks_all hg, Option.or_eq_some_iff]
  constructor
  · rintro (hb | ⟨hn, hb⟩)
    · refine ⟨h ▸ mem_blocksOf_of_unstacked (h ▸ hu) hb, .inl ?_⟩
      cases below with
      | nil => simp [blockOn] at hb
      | cons m below => exact (blockOn_spans h hb).start
    · obtain ⟨front, k, rfl, h', hkb⟩ := exists_of_blockAbove h hb
      exact ⟨h' ▸ mem_blocksOf_of_unstacked (h' ▸ hu) hkb, .inr (blockOn_spans h' hkb).underlineStart⟩
  · rintro ⟨hb, hown⟩
    obtain ⟨front, k, m, rest, he, hk⟩ := exists_of_mem_blocksOf hb
    have hsp := blockOn_spans he hk
    rcases hown with hown | hown
    · obtain ⟨rfl, rfl, rfl⟩ := Text.lines_unique he h (by rw [← hsp.start, hown])
      exact .inl hk
    · have he' : text.lines = (front ++ [k]) ++ m :: rest := by rw [he]; simp
      obtain ⟨rfl, rfl, rfl⟩ := Text.lines_unique he' h (by rw [← hsp.underlineStart, hown])
      exact .inr ⟨hu front k m rest he (by simp [hk]), by simpa using hk⟩

theorem owner?_eq_titleBlockAt (hg : g.WithinLine) {text : Text} (hu : g.Unstacked false text.lines) (pos : Int) :
    TitleBlock.owner? (g.titleBlocks text 0 text.length) (text.lineStart pos) = g.titleBlockAt text pos := by
  rw [TitleBlock.owner?]
  cases ho : (g.titleBlocks text 0 text.length).find? fun b => decide (b.Owns (text.lineStart pos)) with
  | some b =>
    have hd := List.find?_some ho
    have hown : b.Owns (text.lineStart pos) := of_decide_eq_true hd
    exact ((owner_of_unstacked hg hu pos b).mpr ⟨List.mem_of_find?_eq_some ho, hown⟩).symm
  | none =>
    cases ht : g.titleBlockAt text pos with
    | none => rfl
    | some b =>
      obtain ⟨hmem, hown⟩ := (owner_of_unstacked hg hu pos b).mp ht
      exact absurd (decide_eq_true hown) (List.find?_eq_none.mp ho b hmem)

theorem owner?_of_unstacked (hg : g.WithinLine) {text : Text} (hu : g.Unstacked false text.lines)
    {above : List Line} {l : Line} {below : List Line} (h : text.lines = above ++ l :: below) :
    TitleBlock.owner? (g.blocksOf false text.lines) l.start =
      (g.blockOn false l below).or (above.getLast?.bind fun k => g.blockOn false k (l :: below)) := by
  have hle : l.start ≤ l.stop := Nat.le_add_right _ _
  have hc : text.clamp l.start = l.start := Text.clamp_of_le_stop h hle
  have ho := owner?_eq_titleBlockAt hg hu l.start
  rw [Text.lineStart_eq h (by omega) (by omega), titleBlockAt_eq hg h (by omega) (by omega),
    titleBlocks_all hg] at ho
  exact ho

theorem exists_of_owner? (hg : g.WithinLine) {text : Text} {l : Line} (hl : l ∈ text.lines) {b : TitleBlock}
    (h : TitleBlock.owner? (g.titleBlocks text 0 text.length) l.start = some b) :
    ∃ above k m below, text.lines = above ++ k :: m :: below ∧ g.blockOn false k (m :: below) = some b ∧
      (l = k ∨ l = m) := by
  rw [titleBlocks_all hg, TitleBlock.owner?] at h
  have hd := List.find?_some h
  have hown : b.Owns l.start := of_decide_eq_true hd
  obtain ⟨above, k, m, below, he, hk⟩ := exists_of_mem_blocksOf (List.mem_of_find?_eq_some h)
  refine ⟨above, k, m, below, he, hk, ?_⟩
  obtain ⟨front, rest, hline⟩ := List.append_of_mem hl
  have hsp := blockOn_spans he hk
  rcases hown with hown | hown
  · obtain ⟨-, rfl, -⟩ := Text.lines_unique he hline (by rw [← hsp.start, hown])
    exact .inl rfl
  · have he' : text.lines = (above ++ [k]) ++ m :: below := by rw [he]; simp
    obtain ⟨-, rfl, -⟩ := Text.lines_unique he' hline (by rw [← hsp.underlineStart, hown])
    exact .inr rfl

theorem unstacked_of_owner (hg : g.WithinLine) {text : Text}
    (hown : ∀ pos b, g.titleBlockAt text pos = some b ↔
      b ∈ g.titleBlocks text 0 text.length ∧ b.Owns (text.lineStart pos)) : g.Unstacked false text.lines := by
  intro above k l below h hk
  obtain ⟨b, hb⟩ := Option.isSome_iff_exists.mp hk
  rw [Option.eq_none_iff_forall_ne_some]
  intro c hc
  have hl : text.lines = (above ++ [k]) ++ l :: below := by rw [h]; simp
  have hsp := blockOn_spans h hb
  have hlen := Text.stop_le_length hl
  have hkl := hsp.upper
  have hlow := hsp.lower
  have hnext := hsp.next
  have hck : text.clamp k.start = k.start := Text.clamp_of_le (by omega)
  have hcl : text.clamp l.start = l.start := Text.clamp_of_le (by omega)
  have hlc : g.titleBlockAt text l.start = some c := by
    rw [titleBlockAt_eq hg hl (by omega) (by omega), hc, Option.some_or]
  have hkb : g.titleBlockAt text k.start = some b := by
    rw [titleBlockAt_eq hg h (by omega) (by omega), hb, Option.some_or]
  have hmem := ((hown k.start b).mp hkb).1
  have hlb := (hown l.start b).mpr ⟨hmem, .inr (by
    rw [Text.lineStart_eq hl (by omega) (by omega), hsp.underlineStart])⟩
  obtain rfl : c = b := by simpa [hlc] using hlb
  cases below with
  | nil => simp [blockOn] at hc
  | cons m below =>
    have := (blockOn_spans hl hc).start
    have := hsp.start
    omega

theorem titleBlockAt_iff_owner (h : Accepted styles) (text : Text) :
    (∀ pos b, (ofStyles styles).titleBlockAt text pos = some b ↔
        b ∈ (ofStyles styles).titleBlocks text 0 text.length ∧ b.Owns (text.lineStart pos)) ↔
      ¬∃ above k l m below, text.lines = above ++ k :: l :: m :: below ∧
        ((ofStyles styles).titleLine? k.body).isSome = true ∧ LoudRun styles l.body ∧
        ((ofStyles styles).underline? m.body).isSome = true := by
  rw [← unstacked_iff h]
  exact ⟨unstacked_of_owner h.withinLine, fun hu => owner_of_unstacked h.withinLine hu⟩

theorem titleBlockAt_iff_owner_loud : Accepted ['=', '-'] ∧
    ¬∀ pos b, (ofStyles ['=', '-']).titleBlockAt "A\n#! =\n-".toList pos = some b ↔
      b ∈ (ofStyles ['=', '-']).titleBlocks "A\n#! =\n-".toList 0 8 ∧
        b.Owns (Text.lineStart "A\n#! =\n-".toList pos) := by
  refine ⟨by decide, fun h => (titleBlockAt_iff_owner (by decide) "A\n#! =\n-".toList).mp h ?_⟩
  refine ⟨[], ⟨0, ['A']⟩, ⟨2, ['#', '!', ' ', '=']⟩, ⟨7, ['-']⟩, [], by decide, by decide, ?_, by decide⟩
  exact ⟨[], 0, [' '], '=', 0, [], rfl, rfl, rfl, rfl, by decide, by simp⟩

end Grammar

end Literate
