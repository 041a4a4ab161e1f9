import Literate.Proofs.Title.Lines

namespace Literate

structure TitleBlock.Spans (b : TitleBlock) (l m : Line) (closed : Bool) : Prop where
  start : b.start = l.start
  headingStop : b.headingStop = l.stop
  underlineStart : b.underlineStart = m.start
  underlineStop : b.underlineStop = m.stop
  closed : b.closed = closed
  next : m.start = l.stop + 1
  title : b.titleStart < b.titleStop
  run : b.runStart < b.runStop

namespace TitleBlock.Spans

variable {b : TitleBlock} {l m : Line} {closed : Bool}

theorem upper (h : b.Spans l m closed) : l.start < l.stop := by
  have := h.title
  have hs : b.start ≤ b.titleStart := Nat.le_add_right _ _
  have ht : b.titleStop ≤ b.headingStop := Nat.le_add_right _ _
  rw [← h.start, ← h.headingStop]
  omega

theorem lower (h : b.Spans l m closed) : m.start < m.stop := by
  have := h.run
  have hs : b.underlineStart ≤ b.runStart := Nat.le_add_right _ _
  have ht : b.runStop ≤ b.underlineStop := Nat.le_add_right _ _
  rw [← h.underlineStart, ← h.underlineStop]
  omega

theorem stop_eq (h : b.Spans l m closed) : b.stop = m.stop + if closed then 1 else 0 := by
  rw [TitleBlock.stop, h.underlineStop, h.closed]

theorem le_stop (h : b.Spans l m closed) : m.stop ≤ b.stop := by
  rw [h.stop_eq]
  exact Nat.le_add_right _ _

theorem stop_le (h : b.Spans l m closed) : b.stop ≤ m.stop + 1 := by
  rw [h.stop_eq]
  split <;> omega

end TitleBlock.Spans

def TitleBlock.shift (n : Nat) (b : TitleBlock) : TitleBlock := { b with start := b.start + n }

theorem TitleBlock.shift_stop (n : Nat) (b : TitleBlock) : (b.shift n).stop = b.stop + n := by
  have hunder : (b.shift n).underlineStop = b.underlineStop + n := by
    simp only [shift, underlineStop, runStop, runStart, underlineStart, headingStop, titleStop, titleStart]
    omega
  rw [stop, hunder]
  exact Nat.add_right_comm _ _ _

namespace Grammar

variable {g : Grammar}

def pair? (g : Grammar) (start : Nat) (upper lower : Text) (closed : Bool) : Option TitleBlock :=
  (g.titleLine? upper).bind fun t => (g.underline? lower).map fun u => ⟨start, t, u.1, closed⟩

/-- The block of a line and the one below; `more` tells whether a newline ends the last line. -/
def blockOn (g : Grammar) (more : Bool) (l : Line) : List Line → Option TitleBlock
  | [] => none
  | m :: below => g.pair? l.start l.body m.body (more || !below.isEmpty)

def blocksOf (g : Grammar) (more : Bool) : List Line → List TitleBlock
  | [] => []
  | [_] => []
  | l :: m :: below =>
    match g.blockOn more l (m :: below) with
    | some b => b :: blocksOf g more below
    | none => blocksOf g more (m :: below)

theorem blocksOf_some {more : Bool} {l m : Line} {below : List Line} {b : TitleBlock}
    (h : g.blockOn more l (m :: below) = some b) :
    g.blocksOf more (l :: m :: below) = b :: g.blocksOf more below := by
  rw [blocksOf, h]

theorem blocksOf_none {more : Bool} {l : Line} {below : List Line} (h : g.blockOn more l below = none) :
    g.blocksOf more (l :: below) = g.blocksOf more below := by
  cases below with
  | nil => rfl
  | cons m below => rw [blocksOf, h]

theorem pair?_eq_some {start : Nat} {upper lower : Text} {closed : Bool} {b : TitleBlock}
    (h : g.pair? start upper lower closed = some b) :
    ∃ t u, g.titleLine? upper = some t ∧ g.underline? lower = some u ∧ b = ⟨start, t, u.1, closed⟩ := by
  obtain ⟨t, ht, h⟩ := Option.bind_eq_some_iff.mp h
  obtain ⟨u, hu, rfl⟩ := Option.map_eq_some_iff.mp h
  exact ⟨t, u, ht, hu, rfl⟩

theorem blockOn_shift (more : Bool) (l : Line) (below : List Line) (n : Nat) :
    g.blockOn more (l.shift n) (below.map (Line.shift n)) = (g.blockOn more l below).map (TitleBlock.shift n) := by
  cases below with
  | nil => rfl
  | cons m below =>
    rw [List.map_cons, blockOn, blockOn, pair?, pair?, List.isEmpty_map, Line.shift_body, Line.shift_body]
    cases g.titleLine? l.body with
    | none => rfl
    | some t => cases g.underline? m.body <;> rfl

theorem blockOn_eq_none_iff {more : Bool} {l m : Line} {below : List Line} :
    g.blockOn more l (m :: below) = none ↔ g.titleLine? l.body = none ∨ g.underline? m.body = none := by
  rw [blockOn, pair?]
  cases g.titleLine? l.body <;> cases g.underline? m.body <;> simp

theorem blockFrom?_last {n : Nat} {body : Text} (hb : '\n' ∉ body) : g.blockFrom? n body = none := by
  rw [blockFrom?, List.findSome?_eq_none_iff]
  intro p hp
  rw [titleLines_last hb hp]
  rfl

theorem blockFrom?_line (hg : g.WithinLine) {n : Nat} {body : Text} (hb : '\n' ∉ body) (rest : Text) :
    g.blockFrom? n (body ++ '\n' :: rest) =
      (g.titleLine? body).bind fun t => (g.underline? rest).map fun u => ⟨n, t, u.1, u.2.isSome⟩ := by
  rw [blockFrom?, titleLines_newline hg hb, titleLine?, List.findSome?_map]
  cases hu : g.underline? rest with
  | none => cases g.titleLines body <;> simp [hu]
  | some u => cases g.titleLines body <;> simp [hu]

theorem blockFrom?_eq (hg : g.WithinLine) {n : Nat} {text : Text} {l : Line} {below : List Line}
    (h : Text.linesFrom n text = l :: below) : g.blockFrom? n text = g.blockOn false l below := by
  have hl : '\n' ∉ l.body := Text.newline_not_mem_body h (by simp)
  obtain ⟨rfl, ⟨rfl, rfl⟩ | ⟨rest, rfl, rfl⟩⟩ := Text.of_linesFrom_cons h
  · exact blockFrom?_last hl
  · rw [blockFrom?_line hg hl]
    cases hr : Text.linesFrom (l.stop + 1) rest with
    | nil => exact absurd hr (Text.linesFrom_ne_nil _ _)
    | cons m more =>
      have hm : '\n' ∉ m.body := Text.newline_not_mem_body hr (by simp)
      rw [blockOn, pair?]
      congr 1
      funext t
      obtain ⟨-, ⟨rfl, rfl⟩ | ⟨tail, rfl, rfl⟩⟩ := Text.of_linesFrom_cons hr
      · cases hu : g.underline? m.body with
        | none => rfl
        | some u => simp [underline?_last hm hu]
      · rw [underline?_newline hg hm, Option.map_map]
        have hne := Text.linesFrom_ne_nil (m.stop + 1) tail
        cases hu : g.underline? m.body with
        | none => rfl
        | some u => simp [hne]

theorem blockOn_spans {n : Nat} {text : Text} {above : List Line} {l m : Line} {rest below : List Line}
    {more : Bool} {b : TitleBlock} (h : Text.linesFrom n text = above ++ l :: m :: rest)
    (hb : g.blockOn more l (m :: below) = some b) : b.Spans l m (more || !below.isEmpty) := by
  have hl : '\n' ∉ l.body := Text.newline_not_mem_body h (by simp)
  have hm : '\n' ∉ m.body := Text.newline_not_mem_body h (by simp)
  have hs := Text.next_start h
  obtain ⟨t, u, ht, hun, rfl⟩ := pair?_eq_some hb
  obtain ⟨htb, htne⟩ := titleLine?_parts hl ht
  obtain ⟨hub, hpos, -⟩ := underline?_parts hm hun
  have htl := congrArg List.length htb
  have hul := congrArg List.length hub
  have htpos := List.length_pos_iff.mpr htne
  simp only [TitleLine.body, Underline.body, Underline.run, List.length_append, List.length_replicate] at htl hul
  constructor
  all_goals
    simp only [TitleBlock.underlineStop, TitleBlock.runStop, TitleBlock.runStart, TitleBlock.underlineStart,
      TitleBlock.headingStop, TitleBlock.titleStop, TitleBlock.titleStart, Line.stop] at hs ⊢
    try omega

theorem stop_le_length {text : Text} {above : List Line} {l m : Line} {below : List Line} {b : TitleBlock}
    (h : text.lines = above ++ l :: m :: below) (hb : g.blockOn false l (m :: below) = some b) :
    b.stop ≤ text.length := by
  have hsp := (blockOn_spans h hb).stop_eq
  have h' : text.lines = (above ++ [l]) ++ m :: below := by rw [h]; simp
  cases below with
  | nil =>
    have hlen := Text.stop_le_length h'
    simp only [List.isEmpty_nil, Bool.not_true, Bool.or_false, Bool.false_eq_true, if_false] at hsp
    omega
  | cons k below =>
    have h'' : text.lines = (above ++ [l, m]) ++ k :: below := by rw [h]; simp
    have hlen := Text.stop_le_length h''
    have hnext := Text.next_start (n := 0) h'
    have hline := k.start_le_stop
    simp only [List.isEmpty_cons, Bool.not_false, Bool.or_true, if_true] at hsp
    omega

theorem collect_blocks (hg : g.WithinLine) (first n : Nat) (text : Text) :
    Text.collect g.blockFrom? TitleBlock.stop first ((n, text) :: Text.tailsFrom n text) =
      g.blocksOf false ((Text.linesFrom n text).filter (first ≤ ·.start)) := by
  induction text using Text.byLine generalizing first n with
  | last body hb =>
    rw [Text.linesFrom_last hb, Text.tailsFrom_last hb]
    by_cases hf : first ≤ n
    · simp [Text.collect, hf, blockFrom?_last hb, blocksOf]
    · simp [Text.collect, hf, blocksOf]
  | line body rest hb ih =>
    have hl := Text.linesFrom_line hb n rest
    rw [hl, Text.tailsFrom_line hb, Text.collect]
    by_cases hf : first ≤ n
    · have hall := Text.filter_start_of_le (show first ≤ n + body.length + 1 by omega) rest
      rw [if_pos hf, List.filter_cons_of_pos (by simpa using hf), hall, blockFrom?_eq hg hl]
      cases hb : g.blockOn false ⟨n, body⟩ (Text.linesFrom (n + body.length + 1) rest) with
      | none => rw [blocksOf_none hb, ih, hall]
      | some b =>
        cases hr : Text.linesFrom (n + body.length + 1) rest with
        | nil => exact absurd hr (Text.linesFrom_ne_nil _ _)
        | cons m below =>
          rw [hr] at hl hb
          have hlines : Text.linesFrom n (body ++ '\n' :: rest) = [] ++ ⟨n, body⟩ :: m :: below := hl
          have hsp := blockOn_spans hlines hb
          have hstop := hsp.stop_le
          have hlow := hsp.lower
          have hm : ¬b.stop ≤ m.start := by
            have := hsp.le_stop
            omega
          have hp := Text.linesFrom_pairwise (n + body.length + 1) rest
          rw [hr, List.pairwise_cons] at hp
          have hbelow : below.filter (b.stop ≤ ·.start) = below := by
            refine List.filter_eq_self.mpr fun k hk => decide_eq_true ?_
            have := hp.1 k hk
            omega
          have hrest := ih b.stop (n + body.length + 1)
          rw [hr, List.filter_cons_of_neg (by simpa using hm), hbelow] at hrest
          rw [blocksOf_some hb, ← hrest]
    · rw [if_neg hf, List.filter_cons_of_neg (by simpa using hf)]
      exact ih first _

theorem titleBlocks_eq (hg : g.WithinLine) (text : Text) (first last : Nat) :
    g.titleBlocks text first last =
      g.blocksOf false ((Text.lines (text.take last)).filter (first ≤ ·.start)) :=
  collect_blocks hg first 0 (text.take last)

theorem titleBlocks_all (hg : g.WithinLine) (text : Text) :
    g.titleBlocks text 0 text.length = g.blocksOf false text.lines := by
  rw [titleBlocks_eq hg, List.take_length, Text.lines_eq_linesFrom, Text.filter_start_of_le (Nat.le_refl 0)]

theorem blockOn_append (more : Bool) (l m : Line) (rest below : List Line) :
    g.blockOn more l (m :: (rest ++ below)) = g.blockOn (more || !below.isEmpty) l (m :: rest) := by
  cases rest <;> cases below <;> simp [blockOn]

theorem blockOn_front (more : Bool) (k m : Line) (rest : List Line) (l : Line) (below : List Line) :
    g.blockOn more k (m :: (rest ++ l :: below)) = g.blockOn true k (m :: rest) := by
  simp [blockOn_append]

theorem blocksOf_append {more : Bool} {above below : List Line}
    (h : ∀ l ∈ above.getLast?, g.blockOn more l below = none) :
    g.blocksOf more (above ++ below) = g.blocksOf (more || !below.isEmpty) above ++ g.blocksOf more below := by
  fun_induction blocksOf g (more || !below.isEmpty) above with
  | case1 => rfl
  | case2 l => rw [List.singleton_append, blocksOf_none (h l rfl), List.nil_append]
  | case3 l m rest b hb ih =>
    rw [List.cons_append, List.cons_append, blocksOf_some (blockOn_append more l m rest below ▸ hb),
      List.cons_append, ih]
    intro k hk
    cases rest with
    | nil => simp at hk
    | cons n rest => exact h k (by simpa using hk)
  | case4 l m rest hb ih =>
    rw [List.cons_append, List.cons_append, blocksOf_none (blockOn_append more l m rest below ▸ hb),
      ← List.cons_append, ih]
    exact fun k hk => h k (by simpa using hk)

theorem blocksOf_split (g : Grammar) (more : Bool) (above : List Line) (l : Line) (below : List Line) :
    g.blocksOf more (above ++ l :: below) = g.blocksOf true above ++ g.blocksOf more (l :: below) ∨
      ∃ front k b, above = front ++ [k] ∧ g.blockOn more k (l :: below) = some b ∧
        g.blocksOf more (above ++ l :: below) = g.blocksOf true front ++ b :: g.blocksOf more below := by
  fun_induction blocksOf g true above with
  | case1 => exact .inl rfl
  | case2 k =>
    cases hb : g.blockOn more k (l :: below) with
    | none => exact .inl (blocksOf_none hb)
    | some b => exact .inr ⟨[], k, b, rfl, hb, blocksOf_some hb⟩
  | case3 k m rest b hb ih =>
    rw [List.cons_append, List.cons_append, blocksOf_some (blockOn_front more k m rest l below ▸ hb)]
    rcases ih with he | ⟨front, n, c, rfl, hc, he⟩
    · exact .inl (by rw [he, List.cons_append])
    · refine .inr ⟨k :: m :: front, n, c, rfl, hc, ?_⟩
      have hf : g.blockOn true k (m :: front) = some b := blockOn_front true k m front n [] ▸ hb
      rw [he, blocksOf_some hf, List.cons_append]
  | case4 k m rest hb ih =>
    rw [List.cons_append, List.cons_append, blocksOf_none (blockOn_front more k m rest l below ▸ hb),
      ← List.cons_append]
    rcases ih with he | ⟨front, n, c, hf, hc, he⟩
    · exact .inl he
    · refine .inr ⟨k :: front, n, c, by rw [hf, List.cons_append], hc, ?_⟩
      have hk : g.blockOn true k front = none := by
        cases front with
        | nil => rfl
        | cons a front =>
          obtain ⟨rfl, rfl⟩ := List.cons.inj hf
          exact blockOn_front true k m front n [] ▸ hb
      rw [he, blocksOf_none hk]

theorem blocksOf_concat {more : Bool} {above : List Line} {l : Line}
    (h : ∀ k ∈ above.getLast?, g.blockOn more k [l] = none) :
    g.blocksOf more (above ++ [l]) = g.blocksOf true above := by
  rcases blocksOf_split g more above l [] with he | ⟨front, k, b, rfl, hb, -⟩
  · rw [he, blocksOf, List.append_nil]
  · simp [h k (by simp)] at hb

theorem exists_of_mem_blocksOf {more : Bool} {ls : List Line} {b : TitleBlock} (h : b ∈ g.blocksOf more ls) :
    ∃ above l m below, ls = above ++ l :: m :: below ∧ g.blockOn more l (m :: below) = some b := by
  fun_induction blocksOf g more ls with
  | case1 => simp at h
  | case2 => simp at h
  | case3 l m below c hc ih =>
    rcases List.mem_cons.mp h with rfl | h
    · exact ⟨[], l, m, below, rfl, hc⟩
    · obtain ⟨above, k, n, rest, rfl, hb⟩ := ih h
      exact ⟨l :: m :: above, k, n, rest, rfl, hb⟩
  | case4 l m below hc ih =>
    obtain ⟨above, k, n, rest, he, hb⟩ := ih h
    exact ⟨l :: above, k, n, rest, by rw [he, List.cons_append], hb⟩

theorem exists_of_mem_titleBlocks (hg : g.WithinLine) {text : Text} {first last : Nat} {b : TitleBlock}
    (hb : b ∈ g.titleBlocks text first last) : ∃ above l m below,
      Text.lines (text.take last) = above ++ l :: m :: below ∧ g.blockOn false l (m :: below) = some b ∧
        first ≤ b.start := by
  rw [titleBlocks_eq hg] at hb
  obtain ⟨before, l, m, below, hlines, hblock⟩ := exists_of_mem_blocksOf hb
  obtain ⟨above, habove⟩ := Text.filter_start_suffix first 0 (text.take last)
  have hl : l ∈ (Text.lines (text.take last)).filter (first ≤ ·.start) := by rw [hlines]; simp
  rw [← Text.lines_eq_linesFrom, hlines, ← List.append_assoc] at habove
  have hstart := (blockOn_spans (n := 0) habove.symm hblock).start
  have hfirst : first ≤ l.start := by simpa using (List.mem_filter.mp hl).2
  exact ⟨above ++ before, l, m, below, habove.symm, hblock, by omega⟩

section Positions

variable {text : Text} {above : List Line} {l : Line} {below : List Line} {pos : Int}

theorem exists_of_blockAbove (h : text.lines = above ++ l :: below) {b : TitleBlock}
    (hb : (above.getLast?.bind fun k => g.blockOn false k (l :: below)) = some b) :
    ∃ front k, above = front ++ [k] ∧ text.lines = front ++ k :: l :: below ∧
      g.blockOn false k (l :: below) = some b := by
  obtain ⟨k, hk, hkb⟩ := Option.bind_eq_some_iff.mp hb
  obtain ⟨front, rfl⟩ := List.getLast?_eq_some_iff.mp hk
  exact ⟨front, k, rfl, by rw [h]; simp, hkb⟩

theorem blockStarting?_eq (hg : g.WithinLine) (h : text.lines = above ++ l :: below) :
    g.blockStarting? text l.start = g.blockOn false l below :=
  blockFrom?_eq hg (Text.drop_start h)

theorem titleBlock?_eq (hg : g.WithinLine) (h : text.lines = above ++ l :: below)
    (hs : l.start ≤ text.clamp pos) (ht : text.clamp pos ≤ l.stop) :
    g.titleBlock? text pos = g.blockOn false l below := by
  rw [titleBlock?, Text.lineStart, Text.lineAt, Text.focus_eq h hs ht, blockStarting?_eq hg h]

theorem titleBlockAbove_eq (hg : g.WithinLine) (h : text.lines = above ++ l :: below)
    (hs : l.start ≤ text.clamp pos) (ht : text.clamp pos ≤ l.stop) :
    g.titleBlockAbove text pos = above.getLast?.bind fun k => g.blockOn false k (l :: below) := by
  rw [titleBlockAbove, Text.previousLineStart, Text.focus_eq h hs ht, List.head?_reverse]
  rcases List.eq_nil_or_concat above with rfl | ⟨front, k, rfl⟩
  · rfl
  · have hk : text.lines = front ++ k :: (l :: below) := by simpa using h
    simpa using blockStarting?_eq hg hk

end Positions

end Grammar

end Literate
