import Literate.Proofs.Directive.Shift
import Literate.Proofs.Title.Ownership
import Literate.Render.Context

namespace Literate

variable {π : Type}

def Line.view (l : Line) (ds : List (Directive π)) : List (Directive π) :=
  ds.filterMap (Render.clip l.start l.body.length)

namespace Line

variable {l : Line}

theorem clip_on {d : Directive π} (h : d.On l) :
    Render.clip l.start l.body.length d = some { d with start := d.start - l.start, stop := d.stop - l.start } := by
  have hstart := h.start
  have hfilled := h.filled
  have hstop : d.stop ≤ l.start + l.body.length := h.stop
  rw [Render.clip]
  rw [Nat.max_eq_left hstart, Nat.min_eq_left hstop, if_pos hfilled]

theorem clip_apart {d : Directive π} {k : Line} (h : d.On k) (hk : k.stop < l.start ∨ l.stop < k.start) :
    Render.clip l.start l.body.length d = none := by
  have hstart := h.start
  have hstop := h.stop
  have hend : l.stop = l.start + l.body.length := rfl
  have hnot : ¬max d.start l.start < min d.stop (l.start + l.body.length) := by omega
  rw [Render.clip]
  exact if_neg hnot

theorem clip_shift (n start length : Nat) (d : Directive π) :
    Render.clip (start + n) length (d.shift n) = Render.clip start length d := by
  have hmax : max (d.start + n) (start + n) = max d.start start + n := by omega
  have hmin : min (d.stop + n) (start + n + length) = min d.stop (start + length) + n := by omega
  rw [Render.clip, Render.clip]
  simp only [Directive.shift, hmax, hmin, Nat.add_lt_add_iff_right, Nat.add_sub_add_right]

theorem view_append (l : Line) (ds es : List (Directive π)) : l.view (ds ++ es) = l.view ds ++ l.view es :=
  List.filterMap_append

theorem view_cons_on {d : Directive π} (h : d.On l) (ds : List (Directive π)) :
    l.view (d :: ds) = { d with start := d.start - l.start, stop := d.stop - l.start } :: l.view ds :=
  List.filterMap_cons_some (clip_on h)

theorem view_apart {ds : List (Directive π)} {k : Line} (h : ∀ d ∈ ds, d.On k)
    (hk : k.stop < l.start ∨ l.stop < k.start) : l.view ds = [] := by
  rw [view, List.filterMap_eq_nil_iff]
  intro d hd
  exact clip_apart (h d hd) hk

theorem view_shift (l : Line) (n : Nat) (ds : List (Directive π)) :
    (l.shift n).view (ds.map (Directive.shift n)) = l.view ds := by
  rw [view, view, List.filterMap_map]
  apply List.filterMap_congr
  intro d _
  exact clip_shift n l.start l.body.length d

theorem view_flatMap {above : List Line} {below : List Line} {text : Text} (h : text.lines = above ++ l :: below)
    {f : Line → List (Directive π)} (hf : ∀ k, '\n' ∉ k.body → ∀ d ∈ f k, d.On k) :
    l.view ((above ++ l :: below).flatMap f) = l.view (f l) := by
  have hbody : ∀ k ∈ above ++ l :: below, '\n' ∉ k.body := fun k hk => Text.newline_not_mem_body h hk
  have hp := Text.linesFrom_pairwise 0 text
  rw [← Text.lines_eq_linesFrom, h, List.pairwise_append, List.pairwise_cons] at hp
  obtain ⟨-, ⟨hbelow, -⟩, habove⟩ := hp
  have hnil : ∀ ks : List Line, (∀ k ∈ ks, k ∈ above ++ l :: below ∧ (k.stop < l.start ∨ l.stop < k.start)) →
      l.view (ks.flatMap f) = [] := by
    intro ks hks
    rw [view, List.filterMap_flatMap, List.flatMap_eq_nil_iff]
    intro k hk
    obtain ⟨hmem, hapart⟩ := hks k hk
    exact view_apart (hf k (hbody k hmem)) hapart
  rw [List.flatMap_append, List.flatMap_cons, view_append, view_append,
    hnil above fun k hk => ⟨by simp [hk], .inl (habove k hk l (by simp))⟩,
    hnil below fun k hk => ⟨by simp [hk], .inr (hbelow k hk)⟩, List.nil_append, List.append_nil]

end Line

namespace Annotator

variable {g : Grammar} {v : Visibility}

def headingPart (t : TitleLine) (style : Style π) (hidden : Bool) : List (Directive π) :=
  (markerSpan? 0 t.marker).toList.map (fun p => ⟨p.1, p.2, .markup, hidden, false⟩) ++
    [⟨t.marker.length, t.marker.length + t.title.length, style, false, hidden⟩]

def underlinePart (u : Underline) (hidden : Bool) : List (Directive π) :=
  (markerSpan? 0 u.marker).toList.map (fun p => ⟨p.1, p.2, .markup, hidden, false⟩) ++
    [⟨u.marker.length, u.marker.length + u.length, .markup, hidden, false⟩]

def titleStyle (g : Grammar) (b : TitleBlock) : Style π := .ofIndex ((g.styleIndex b.underline.char).map Int.ofNat)

def blockPart (g : Grammar) (v : Visibility) (start : Nat) (b : TitleBlock) : List (Directive π) :=
  if b.start = start then headingPart b.heading (titleStyle g b) (v.hidesTitle b.span)
  else underlinePart b.underline (v.hidesTitle b.span)

theorem blockPart_shift (g : Grammar) (v : Visibility) (start n : Nat) (b : TitleBlock) :
    blockPart (π := π) g v (start + n) (b.shift n) = blockPart g (v.shift (-n)) start b := by
  have hspan : (b.shift n).span = b.span.shift n := by
    rw [TitleBlock.span, TitleBlock.shift_stop, Int.natCast_add]
    rfl
  have hstart : (b.shift n).start = start + n ↔ b.start = start := Nat.add_right_cancel_iff
  rw [blockPart, blockPart, hspan, Visibility.hidesTitle_shift]
  by_cases hs : b.start = start
  · rw [if_pos hs, if_pos (hstart.mpr hs)]
    rfl
  · rw [if_neg hs, if_neg fun h => hs (hstart.mp h)]
    rfl

theorem view_marker {l : Line} {marker : Text} (hidden : Bool) (h : l.start + marker.length ≤ l.stop) :
    l.view ((markerSpan? l.start marker).toList.map fun p =>
        (⟨p.1, p.2, .markup, hidden, false⟩ : Directive π)) =
      (markerSpan? 0 marker).toList.map fun p => ⟨p.1, p.2, .markup, hidden, false⟩ := by
  have hs := markerSpan?_shift 0 l.start marker
  rw [Nat.zero_add] at hs
  rw [hs]
  cases hm : markerSpan? 0 marker with
  | none => rfl
  | some p =>
    obtain ⟨-, hlt, hlast⟩ := markerSpan?_eq_some hm
    have hon : (⟨p.1 + l.start, p.2 + l.start, .markup, hidden, false⟩ : Directive π).On l :=
      ⟨Nat.le_add_left _ _, by dsimp only; omega, by dsimp only; omega⟩
    simp only [Option.map_some, Option.toList_some, List.map_cons, List.map_nil, Line.view_cons_on hon,
      Nat.add_sub_cancel]
    rfl

section Families

variable {a : Annotator π} (l : Line) (n : Nat)

theorem view_commentsOn_shift : (l.shift n).view (commentsOn (π := π) g v (l.shift n)) =
    l.view (commentsOn g (v.shift (-n)) l) := by
  rw [commentsOn_shift, Line.view_shift]

theorem view_doctestsOn_shift : (l.shift n).view (a.doctestsOn g (l.shift n)) = l.view (a.doctestsOn g l) := by
  rw [doctestsOn_shift, Line.view_shift]

theorem view_quotesOn_shift : (l.shift n).view (a.quotesOn g v (l.shift n)) =
    l.view (a.quotesOn g (v.shift (-n)) l) := by
  rw [quotesOn_shift, Line.view_shift]

end Families

section Spans

variable {b : TitleBlock} {l m : Line} {closed : Bool}

theorem titleStart_eq (hb : b.Spans l m closed) : b.titleStart = l.start + b.heading.marker.length := by
  rw [TitleBlock.titleStart, hb.start]

theorem titleStop_le (hb : b.Spans l m closed) : b.titleStop ≤ l.stop := by
  rw [← hb.headingStop]
  exact Nat.le_add_right _ _

theorem runStart_eq (hb : b.Spans l m closed) : b.runStart = m.start + b.underline.marker.length := by
  rw [TitleBlock.runStart, hb.underlineStart]

theorem runStop_le (hb : b.Spans l m closed) : b.runStop ≤ m.stop := by
  rw [← hb.underlineStop]
  exact Nat.le_add_right _ _

theorem ofBlock_eq (hb : b.Spans l m closed) : ofBlock (π := π) g v b =
    (markerSpan? l.start b.heading.marker).toList.map
        (fun p => ⟨p.1, p.2, .markup, v.hidesTitle b.span, false⟩) ++
      ((markerSpan? m.start b.underline.marker).toList.map
          (fun p => ⟨p.1, p.2, .markup, v.hidesTitle b.span, false⟩) ++
        ([⟨b.titleStart, b.titleStop, titleStyle g b, false, v.hidesTitle b.span⟩] ++
          [⟨b.runStart, b.runStop, .markup, v.hidesTitle b.span, false⟩])) := by
  rw [ofBlock, hb.start, hb.underlineStart, List.map_append, List.append_assoc]
  rfl

theorem title_on (hb : b.Spans l m closed) (style : Style π) (hidden : Bool) :
    (⟨b.titleStart, b.titleStop, style, false, hidden⟩ : Directive π).On l :=
  ⟨by rw [titleStart_eq hb]; exact Nat.le_add_right _ _, hb.title, titleStop_le hb⟩

theorem run_on (hb : b.Spans l m closed) (hidden : Bool) :
    (⟨b.runStart, b.runStop, .markup, hidden, false⟩ : Directive π).On m :=
  ⟨by rw [runStart_eq hb]; exact Nat.le_add_right _ _, hb.run, runStop_le hb⟩

theorem marker_on {start : Nat} {marker : Text} {k : Line} (hidden : Bool) (hs : k.start = start)
    (h : start + marker.length ≤ k.stop) :
    ∀ d ∈ (markerSpan? start marker).toList.map fun p => (⟨p.1, p.2, .markup, hidden, false⟩ : Directive π),
      d.On k := by
  intro d hd
  obtain ⟨p, hp, rfl⟩ := List.mem_map.mp hd
  obtain ⟨hfirst, hlt, hlast⟩ := markerSpan?_eq_some (Option.mem_toList.mp hp)
  exact ⟨by dsimp only; omega, hlt, by dsimp only; omega⟩

theorem view_heading (hb : b.Spans l m closed) :
    l.view (ofBlock (π := π) g v b) = headingPart b.heading (titleStyle g b) (v.hidesTitle b.span) := by
  have hnext := hb.next
  have hml : m.stop < l.start ∨ l.stop < m.start := .inr (by omega)
  have hts := titleStart_eq hb
  have htt := titleStop_le hb
  have htitle := hb.title
  have hrs := runStart_eq hb
  have hrt := runStop_le hb
  have hrun := hb.run
  have hstop : b.titleStop = b.titleStart + b.heading.title.length := rfl
  have hlen : b.titleStop - l.start = b.heading.marker.length + b.heading.title.length := by omega
  have hfirst : b.titleStart - l.start = b.heading.marker.length := by omega
  have hnone : l.view [(⟨b.runStart, b.runStop, .markup, v.hidesTitle b.span, false⟩ : Directive π)] = [] :=
    Line.view_apart (fun d hd => List.mem_singleton.mp hd ▸ run_on hb _) hml
  rw [ofBlock_eq hb, Line.view_append, Line.view_append, Line.view_append, view_marker _ (by omega),
    Line.view_apart (marker_on _ rfl (by omega)) hml, hnone, Line.view_cons_on (title_on hb _ _)]
  simp only [hlen, hfirst]
  rfl

theorem view_underline (hb : b.Spans l m closed) :
    m.view (ofBlock (π := π) g v b) = underlinePart b.underline (v.hidesTitle b.span) := by
  have hnext := hb.next
  have hlm : l.stop < m.start ∨ m.stop < l.start := .inl (by omega)
  have hts := titleStart_eq hb
  have htt := titleStop_le hb
  have htitle := hb.title
  have hrs := runStart_eq hb
  have hrt := runStop_le hb
  have hrun := hb.run
  have hstop : b.runStop = b.runStart + b.underline.length := rfl
  have hlen : b.runStop - m.start = b.underline.marker.length + b.underline.length := by omega
  have hfirst : b.runStart - m.start = b.underline.marker.length := by omega
  rw [ofBlock_eq hb, Line.view_append, Line.view_append, Line.view_append,
    Line.view_apart (marker_on _ rfl (by omega)) hlm, view_marker _ (by omega),
    Line.view_apart (fun d hd => List.mem_singleton.mp hd ▸ title_on hb _ _) hlm, Line.view_cons_on (run_on hb _)]
  simp only [hlen, hfirst]
  rfl

theorem view_block_apart {k : Line} (hb : b.Spans l m closed) (hl : l.stop < k.start ∨ k.stop < l.start)
    (hm : m.stop < k.start ∨ k.stop < m.start) : k.view (ofBlock (π := π) g v b) = [] := by
  rw [Line.view, List.filterMap_eq_nil_iff]
  intro d hd
  rcases ofBlock_on hb hd with hon | hon
  · exact Line.clip_apart hon hl
  · exact Line.clip_apart hon hm

end Spans

section Owner

variable {text : Text} {above : List Line} {l : Line} {below : List Line} {more : Bool} {bs cs : List TitleBlock}

def Silent (g : Grammar) (v : Visibility) (l : Line) (bs : List TitleBlock) : Prop :=
  TitleBlock.owner? bs l.start = none ∧ l.view (bs.flatMap (ofBlock (π := π) g v)) = []

def Shown (g : Grammar) (v : Visibility) (l : Line) (bs : List TitleBlock) : Prop :=
  l.view (bs.flatMap (ofBlock (π := π) g v)) =
    (TitleBlock.owner? bs l.start).elim [] (blockPart g v l.start)

theorem Silent.shown (h : Silent (π := π) g v l bs) : Shown (π := π) g v l bs := by
  rw [Shown, h.1, h.2]
  rfl

theorem Silent.append (hb : Silent (π := π) g v l bs) (hc : Shown (π := π) g v l cs) :
    Shown (π := π) g v l (bs ++ cs) := by
  have howner : TitleBlock.owner? (bs ++ cs) l.start = TitleBlock.owner? cs l.start := by
    have hnone : bs.find? (fun b => decide (b.Owns l.start)) = none := hb.1
    rw [TitleBlock.owner?, List.find?_append, hnone, Option.none_or]
    rfl
  rw [Shown, List.flatMap_append, Line.view_append, hb.2, List.nil_append, howner]
  exact hc

theorem Silent.cons {b : TitleBlock} (hown : b.Owns l.start)
    (hview : l.view (ofBlock (π := π) g v b) = blockPart g v l.start b) (hc : Silent (π := π) g v l cs) :
    Shown (π := π) g v l (b :: cs) := by
  have howner : TitleBlock.owner? (b :: cs) l.start = some b := List.find?_cons_of_pos (decide_eq_true hown)
  rw [Shown, List.flatMap_cons, Line.view_append, hc.2, List.append_nil, howner]
  exact hview

theorem silent_of_apart {ls : List Line} (h : text.lines = above ++ (ls ++ below))
    (hls : ∀ k ∈ ls, k.stop < l.start ∨ l.stop < k.start) : Silent (π := π) g v l (g.blocksOf more ls) := by
  have hspans : ∀ b ∈ g.blocksOf more ls, ∃ k ∈ ls, ∃ m ∈ ls, ∃ closed, b.Spans k m closed := by
    intro b hb
    obtain ⟨front, k, m, rest, rfl, hkm⟩ := Grammar.exists_of_mem_blocksOf hb
    have h' : text.lines = (above ++ front) ++ k :: m :: (rest ++ below) := by rw [h]; simp
    exact ⟨k, by simp, m, by simp, _, Grammar.blockOn_spans h' hkm⟩
  constructor
  · rw [TitleBlock.owner?, List.find?_eq_none]
    intro b hb
    obtain ⟨k, hk, m, hm, closed, hsp⟩ := hspans b hb
    have hstart := hsp.start
    have hunder := hsp.underlineStart
    have hupper := hsp.upper
    have hlower := hsp.lower
    have hle : l.start ≤ l.stop := Nat.le_add_right _ _
    rw [decide_eq_true_eq]
    rintro (hown | hown)
    · rcases hls k hk with hkl | hkl <;> omega
    · rcases hls m hm with hml | hml <;> omega
  · rw [Line.view, List.filterMap_flatMap, List.flatMap_eq_nil_iff]
    intro b hb
    obtain ⟨k, hk, m, hm, closed, hsp⟩ := hspans b hb
    exact view_block_apart hsp (hls k hk) (hls m hm)

theorem shown_blocks (h : text.lines = above ++ l :: below) : Shown (π := π) g v l (g.blocksOf more text.lines) := by
  have hp := Text.linesFrom_pairwise 0 text
  rw [← Text.lines_eq_linesFrom, h, List.pairwise_append, List.pairwise_cons] at hp
  obtain ⟨-, ⟨hbelow, -⟩, habove⟩ := hp
  have hup : ∀ k ∈ above, k.stop < l.start ∨ l.stop < k.start := fun k hk => .inl (habove k hk l (by simp))
  have hlow : ∀ k ∈ below, k.stop < l.start ∨ l.stop < k.start := fun k hk => .inr (hbelow k hk)
  rcases Grammar.blocksOf_split g more above l below with he | ⟨front, k, b, rfl, hb, he⟩
  · have h0 : text.lines = [] ++ (above ++ (l :: below)) := h
    rw [h, he]
    apply (silent_of_apart h0 hup).append
    cases below with
    | nil =>
      exact Silent.shown ⟨rfl, rfl⟩
    | cons m rest =>
      cases hb : g.blockOn more l (m :: rest) with
      | none =>
        have h1 : text.lines = (above ++ [l]) ++ ((m :: rest) ++ []) := by rw [h]; simp
        rw [Grammar.blocksOf_none hb]
        exact (silent_of_apart h1 hlow).shown
      | some b =>
        have hsp := Grammar.blockOn_spans h hb
        have h1 : text.lines = (above ++ [l, m]) ++ (rest ++ []) := by rw [h]; simp
        rw [Grammar.blocksOf_some hb]
        refine Silent.cons (.inl hsp.start) ?_ (silent_of_apart h1 fun k hk => hlow k (List.mem_cons_of_mem m hk))
        rw [view_heading hsp, blockPart, if_pos hsp.start]
  · have h0 : text.lines = [] ++ (front ++ (k :: l :: below)) := by rw [h]; simp
    have h1 : text.lines = (front ++ [k, l]) ++ (below ++ []) := by rw [h]; simp
    have hsp := Grammar.blockOn_spans h0 hb
    have hstart := hsp.start
    have hnext := hsp.next
    have hupper := hsp.upper
    rw [h, he]
    apply (silent_of_apart h0 fun m hm => hup m (by simp [hm])).append
    refine Silent.cons (.inr hsp.underlineStart) ?_ (silent_of_apart h1 hlow)
    rw [view_underline hsp, blockPart, if_neg (by omega)]

theorem view_ofLines (h : text.lines = above ++ l :: below) (a : Annotator π) :
    l.view (a.ofLines g v more text.lines) = l.view (commentsOn g v l) ++
      (TitleBlock.owner? (g.blocksOf more text.lines) l.start).elim [] (blockPart g v l.start) ++
      l.view (a.doctestsOn g l) ++ l.view (a.quotesOn g v l) := by
  have hblocks : l.view ((g.blocksOf more text.lines).flatMap (ofBlock (π := π) g v)) = _ := shown_blocks h
  have hcomments := Line.view_flatMap h (f := commentsOn (π := π) g v) fun k hk d hd => commentsOn_on hk hd
  have hdoctests := Line.view_flatMap h (f := a.doctestsOn g) fun k hk d hd => doctestsOn_on hk hd
  have hquotes := Line.view_flatMap h (f := a.quotesOn g v) fun k _ d hd => quotesOn_on hd
  rw [ofLines, Line.view_append, Line.view_append, Line.view_append, hblocks]
  rw [h, hcomments, hdoctests, hquotes]

end Owner

end Annotator

end Literate
