import Literate.Proofs.Directive.Lines
import Literate.Proofs.Extent

namespace Literate

theorem filter_flatMap_middle {α β : Type} {f : α → List β} {p : β → Bool} {xs ys zs : List α}
    (hx : ∀ x ∈ xs, ∀ d ∈ f x, p d = false) (hy : ∀ y ∈ ys, ∀ d ∈ f y, p d = true)
    (hz : ∀ z ∈ zs, ∀ d ∈ f z, p d = false) : ((xs ++ (ys ++ zs)).flatMap f).filter p = ys.flatMap f := by
  have hnil : ∀ ws : List α, (∀ w ∈ ws, ∀ d ∈ f w, p d = false) → (ws.flatMap f).filter p = [] := by
    intro ws hw
    rw [List.filter_eq_nil_iff]
    intro d hd
    obtain ⟨w, hm, hd⟩ := List.mem_flatMap.mp hd
    simp [hw w hm d hd]
  have hself : (ys.flatMap f).filter p = ys.flatMap f := by
    rw [List.filter_eq_self]
    intro d hd
    obtain ⟨y, hm, hd⟩ := List.mem_flatMap.mp hd
    exact hy y hm d hd
  rw [List.flatMap_append, List.flatMap_append, List.filter_append, List.filter_append, hnil xs hx, hself,
    hnil zs hz, List.nil_append, List.append_nil]

namespace Annotator

variable {π : Type} {a : Annotator π} {g : Grammar} {v : Visibility} {text : Text}

theorem ofBlock_on_lines {above ls below : List Line} (h : text.lines = above ++ (ls ++ below)) {more : Bool}
    {b : TitleBlock} (hb : b ∈ g.blocksOf more ls) {d : Directive π} (hd : d ∈ ofBlock g v b) :
    ∃ k ∈ ls, d.On k := by
  obtain ⟨front, l, m, rest, rfl, hlm⟩ := Grammar.exists_of_mem_blocksOf hb
  have h' : text.lines = (above ++ front) ++ l :: m :: (rest ++ below) := by rw [h]; simp
  rcases ofBlock_on (Grammar.blockOn_spans h' hlm) hd with hon | hon
  · exact ⟨l, by simp, hon⟩
  · exact ⟨m, by simp, hon⟩

theorem filter_ofLines {above ls below : List Line} (h : text.lines = above ++ (ls ++ below)) {more : Bool}
    (hblocks : g.blocksOf false text.lines =
      g.blocksOf true above ++ (g.blocksOf more ls ++ g.blocksOf false below)) {p : Directive π → Bool}
    (habove : ∀ k ∈ above, ∀ d, d.On k → p d = false) (hls : ∀ k ∈ ls, ∀ d, d.On k → p d = true)
    (hbelow : ∀ k ∈ below, ∀ d, d.On k → p d = false) :
    (a.ofLines g v false text.lines).filter p = a.ofLines g v more ls := by
  have hbody : ∀ k ∈ above ++ (ls ++ below), '\n' ∉ k.body := fun k hk => Text.newline_not_mem_body h hk
  have hfamily : ∀ f : Line → List (Directive π), (∀ k, '\n' ∉ k.body → ∀ d ∈ f k, d.On k) →
      (text.lines.flatMap f).filter p = ls.flatMap f := by
    intro f hf
    rw [h]
    apply filter_flatMap_middle
    · exact fun k hk d hd => habove k hk d (hf k (hbody k (by simp [hk])) d hd)
    · exact fun k hk d hd => hls k hk d (hf k (hbody k (by simp [hk])) d hd)
    · exact fun k hk d hd => hbelow k hk d (hf k (hbody k (by simp [hk])) d hd)
  have hblock : ((g.blocksOf false text.lines).flatMap (ofBlock g v)).filter p =
      (g.blocksOf more ls).flatMap (ofBlock g v) := by
    rw [hblocks]
    apply filter_flatMap_middle
    · intro b hb d hd
      have h0 : text.lines = [] ++ (above ++ (ls ++ below)) := h
      obtain ⟨k, hk, hon⟩ := ofBlock_on_lines h0 hb hd
      exact habove k hk d hon
    · intro b hb d hd
      obtain ⟨k, hk, hon⟩ := ofBlock_on_lines h hb hd
      exact hls k hk d hon
    · intro b hb d hd
      have h0 : text.lines = (above ++ ls) ++ (below ++ []) := by rw [h, List.append_nil, List.append_assoc]
      obtain ⟨k, hk, hon⟩ := ofBlock_on_lines h0 hb hd
      exact hbelow k hk d hon
  rw [ofLines, ofLines, List.filter_append, List.filter_append, List.filter_append, hblock,
    hfamily _ fun k hk d hd => commentsOn_on hk hd, hfamily _ fun k hk d hd => doctestsOn_on hk hd,
    hfamily _ fun k _ d hd => quotesOn_on hd]

theorem ofLines_concat_empty (n : Nat) (ls : List Line) :
    a.ofLines g v false (ls ++ [⟨n, []⟩]) = a.ofLines g v true ls := by
  have hnone : ∀ f : Line → List (Directive π), (∀ d ∈ f ⟨n, []⟩, d.On ⟨n, []⟩) →
      (ls ++ [Line.mk n []]).flatMap f = ls.flatMap f := by
    intro f hf
    have hnil : f ⟨n, []⟩ = [] := by
      rw [List.eq_nil_iff_forall_not_mem]
      intro d hd
      have hs := (hf d hd).start
      have hlt := (hf d hd).filled
      have ht := (hf d hd).stop
      simp only [Line.stop, List.length_nil] at hs ht
      omega
    rw [List.flatMap_append, List.flatMap_singleton, hnil, List.append_nil]
  have hblocks : g.blocksOf false (ls ++ [⟨n, []⟩]) = g.blocksOf true ls := by
    have hlast : ∀ l ∈ ls.getLast?, g.blockOn false l [⟨n, []⟩] = none := by
      intro l _
      rw [Grammar.blockOn_eq_none_iff]
      exact .inr Grammar.underline?_nil
    rw [Grammar.blocksOf_append hlast, Grammar.blocksOf, List.append_nil]
    rfl
  rw [ofLines, ofLines, hblocks, hnone _ fun d hd => commentsOn_on List.not_mem_nil hd,
    hnone _ fun d hd => doctestsOn_on List.not_mem_nil hd, hnone _ fun d hd => quotesOn_on hd]

section Whole

variable {e : Extent} {above inner : List Line} {l : Line} {below : List Line}

theorem directives_of_lines (hg : g.WithinLine) (hw : e.Whole g above inner l below) {more : List Line}
    (hlines : Text.lines (text.take e.stop) = above ++ ((inner ++ [l]) ++ more))
    (hmore : ∀ k ∈ more, e.start ≤ k.start) :
    a.directives g v text e.start e.stop = a.ofLines g v false ((inner ++ [l]) ++ more) := by
  have hfilter : (above ++ ((inner ++ [l]) ++ more)).filter (e.start ≤ ·.start) = (inner ++ [l]) ++ more := by
    have hin : ∀ k ∈ (inner ++ [l]) ++ more, decide (e.start ≤ k.start) = true := by
      intro k hk
      rcases List.mem_append.mp hk with hk | hk
      · exact decide_eq_true (hw.inside k hk)
      · exact decide_eq_true (hmore k hk)
    have hout : above.filter (e.start ≤ ·.start) = [] := by
      rw [List.filter_eq_nil_iff]
      intro k hk
      have := hw.before k hk
      have hle : k.start ≤ k.stop := Nat.le_add_right _ _
      simp only [decide_eq_true_eq]
      omega
    rw [List.filter_append, hout, List.nil_append, List.filter_eq_self.mpr hin]
  rw [directives_eq hg, hlines, hfilter]
  rw [hlines]
  intro k hk hlt
  rcases List.mem_append.mp hk with hk | hk
  · exact (hw.before k hk).le
  · rcases List.mem_append.mp hk with hk | hk
    · have := hw.inside k hk
      omega
    · have := hmore k hk
      omega

theorem directives_of_whole (hg : g.WithinLine) (h : text.lines = above ++ (inner ++ l :: below))
    (hw : e.Whole g above inner l below) :
    ∃ more, a.directives g v text e.start e.stop = a.ofLines g v more (inner ++ [l]) ∧
      g.blocksOf false text.lines =
        g.blocksOf true above ++ (g.blocksOf more (inner ++ [l]) ++ g.blocksOf false below) := by
  have hl := hw.inside l (by simp)
  have hcut : g.blocksOf false text.lines = g.blocksOf true above ++
      (g.blocksOf (!below.isEmpty) (inner ++ [l]) ++ g.blocksOf false below) := by
    have hlow : ∀ k ∈ (inner ++ [l]).getLast?, g.blockOn false k below = none := by
      intro k hk
      obtain rfl : l = k := by simpa using hk
      exact hw.lower
    have hsplit : inner ++ l :: below = (inner ++ [l]) ++ below := by simp
    rw [h, Grammar.blocksOf_append hw.upper, hsplit, Grammar.blocksOf_append hlow]
    cases inner <;> rfl
  rcases hw.stop with ⟨hstop, hne⟩ | ⟨hstop, hend⟩
  · obtain ⟨m, rest, rfl⟩ := List.exists_cons_of_ne_nil hne
    have hm : text.lines = (above ++ (inner ++ [l])) ++ m :: rest := by rw [h]; simp
    have hnext := Text.next_start (n := 0) (show _ = (above ++ inner) ++ l :: m :: rest by
      rw [← Text.lines_eq_linesFrom, h]; simp)
    have htake := Text.lines_take_start hm
    rw [show m.start = e.stop by omega, List.append_assoc] at htake
    refine ⟨true, ?_, hcut⟩
    rw [directives_of_lines hg hw htake, ofLines_concat_empty]
    intro k hk
    obtain rfl := List.mem_singleton.mp hk
    have hle : l.start ≤ l.stop := Nat.le_add_right _ _
    dsimp only
    omega
  · have hm : text.lines = (above ++ inner) ++ l :: below := by rw [h]; simp
    have htake := Text.lines_take_stop hm
    rw [← hstop] at htake
    refine ⟨false, ?_, ?_⟩
    · rw [← List.append_nil (inner ++ [l]), directives_of_lines hg hw (by simpa using htake) (by simp)]
    · rcases hend with rfl | hend
      · exact hcut
      · cases below with
        | nil => exact hcut
        | cons m below =>
          have hnone : ∀ {more}, ∀ k ∈ inner.getLast?, g.blockOn more k [l] = none := by
            intro more k hk
            rw [Grammar.blockOn_eq_none_iff]
            exact Grammar.blockOn_eq_none_iff.mp (hend k hk)
          rw [hcut, Grammar.blocksOf_concat hnone, Grammar.blocksOf_concat hnone]

theorem directives_whole_eq_filter (hg : g.WithinLine) (h : text.lines = above ++ (inner ++ l :: below))
    (hw : e.Whole g above inner l below) :
    a.directives g v text e.start e.stop =
      (a.directives g v text 0 text.length).filter fun d => e.start ≤ d.start && d.start < e.stop := by
  obtain ⟨more, hrange, hblocks⟩ := directives_of_whole (a := a) (v := v) hg h hw
  have h' : text.lines = above ++ ((inner ++ [l]) ++ below) := by rw [h]; simp
  have hp := Text.linesFrom_pairwise 0 text
  rw [← Text.lines_eq_linesFrom, h', List.pairwise_append, List.pairwise_append] at hp
  obtain ⟨-, ⟨hpin, -, hpbelow⟩, -⟩ := hp
  have hend : ∀ k ∈ inner ++ [l], k.stop ≤ l.stop := by
    intro k hk
    rcases List.mem_append.mp hk with hk | hk
    · have hlt := (List.pairwise_append.mp hpin).2.2 k hk l (by simp)
      have hle : l.start ≤ l.stop := Nat.le_add_right _ _
      omega
    · rw [List.mem_singleton.mp hk]
  rw [hrange, directives_all hg, filter_ofLines h' hblocks]
  · intro k hk d hd
    have := hw.before k hk
    have := hd.filled
    have := hd.stop
    simp only [Bool.and_eq_false_iff, decide_eq_false_iff_not]
    omega
  · intro k hk d hd
    have := hw.inside k hk
    have := hend k hk
    have := hd.start
    have := hd.filled
    have := hd.stop
    simp only [Bool.and_eq_true, decide_eq_true_eq]
    rcases hw.stop with ⟨hs, -⟩ | ⟨hs, -⟩ <;> omega
  · intro k hk d hd
    have := hpbelow l (by simp) k hk
    have := hd.start
    simp only [Bool.and_eq_false_iff, decide_eq_false_iff_not]
    rcases hw.stop with ⟨hs, -⟩ | ⟨hs, -⟩ <;> omega

end Whole

variable {s : Settings}

theorem annotate_of_widen_eq (h : Grammar.Accepted s.titleStyles) (a : Annotator π) (revealed : Option Span)
    {text : Text} {e : Extent} (hle : e.start ≤ e.stop) (hlen : e.stop ≤ text.length)
    (hw : s.grammar.widen text e = e) :
    a.annotate s revealed text e.start (some e.stop) =
      (a.annotate s revealed text 0 none).filter fun d => e.start ≤ d.start && d.start < e.stop := by
  have hg : s.grammar.WithinLine := h.withinLine
  obtain ⟨above, inner, l, below, hlines, hwhole⟩ := Grammar.whole_of_widen_eq hg hle hlen hw
  have hstart : text.clamp e.start = e.start := Text.clamp_of_le (by omega)
  have hstop : text.clamp e.stop = e.stop := Text.clamp_of_le hlen
  have hzero : text.clamp 0 = 0 := Nat.zero_min _
  rw [annotate, annotate, hstart, hzero, Option.map_some, Option.getD_some, hstop]
  exact directives_whole_eq_filter hg hlines hwhole

theorem annotate_title_alone : ({} : Settings).grammar.widen "A\n=\n``b``".toList ⟨0, 4⟩ = ⟨0, 4⟩ ∧
    (Annotator.mk none [] : Annotator Unit).annotate {} none "A\n=\n``b``".toList 0 (some 4) =
      ((Annotator.mk none [] : Annotator Unit).annotate {} none "A\n=\n``b``".toList 0 none).filter
        (fun d => 0 ≤ d.start && d.start < 4) ∧
    (Annotator.mk none [] : Annotator Unit).annotate {} none "A\n=\n``b``".toList 0 none =
      [.plain 0 1 .title1, .plain 2 3 .markup, ⟨4, 6, .quoteDelimiter, true, false⟩, .plain 6 7 .quoteDouble,
        ⟨7, 9, .quoteDelimiter, true, false⟩] ∧
    (Annotator.mk none [] : Annotator Unit).annotate {} none "A\n=\n``b``".toList 0 (some 4) =
      [.plain 0 1 .title1, .plain 2 3 .markup] := by
  have hw : ({} : Settings).grammar.widen "A\n=\n``b``".toList ⟨0, 4⟩ = ⟨0, 4⟩ := by decide
  have h := annotate_of_widen_eq (by decide) (Annotator.mk none [] : Annotator Unit) none (by decide) (by decide) hw
  have hall : (Annotator.mk none [] : Annotator Unit).annotate {} none "A\n=\n``b``".toList 0 none =
      [.plain 0 1 .title1, .plain 2 3 .markup, ⟨4, 6, .quoteDelimiter, true, false⟩, .plain 6 7 .quoteDouble,
        ⟨7, 9, .quoteDelimiter, true, false⟩] := by decide
  exact ⟨hw, h, hall, h.trans (by rw [hall]; rfl)⟩

end Annotator

end Literate
