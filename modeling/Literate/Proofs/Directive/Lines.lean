import Literate.Directive.Annotation
import Literate.Proofs.Comment
import Literate.Proofs.Doctest.Line
import Literate.Proofs.Quote
import Literate.Proofs.Title.Blocks

namespace Literate

theorem flatMap_filter {α β : Type} (p : α → Bool) (f : α → List β) (ls : List α) :
    (ls.filter p).flatMap f = ls.flatMap fun l => if p l then f l else [] := by
  induction ls with
  | nil => rfl
  | cons l ls ih => by_cases hl : p l = true <;> simp [hl, ih]

structure Directive.On {π : Type} (d : Directive π) (l : Line) : Prop where
  start : l.start ≤ d.start
  filled : d.start < d.stop
  stop : d.stop ≤ l.stop

namespace Annotator

variable {π : Type} (a : Annotator π) (g : Grammar) (v : Visibility)

def commentsOn (l : Line) : List (Directive π) := (g.docComment? l.start l.body).toList.flatMap (ofComment v)

def doctestsOn (l : Line) : List (Directive π) := (g.doctest? l).toList.flatMap a.ofDoctest

def quotesOn (l : Line) : List (Directive π) :=
  if (g.doctest? l).isSome then [] else (l.quotes 0).flatMap (a.ofQuote v)

def ofLines (more : Bool) (ls : List Line) : List (Directive π) :=
  ls.flatMap (commentsOn g v) ++ (g.blocksOf more ls).flatMap (ofBlock g v) ++
    ls.flatMap (a.doctestsOn g) ++ ls.flatMap (a.quotesOn g v)

variable {a g v}

theorem comments_eq (hg : g.WithinLine) (text : Text) (first last : Nat) :
    (g.docComments text first last).flatMap (ofComment v) =
      ((Text.lines (text.take last)).filter (first ≤ ·.start)).flatMap (commentsOn (π := π) g v) := by
  rw [Grammar.docComments, (Grammar.docComments_oneLine hg).searchLines_eq, List.filterMap_eq_flatMap_toList,
    List.flatMap_assoc]
  rfl

theorem doctestLines_eq (hg : g.WithinLine) (text : Text) (first last : Nat) :
    g.doctestLines text first last =
      ((Text.lines (text.take last)).filter (first ≤ ·.start)).filterMap g.doctest? :=
  (Grammar.doctestLines_oneLine hg).searchLines_eq text first last

theorem doctests_eq (hg : g.WithinLine) (text : Text) (first last : Nat) :
    (g.doctestLines text first last).flatMap a.ofDoctest =
      ((Text.lines (text.take last)).filter (first ≤ ·.start)).flatMap (a.doctestsOn g) := by
  rw [doctestLines_eq hg, List.filterMap_eq_flatMap_toList, List.flatMap_assoc]
  rfl

theorem doctest?_spans {n : Nat} {text : Text} {l : Line} (hl : l ∈ Text.linesFrom n text) {d : DoctestLine}
    (h : g.doctest? l = some d) : d.start = l.start ∧ d.stop = l.stop := by
  have hb := Text.newline_not_mem_body rfl hl
  exact ⟨(Grammar.doctestFrom?_parts hb h).1, Grammar.doctestFrom?_stop hb h⟩

theorem any_doctest_eq {n : Nat} {text : Text} {ls : List Line} (hls : ls ⊆ Text.linesFrom n text) {l : Line}
    (hl : l ∈ ls) {q : QuotedSpan} (hq : q ∈ l.quotes 0) :
    ((ls.filterMap g.doctest?).any fun d => d.start ≤ q.start && q.start < d.stop) = (g.doctest? l).isSome := by
  obtain ⟨hstart, hwidth, -, hstop⟩ := Line.quotes_parts hq
  have hlt : q.start < l.stop := by
    simp only [QuotedSpan.stop, QuotedSpan.contentStop, QuotedSpan.contentStart] at hstop
    omega
  rw [Bool.eq_iff_iff, List.any_eq_true]
  constructor
  · rintro ⟨d, hd, hc⟩
    obtain ⟨m, hm, hdm⟩ := List.mem_filterMap.mp hd
    obtain ⟨hds, hdt⟩ := doctest?_spans (hls hm) hdm
    simp only [Bool.and_eq_true, decide_eq_true_eq, hds, hdt] at hc
    rcases Text.apart_of_mem (hls hl) (hls hm) with rfl | hlm | hml
    · rw [hdm]
      rfl
    · omega
    · omega
  · intro hs
    obtain ⟨d, hd⟩ := Option.isSome_iff_exists.mp hs
    obtain ⟨hds, hdt⟩ := doctest?_spans (hls hl) hd
    refine ⟨d, List.mem_filterMap.mpr ⟨l, hl, hd⟩, ?_⟩
    simp only [Bool.and_eq_true, decide_eq_true_eq, hds, hdt]
    omega

theorem quotesOutside_line {n : Nat} {text : Text} {ls : List Line} (hls : ls ⊆ Text.linesFrom n text) {l : Line}
    (hl : l ∈ ls) :
    (quotesOutside (ls.filterMap g.doctest?) (l.quotes 0)).flatMap (a.ofQuote v) = a.quotesOn g v l := by
  have hany : ∀ q ∈ l.quotes 0, (!(ls.filterMap g.doctest?).any fun d => d.start ≤ q.start && q.start < d.stop) =
      !(g.doctest? l).isSome := by
    intro q hq
    rw [any_doctest_eq hls hl hq]
  rw [quotesOutside, List.filter_congr hany, quotesOn]
  cases (g.doctest? l).isSome <;> simp

theorem quotes_eq (hg : g.WithinLine) {text : Text} {first last : Nat}
    (hfirst : ∀ l ∈ Text.lines (text.take last), l.start < first → l.stop ≤ first) :
    (quotesOutside (g.doctestLines text first last) (text.quotes first last)).flatMap (a.ofQuote v) =
      ((Text.lines (text.take last)).filter (first ≤ ·.start)).flatMap (a.quotesOn g v) := by
  have hls : (Text.lines (text.take last)).filter (first ≤ ·.start) ⊆ Text.linesFrom 0 (text.take last) :=
    List.filter_subset_self _
  rw [doctestLines_eq hg, quotesOutside, Text.quotes, List.filter_flatMap, List.flatMap_assoc, flatMap_filter]
  apply List.flatMap_congr
  intro l hl
  by_cases hf : first ≤ l.start
  · rw [if_pos (decide_eq_true hf), Line.quotes_of_le_start hf]
    exact quotesOutside_line hls (List.mem_filter.mpr ⟨hl, decide_eq_true hf⟩)
  · rw [if_neg (by simpa using hf), Line.quotes_of_stop_le (hfirst l hl (Nat.lt_of_not_le hf))]
    rfl

theorem directives_eq (hg : g.WithinLine) {text : Text} {first last : Nat}
    (hfirst : ∀ l ∈ Text.lines (text.take last), l.start < first → l.stop ≤ first) :
    a.directives g v text first last =
      a.ofLines g v false ((Text.lines (text.take last)).filter (first ≤ ·.start)) := by
  rw [directives, ofLines, comments_eq hg, Grammar.titleBlocks_eq hg, doctests_eq hg, quotes_eq hg hfirst]

theorem directives_all (hg : g.WithinLine) (text : Text) :
    a.directives g v text 0 text.length = a.ofLines g v false text.lines := by
  rw [directives_eq hg (by simp), List.take_length, Text.lines_eq_linesFrom,
    Text.filter_start_of_le (Nat.le_refl 0)]

theorem markerSpan?_eq_some {start : Nat} {marker : Text} {p : Nat × Nat} (h : markerSpan? start marker = some p) :
    start ≤ p.1 ∧ p.1 < p.2 ∧ p.2 = start + marker.length := by
  rw [markerSpan?] at h
  split at h
  · obtain rfl := Option.some.inj h
    exact ⟨Nat.le_add_right _ _, by dsimp only; omega, rfl⟩
  · simp at h

theorem exists_entry_of_mem_embed {start : Nat} {code : Text} {d : Directive π} (h : d ∈ a.embed start code) :
    ∃ highlight, a.highlight = some highlight ∧ ∃ entry ∈ highlight code a.language,
      d = .plain (start + entry.1.toNat) (min (start + code.length) (start + entry.1.toNat + entry.2.1.toNat))
        (.embedded entry.2.2) ∧ d.start < d.stop := by
  rw [embed] at h
  cases hl : a.highlight with
  | none => simp [hl] at h
  | some highlight =>
    simp only [hl] at h
    split at h
    · simp at h
    · obtain ⟨entry, hentry, hd⟩ := List.mem_filterMap.mp h
      split at hd
      · rename_i hlt
        obtain rfl := Option.some.inj hd
        exact ⟨highlight, rfl, entry, hentry, rfl, hlt⟩
      · simp at hd

theorem mem_embed {start : Nat} {code : Text} {d : Directive π} (h : d ∈ a.embed start code) :
    ∃ first last payload, d = .plain first last (.embedded payload) ∧
      start ≤ first ∧ first < last ∧ last ≤ start + code.length := by
  obtain ⟨highlight, -, entry, -, rfl, hlt⟩ := exists_entry_of_mem_embed h
  exact ⟨_, _, entry.2.2, rfl, Nat.le_add_right _ _, hlt, Nat.min_le_left _ _⟩

theorem embed_inside {start : Nat} {code : Text} {d : Directive π} (h : d ∈ a.embed start code) :
    start ≤ d.start ∧ d.start < d.stop ∧ d.stop ≤ start + code.length := by
  obtain ⟨first, last, payload, rfl, hinside⟩ := mem_embed h
  exact hinside

theorem commentsOn_on {l : Line} (hl : '\n' ∉ l.body) {d : Directive π} (h : d ∈ commentsOn g v l) : d.On l := by
  obtain ⟨c, hc, hd⟩ := List.mem_flatMap.mp h
  obtain ⟨hstart, hne, hstop⟩ := Grammar.docComment?_parts hl (Option.mem_toList.mp hc)
  have hpos := List.length_pos_iff.mpr hne
  have hle : c.start + c.marker.length ≤ c.stop := Nat.le_add_right _ _
  rcases List.mem_cons.mp hd with rfl | hd
  · exact ⟨hstart.ge, by simp only [Directive.plain]; omega, hstop.le⟩
  · obtain ⟨p, hp, rfl⟩ := List.mem_map.mp hd
    obtain ⟨hfirst, hlt, hlast⟩ := markerSpan?_eq_some (Option.mem_toList.mp hp)
    exact ⟨by dsimp only; omega, hlt, by simp only [Line.stop]; omega⟩

theorem doctestsOn_on {l : Line} (hl : '\n' ∉ l.body) {d : Directive π} (h : d ∈ a.doctestsOn g l) : d.On l := by
  obtain ⟨c, hc, hd⟩ := List.mem_flatMap.mp h
  have hc := Option.mem_toList.mp hc
  have hstart := (Grammar.doctestFrom?_parts hl hc).1
  have hstop : c.stop = l.stop := Grammar.doctestFrom?_stop hl hc
  have hlead : c.start ≤ c.promptStart := Nat.le_add_right _ _
  have hprompt : c.promptStop = c.promptStart + 3 := rfl
  have hgap : c.promptStop ≤ c.payloadStart := Nat.le_add_right _ _
  have hpayload : c.stop = c.payloadStart + c.payload.length := rfl
  rcases List.mem_cons.mp hd with rfl | hd
  · exact ⟨by simp only [Directive.plain]; omega, by simp only [Directive.plain]; omega,
      by simp only [Directive.plain]; omega⟩
  · split at hd
    · simp at hd
    · rename_i hne
      have hpos := List.length_pos_iff.mpr hne
      rcases List.mem_cons.mp hd with rfl | hd
      · exact ⟨by simp only [Directive.plain]; omega, by simp only [Directive.plain]; omega, hstop.le⟩
      · obtain ⟨hfirst, hlt, hlast⟩ := embed_inside hd
        exact ⟨by omega, hlt, by omega⟩

theorem ofQuote_inside {q : QuotedSpan} {d : Directive π} (h : d ∈ a.ofQuote v q) :
    q.start ≤ d.start ∧ d.stop ≤ q.stop ∧ (0 < q.width → q.content ≠ [] → d.start < d.stop) := by
  have hopen : q.contentStart = q.start + q.width := rfl
  have hcontent : q.contentStop = q.contentStart + q.content.length := rfl
  have hclose : q.stop = q.contentStop + q.width := rfl
  have hpos : q.content ≠ [] → 0 < q.content.length := List.length_pos_iff.mpr
  rw [ofQuote, List.cons_append, List.mem_cons, List.mem_append, List.mem_singleton] at h
  rcases h with rfl | hd | rfl
  · exact ⟨Nat.le_refl _, by dsimp only; omega, fun hw _ => by dsimp only; omega⟩
  · have hplain : ∀ style : Style π, d = .plain q.contentStart q.contentStop style →
        q.start ≤ d.start ∧ d.stop ≤ q.stop ∧ (0 < q.width → q.content ≠ [] → d.start < d.stop) := by
      rintro style rfl
      refine ⟨by simp only [Directive.plain]; omega, by simp only [Directive.plain]; omega, fun _ hne => ?_⟩
      have := hpos hne
      simp only [Directive.plain]
      omega
    split at hd
    · rcases List.mem_cons.mp hd with hd | hd
      · exact hplain _ hd
      · obtain ⟨hfirst, hlt, hlast⟩ := embed_inside hd
        exact ⟨by omega, by omega, fun _ _ => hlt⟩
    · exact hplain _ (List.mem_singleton.mp hd)
  · exact ⟨by dsimp only; omega, Nat.le_refl _, fun hw _ => by dsimp only; omega⟩

theorem quotesOn_on {l : Line} {d : Directive π} (h : d ∈ a.quotesOn g v l) : d.On l := by
  rw [quotesOn] at h
  split at h
  · simp at h
  · obtain ⟨q, hq, hd⟩ := List.mem_flatMap.mp h
    obtain ⟨hstart, hwidth, hne, hstop⟩ := Line.quotes_parts hq
    obtain ⟨hfirst, hlast, hfilled⟩ := ofQuote_inside hd
    exact ⟨by omega, hfilled hwidth hne, by omega⟩

theorem ofBlock_on {b : TitleBlock} {l m : Line} {closed : Bool} (hb : b.Spans l m closed) {d : Directive π}
    (h : d ∈ ofBlock g v b) : d.On l ∨ d.On m := by
  have hstart := hb.start
  have hheading := hb.headingStop
  have hunder := hb.underlineStart
  have hstop := hb.underlineStop
  have htitle := hb.title
  have hrun := hb.run
  have hmarker : b.titleStart = b.start + b.heading.marker.length := rfl
  have hpad : b.titleStop ≤ b.headingStop := Nat.le_add_right _ _
  have hsign : b.runStart = b.underlineStart + b.underline.marker.length := rfl
  have hend : b.runStop ≤ b.underlineStop := Nat.le_add_right _ _
  simp only [ofBlock, List.map_append, List.mem_append, List.mem_map, Option.mem_toList, List.mem_cons,
    List.not_mem_nil, or_false] at h
  rcases h with (⟨p, hp, rfl⟩ | ⟨p, hp, rfl⟩) | rfl | rfl
  · obtain ⟨hfirst, hlt, hlast⟩ := markerSpan?_eq_some hp
    exact .inl ⟨by dsimp only; omega, hlt, by dsimp only; omega⟩
  · obtain ⟨hfirst, hlt, hlast⟩ := markerSpan?_eq_some hp
    exact .inr ⟨by dsimp only; omega, hlt, by dsimp only; omega⟩
  · exact .inl ⟨by dsimp only; omega, htitle, by dsimp only; omega⟩
  · exact .inr ⟨by dsimp only; omega, hrun, by dsimp only; omega⟩

end Annotator

end Literate
