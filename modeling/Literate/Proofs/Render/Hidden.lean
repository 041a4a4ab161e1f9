import Literate.Proofs.Directive.Marker
import Literate.Proofs.Render.TitleStyle

/-!
Hidden markup under the directives that come later. Markers and runs end in front of every prompt and backtick of their
line, and quotes do not overlap, so only a title can show what the marker of a doc comment hides: one whose first
character is the loud mark.
-/

namespace Literate

open Unicode

variable {π : Type}

namespace Directive

def Clears (d e : Directive π) : Prop := d.hidden = true → e.hidden = false → d.stop ≤ e.start ∨ e.stop ≤ d.start

def topAt? (i : Nat) (ds : List (Directive π)) : Option (Directive π) :=
  (ds.filter fun d => d.start ≤ i && i < d.stop).getLast?

theorem topAt?_hidden {ds : List (Directive π)} (h : ds.Pairwise Clears) {d : Directive π} (hd : d ∈ ds)
    (hh : d.hidden = true) {i : Nat} (hs : d.start ≤ i) (ht : i < d.stop) :
    ∃ e, topAt? i ds = some e ∧ e.hidden = true := by
  have hmem : d ∈ ds.filter fun d => d.start ≤ i && i < d.stop := by
    simp [hd, hs, ht]
  obtain ⟨front, e, he⟩ := List.eq_nil_or_concat _ |>.resolve_left (List.ne_nil_of_mem hmem)
  have hcover : ∀ f ∈ ds.filter (fun d => d.start ≤ i && i < d.stop), f.start ≤ i ∧ i < f.stop := by
    intro f hf
    simpa using (List.mem_filter.mp hf).2
  refine ⟨e, by rw [topAt?, he, List.concat_eq_append, List.getLast?_concat], ?_⟩
  have hp := h.filter fun d => d.start ≤ i && i < d.stop
  have hde := hcover d hmem
  have hee := hcover e (by rw [he]; simp)
  rw [he, List.concat_eq_append] at hmem hp
  rcases List.mem_append.mp hmem with hfront | hlast
  · have hclears := (List.pairwise_append.mp hp).2.2 d hfront e (List.mem_singleton_self e)
    by_contra hshown
    have := hclears hh (by simpa using hshown)
    omega
  · rw [← List.mem_singleton.mp hlast]
    exact hh

def Leads (d : Directive π) (l : Line) : Prop :=
  ∃ front rest, l.body = front ++ rest ∧ d.stop ≤ l.start + front.length ∧ ∀ c ∈ front, [c] ∉ Grammar.reserved

def Follows (d : Directive π) (l : Line) : Prop :=
  ∃ i c, l.body[i]? = some c ∧ [c] ∈ Grammar.reserved ∧ l.start + i ≤ d.start

variable {d e : Directive π} {l m : Line}

theorem Leads.clears (hd : d.Leads l) (he : e.Follows l) : d.Clears e := by
  obtain ⟨front, rest, hbody, hstop, hfront⟩ := hd
  obtain ⟨i, c, hc, hr, hstart⟩ := he
  intro _ _
  have hlen : front.length ≤ i := by
    by_contra hlt
    rw [hbody, List.getElem?_append_left (Nat.lt_of_not_le hlt)] at hc
    exact hfront c (List.mem_of_getElem? hc) hr
  exact .inl (by omega)

theorem On.clears (hd : d.On l) (he : e.On m) (h : l.stop < m.start ∨ m.stop < l.start) : d.Clears e := by
  intro _ _
  have hdstart := hd.start
  have hdstop := hd.stop
  have hestart := he.start
  have hestop := he.stop
  omega

theorem clears_of_shown (h : d.hidden = false) : d.Clears e := fun hd => by simp [h] at hd

theorem clears_of_hidden_eq (h : d.hidden = e.hidden) : d.Clears e := fun hd he => by simp [h, he] at hd

end Directive

open Directive

section Lines

variable {text : Text} {f : Line → List (Directive π)} {l m : Line} {d e : Directive π}

theorem clears_of_leads (hl : l ∈ text.lines) (hd : d.On l ∧ d.Leads l) (hm : m ∈ text.lines)
    (he : e.On m ∧ e.Follows m) : d.Clears e := by
  rcases Text.apart_of_mem hl hm with rfl | hapart
  · exact hd.2.clears he.2
  · exact hd.1.clears he.1 hapart

theorem pairwise_lines (hon : ∀ l ∈ text.lines, ∀ d ∈ f l, d.On l) (hself : ∀ l ∈ text.lines, (f l).Pairwise Clears) :
    (text.lines.flatMap f).Pairwise Clears := by
  refine List.pairwise_flatMap.mpr ⟨hself, ?_⟩
  refine (Text.linesFrom_pairwise 0 text).imp_of_mem fun {l m} hl hm hlm d hd e he => ?_
  exact (hon l hl d hd).clears (hon m hm e he) (.inl hlm)

end Lines

namespace Annotator

variable {a : Annotator π} {g : Grammar} {v : Visibility} {styles : List Char} {l m : Line} {d e : Directive π}

theorem embed_shown {start : Nat} {code : Text} (h : d ∈ a.embed start code) : d.hidden = false := by
  obtain ⟨first, last, payload, rfl, -⟩ := mem_embed h
  rfl

theorem doctestsOn_shown (h : d ∈ a.doctestsOn g l) : d.hidden = false := by
  obtain ⟨c, -, hd⟩ := List.mem_flatMap.mp h
  rcases List.mem_cons.mp hd with rfl | hd
  · rfl
  · split at hd
    · simp at hd
    · rcases List.mem_cons.mp hd with rfl | hd
      · rfl
      · exact embed_shown hd

theorem doctestsOn_follows (hl : '\n' ∉ l.body) (h : d ∈ a.doctestsOn g l) : d.Follows l := by
  obtain ⟨c, hc, hd⟩ := List.mem_flatMap.mp h
  obtain ⟨hstart, hbody⟩ := Grammar.doctestFrom?_parts hl (Option.mem_toList.mp hc)
  have hprompt : c.promptStart = l.start + c.lead.length := by rw [← hstart]; rfl
  have hstop : c.promptStop = c.promptStart + 3 := rfl
  have hgap : c.promptStop ≤ c.payloadStart := Nat.le_add_right _ _
  have hbehind : c.promptStart ≤ d.start := by
    rcases List.mem_cons.mp hd with rfl | hd
    · exact Nat.le_refl _
    · split at hd
      · simp at hd
      · rcases List.mem_cons.mp hd with rfl | hd
        · simp only [Directive.plain]
          omega
        · have := (embed_inside hd).1
          omega
  obtain ⟨p, hp, hr⟩ : ∃ p, c.prompt.text.head? = some p ∧ [p] ∈ Grammar.reserved := by
    cases c.prompt with
    | primary => exact ⟨'>', rfl, by decide⟩
    | continuation => exact ⟨'.', rfl, by decide⟩
  refine ⟨c.lead.length, p, ?_, hr, by omega⟩
  rw [← hbody, DoctestLine.body, List.getElem?_append_right (Nat.le_refl _), Nat.sub_self, ← List.head?_eq_getElem?,
    List.head?_append, hp]
  rfl

theorem quotesOn_follows (h : d ∈ a.quotesOn g v l) : d.Follows l := by
  rw [quotesOn] at h
  split at h
  · simp at h
  · obtain ⟨q, hq, hd⟩ := List.mem_flatMap.mp h
    obtain ⟨i, hi, hc⟩ := Line.getElem?_quote hq
    exact ⟨i, _, hc, by decide, hi ▸ (ofQuote_inside hd).1⟩

theorem ofQuote_pairwise (q : QuotedSpan) : (a.ofQuote v q).Pairwise Clears := by
  have hcontent : ∀ d ∈ (if q.width = 2 then
      .plain q.contentStart q.contentStop .quoteDouble :: a.embed q.contentStart q.content
      else [.plain q.contentStart q.contentStop .quoteSingle]), d.hidden = false ∧ q.contentStart ≤ d.start := by
    intro d hd
    split at hd
    · rcases List.mem_cons.mp hd with rfl | hd
      · exact ⟨rfl, Nat.le_refl _⟩
      · exact ⟨embed_shown hd, (embed_inside hd).1⟩
    · obtain rfl := List.mem_singleton.mp hd
      exact ⟨rfl, Nat.le_refl _⟩
  rw [ofQuote, List.cons_append, List.pairwise_cons, List.pairwise_append]
  refine ⟨fun d hd => ?_, ?_, List.pairwise_singleton _ _, fun d hd e _ => clears_of_shown (hcontent d hd).1⟩
  · rcases List.mem_append.mp hd with hd | hd
    · exact fun _ _ => .inl (hcontent d hd).2
    · obtain rfl := List.mem_singleton.mp hd
      exact clears_of_hidden_eq rfl
  · exact List.pairwise_of_forall_mem_list fun d hd e _ => clears_of_shown (hcontent d hd).1

theorem quotesOn_pairwise (l : Line) : (a.quotesOn g v l).Pairwise Clears := by
  rw [quotesOn]
  split
  · exact List.Pairwise.nil
  · refine List.pairwise_flatMap.mpr ⟨fun q _ => ofQuote_pairwise q, ?_⟩
    refine (l.quotes_pairwise 0).imp fun {q r} hqr d hd e he _ _ => ?_
    obtain ⟨hds, hdt, -⟩ := ofQuote_inside hd
    obtain ⟨hes, het, -⟩ := ofQuote_inside he
    rw [QuotedSpan.overlaps, ← Bool.not_eq_true, Bool.and_eq_true, decide_eq_true_eq, decide_eq_true_eq] at hqr
    omega

theorem commentsOn_pairwise (l : Line) : (commentsOn (π := π) g v l).Pairwise Clears := by
  rw [commentsOn]
  cases g.docComment? l.start l.body with
  | none => exact List.Pairwise.nil
  | some c =>
    rw [Option.toList_some, List.flatMap_singleton, ofComment, List.pairwise_cons]
    refine ⟨fun e _ => clears_of_shown rfl, ?_⟩
    cases markerSpan? c.start c.marker with
    | none => exact List.Pairwise.nil
    | some p => exact List.pairwise_singleton _ _

theorem commentsOn_leads (h : d ∈ commentsOn (Grammar.ofStyles styles) v l) (hh : d.hidden = true) :
    ∃ p, (Grammar.ofStyles styles).docMarker? l.body = some p ∧ d.stop = l.start + p.1 ∧ v.hideTitles = true ∧
      d.Leads l := by
  obtain ⟨c, hc, hd⟩ := List.mem_flatMap.mp h
  obtain ⟨p, hp, rfl⟩ := Option.map_eq_some_iff.mp (Option.mem_toList.mp hc)
  obtain ⟨hof, -⟩ := Grammar.isOf_of_docMarker? hp
  obtain ⟨front, hbody, hfront⟩ := hof
  have hmarker : l.body.take p.1 = front := by rw [hbody, ← hfront, List.take_left]
  rcases List.mem_cons.mp hd with rfl | hd
  · simp [Directive.plain] at hh
  · obtain ⟨q, hq, rfl⟩ := List.mem_map.mp hd
    have hstop := (markerSpan?_eq_some (Option.mem_toList.mp hq)).2.2
    rw [hmarker, hfront] at hstop
    have hhide : v.hideTitles = true := (Bool.and_eq_true_iff.mp hh).1
    refine ⟨p, hp, hstop, hhide, front, p.2, hbody, by dsimp only at hstop ⊢; omega, fun c hc => ?_⟩
    obtain ⟨indent, loud, gap, hshape, hlen, hi, hloud, hg, -, -⟩ := Grammar.docMarker?_shape hp
    obtain ⟨rfl, -⟩ := List.append_inj (hbody.symm.trans hshape) (by rw [hfront, hlen])
    exact Grammar.IsMark.not_reserved (.inr ⟨indent, 1, loud, gap, rfl, hi, hloud, hg⟩) hc

theorem mem_ofBlock {b : TitleBlock} (h : d ∈ ofBlock g v b) :
    (d.hidden = v.hidesTitle b.span ∧ (d.stop = b.titleStart ∨ (b.underlineStart ≤ d.start ∧ d.stop ≤ b.runStop))) ∨
      (d.hidden = false ∧ d.start = b.titleStart ∧ d.stop = b.titleStop) := by
  have hrun : b.runStop = b.runStart + b.underline.length := rfl
  have hsign : b.runStart = b.underlineStart + b.underline.marker.length := rfl
  simp only [ofBlock, List.map_append, List.mem_append, List.mem_map, Option.mem_toList, List.mem_cons,
    List.not_mem_nil, or_false] at h
  rcases h with (⟨p, hp, rfl⟩ | ⟨p, hp, rfl⟩) | rfl | rfl
  · exact .inl ⟨rfl, .inl (markerSpan?_eq_some hp).2.2⟩
  · obtain ⟨hfirst, -, hlast⟩ := markerSpan?_eq_some hp
    exact .inl ⟨rfl, .inr ⟨hfirst, by dsimp only; omega⟩⟩
  · exact .inr ⟨rfl, rfl, rfl⟩
  · exact .inl ⟨rfl, .inr ⟨by dsimp only; omega, Nat.le_refl _⟩⟩

theorem ofBlock_leads (h : Grammar.Accepted styles) {text : Text} {above : List Line} {l m : Line} {below : List Line}
    {b : TitleBlock} (hlines : text.lines = above ++ l :: m :: below)
    (hb : (Grammar.ofStyles styles).blockOn false l (m :: below) = some b)
    (hd : d ∈ ofBlock (Grammar.ofStyles styles) v b) (hh : d.hidden = true) :
    (d.On l ∧ d.Leads l) ∨ (d.On m ∧ d.Leads m) := by
  have hl : '\n' ∉ l.body := Text.newline_not_mem_body (n := 0) hlines (by simp)
  have hm : '\n' ∉ m.body := Text.newline_not_mem_body (n := 0) hlines (by simp)
  have hsp := Grammar.blockOn_spans hlines hb
  have hon := ofBlock_on hsp hd
  have hnext := hsp.next
  have hunder := hsp.underlineStart
  obtain ⟨t, u, ht, hu, rfl⟩ := Grammar.pair?_eq_some hb
  rcases mem_ofBlock hd with ⟨-, hstop | ⟨hstart, hstop⟩⟩ | ⟨hshown, -⟩
  · have hbody := (Grammar.titleLine?_parts hl ht).1
    have hend : d.stop = l.start + t.marker.length := hstop
    have hlen := congrArg List.length hbody
    simp only [TitleLine.body, List.length_append] at hlen
    refine .inl ⟨hon.resolve_right fun hm => ?_, t.marker, t.title ++ t.pad, ?_, hend.le, fun c hc => ?_⟩
    · have hfrom := hm.start
      have hfilled := hm.filled
      simp only [Line.stop] at hnext
      omega
    · rw [← hbody, TitleLine.body, List.append_assoc]
    · exact (Grammar.titleLine?_marked ht).not_reserved hc
  · obtain ⟨hbody, -, hchar⟩ := Grammar.underline?_parts hm hu
    refine .inr ⟨hon.resolve_left fun hl => ?_, u.1.marker ++ u.1.run, u.1.pad, hbody.symm, ?_, fun c hc => ?_⟩
    · have hfilled := hl.filled
      have hto := hl.stop
      omega
    · rw [List.length_append, Underline.run, List.length_replicate, ← hunder, ← Nat.add_assoc]
      exact hstop
    · rcases List.mem_append.mp hc with hc | hc
      · exact (Grammar.underline?_marked h hm hu).1.not_reserved hc
      · obtain ⟨-, rfl⟩ := List.mem_replicate.mp hc
        exact (h.style hchar).2.2.2
  · simp [hshown] at hh

theorem ofBlock_pairwise (b : TitleBlock) : (ofBlock (π := π) g v b).Pairwise Clears := by
  have hpad : b.titleStop ≤ b.headingStop := Nat.le_add_right _ _
  have hunder : b.underlineStart = b.headingStop + 1 := rfl
  have htitle : b.titleStop = b.titleStart + b.heading.title.length := rfl
  refine List.pairwise_of_forall_mem_list fun d hd e he => ?_
  rcases mem_ofBlock hd with ⟨hhide, hplace⟩ | ⟨hshown, -⟩
  · rcases mem_ofBlock he with ⟨hsame, -⟩ | ⟨-, hstart, hstop⟩
    · exact clears_of_hidden_eq (hhide.trans hsame.symm)
    · intro _ _
      omega
  · exact clears_of_shown hshown

theorem blocksOf_pairwise {more : Bool} {n : Nat} {text : Text} {above ls : List Line}
    (h : Text.linesFrom n text = above ++ ls) :
    (g.blocksOf more ls).Pairwise fun b c => b.underlineStop < c.start := by
  fun_induction Grammar.blocksOf g more ls generalizing above with
  | case1 => exact List.Pairwise.nil
  | case2 => exact List.Pairwise.nil
  | case3 l m below b hb ih =>
    refine List.pairwise_cons.mpr ⟨fun c hc => ?_, ih (by rw [h]; exact (List.append_assoc above [l, m] below).symm)⟩
    obtain ⟨front, k, o, rest, rfl, hk⟩ := Grammar.exists_of_mem_blocksOf hc
    have hsplit : Text.linesFrom n text = (above ++ l :: m :: front) ++ k :: o :: rest := by rw [h]; simp
    rw [(Grammar.blockOn_spans h hb).underlineStop, (Grammar.blockOn_spans hsplit hk).start]
    have hp := Text.linesFrom_pairwise n text
    rw [hsplit, List.pairwise_append] at hp
    exact hp.2.2 m (by simp) k (by simp)
  | case4 l m below hb ih => exact ih (by rw [h]; exact (List.append_assoc above [l] (m :: below)).symm)

theorem blocks_pairwise (text : Text) : ((g.blocksOf false text.lines).flatMap (ofBlock (π := π) g v)).Pairwise Clears := by
  refine List.pairwise_flatMap.mpr ⟨fun b _ => ofBlock_pairwise b, ?_⟩
  refine (blocksOf_pairwise (show Text.linesFrom 0 text = [] ++ text.lines from rfl)).imp_of_mem fun {b c} hb hc hbc d hd e he _ _ => ?_
  obtain ⟨above, l, m, below, hl, hlb⟩ := Grammar.exists_of_mem_blocksOf hb
  obtain ⟨front, k, o, rest, hk, hkc⟩ := Grammar.exists_of_mem_blocksOf hc
  have hspan := Grammar.blockOn_spans hl hlb
  have hspan' := Grammar.blockOn_spans hk hkc
  have hstop := hspan.underlineStop
  have hstart := hspan'.start
  have hnext := hspan.next
  have hnext' := hspan'.next
  have hline := m.start_le_stop
  have hline' := k.start_le_stop
  left
  rcases ofBlock_on hspan hd with hon | hon <;> rcases ofBlock_on hspan' he with hon' | hon' <;>
    have := hon.stop <;> have := hon'.start <;> omega

section Comments

variable {text : Text} {above : List Line} {k o : Line} {below : List Line} {b : TitleBlock}

theorem comment_clears_block (hv : v.revealed = none) (hl : l ∈ text.lines)
    (hlines : text.lines = above ++ k :: o :: below)
    (hb : (Grammar.ofStyles styles).blockOn false k (o :: below) = some b) (hloud : ¬b.heading.TakesLoudMark)
    (hd : d ∈ commentsOn (Grammar.ofStyles styles) v l) (he : e ∈ ofBlock (Grammar.ofStyles styles) v b) :
    d.Clears e := by
  intro hh hs
  obtain ⟨p, hp, hstop, hhide, -⟩ := commentsOn_leads hd hh
  have hbody : '\n' ∉ l.body := Text.newline_not_mem_body (n := 0) rfl hl
  have hspan := Grammar.blockOn_spans hlines hb
  have hk : k ∈ text.lines := by rw [hlines]; simp
  rcases mem_ofBlock he with ⟨hshow, -⟩ | ⟨-, hstart, hend⟩
  · rw [hidesTitle_of_none hv, hhide] at hshow
    exact absurd (hs.symm.trans hshow) (by decide)
  · have hon : e.On k := by
      have htitle := hspan.title
      have hheading := hspan.headingStop
      have hbs := hspan.start
      have hfrom : b.start ≤ b.titleStart := Nat.le_add_right _ _
      have hto : b.titleStop ≤ b.headingStop := Nat.le_add_right _ _
      exact ⟨by omega, by omega, by omega⟩
    rcases Text.apart_of_mem hl hk with rfl | hapart
    · obtain ⟨t, u, ht, -, rfl⟩ := Grammar.pair?_eq_some hb
      have hlen := (Grammar.titleMarker_of_docMarker hbody hp ht).resolve_right hloud
      have hes : e.start = l.start + t.marker.length := hstart
      exact .inl (by omega)
    · exact (commentsOn_on hbody hd).clears hon hapart hh hs

theorem exists_not_clears (hv : v.revealed = none) (hhide : v.hideTitles = true)
    (hlines : text.lines = above ++ k :: o :: below)
    (hb : (Grammar.ofStyles styles).blockOn false k (o :: below) = some b) (hloud : b.heading.TakesLoudMark) :
    ∃ d ∈ commentsOn (Grammar.ofStyles styles) v k, ∃ e ∈ ofBlock (π := π) (Grammar.ofStyles styles) v b,
      ¬d.Clears e := by
  have hbody : '\n' ∉ k.body := Text.newline_not_mem_body (n := 0) hlines (by simp)
  have hspan := Grammar.blockOn_spans hlines hb
  have htitle := hspan.title
  obtain ⟨t, u, ht, -, rfl⟩ := Grammar.pair?_eq_some hb
  obtain ⟨indent, c, rest, hmarker, hi, htext, hc⟩ := hloud
  have hline : k.body = indent ++ ['#', '#'] ++ '!' :: c :: rest := by
    rw [← (Grammar.titleLine?_parts hbody ht).1, TitleLine.body, List.append_assoc]
    exact congrArg₂ _ hmarker htext
  obtain ⟨p, hp, hlong⟩ := Grammar.docMarker?_of_loud styles rest hi hc
  rw [← hline] at hp
  obtain ⟨front, hfront, hlen⟩ := (Grammar.isOf_of_docMarker? hp).1
  have htake : k.body.take p.1 = front := by rw [hfront, ← hlen, List.take_left]
  obtain ⟨n, hn⟩ : ∃ n, p.1 = indent.length + (n + 1) := ⟨p.1 - indent.length - 1, by omega⟩
  have hblanks : front.takeWhile isBlank = indent := by
    rw [← htake, hline, hn, List.append_assoc, List.take_length_add_append, List.cons_append, List.take_succ_cons,
      List.takeWhile_append_of_pos (List.all_eq_true.mp hi), List.takeWhile_cons_of_neg (by decide), List.append_nil]
  have hspan? : markerSpan? k.start front = some (k.start + indent.length, k.start + front.length) := by
    rw [markerSpan?, hblanks]
    exact if_pos (by omega)
  refine ⟨⟨k.start + indent.length, k.start + front.length, .markup, true, false⟩, ?_,
    ⟨_, _, _, false, v.hidesTitle _⟩, List.mem_append_right _ List.mem_cons_self, fun hclears => ?_⟩
  · refine List.mem_flatMap.mpr ⟨⟨k.start, front, Text.firstLine p.2⟩, ?_, List.mem_cons_of_mem _ ?_⟩
    · rw [Option.mem_toList, Grammar.docComment?, hp, Option.map_some, htake]
    · refine List.mem_map.mpr ⟨_, Option.mem_toList.mpr hspan?, ?_⟩
      dsimp only
      rw [hidesTitle_of_none hv, hhide]
  · have hstart : (TitleBlock.mk k.start t u.1 (false || !below.isEmpty)).titleStart = k.start + t.marker.length := rfl
    have hmlen := congrArg List.length hmarker
    simp only [List.length_append, List.length_cons, List.length_nil] at hmlen
    have := hclears rfl rfl
    dsimp only at this
    omega

end Comments

section Families

variable {text : Text}

def markup (g : Grammar) (v : Visibility) (text : Text) : List (Directive π) :=
  text.lines.flatMap (commentsOn g v) ++ (g.blocksOf false text.lines).flatMap (ofBlock g v)

theorem markup_pairwise_iff (hv : v.revealed = none)
    (hhide : v.hideTitles = true) (text : Text) : (markup (π := π) (Grammar.ofStyles styles) v text).Pairwise Clears ↔
      ¬∃ b ∈ (Grammar.ofStyles styles).blocksOf false text.lines, b.heading.TakesLoudMark := by
  have hbody : ∀ l ∈ text.lines, '\n' ∉ l.body := fun l hl => Text.newline_not_mem_body (n := 0) rfl hl
  rw [markup, List.pairwise_append]
  constructor
  · rintro ⟨-, -, hclears⟩ ⟨b, hb, hloud⟩
    obtain ⟨above, k, o, below, hlines, hk⟩ := Grammar.exists_of_mem_blocksOf hb
    obtain ⟨d, hd, e, he, hnot⟩ := exists_not_clears (π := π) hv hhide hlines hk hloud
    have hmem : k ∈ text.lines := by rw [hlines]; simp
    exact hnot (hclears d (List.mem_flatMap.mpr ⟨k, hmem, hd⟩) e (List.mem_flatMap.mpr ⟨b, hb, he⟩))
  · intro hquiet
    refine ⟨pairwise_lines (fun l hl d hd => commentsOn_on (hbody l hl) hd) fun l _ => commentsOn_pairwise l,
      blocks_pairwise text, fun d hd e he => ?_⟩
    obtain ⟨l, hl, hd⟩ := List.mem_flatMap.mp hd
    obtain ⟨b, hb, he⟩ := List.mem_flatMap.mp he
    obtain ⟨above, k, o, below, hlines, hk⟩ := Grammar.exists_of_mem_blocksOf hb
    exact comment_clears_block hv hl hlines hk (fun hloud => hquiet ⟨b, hb, hloud⟩) hd he

theorem markup_leads (h : Grammar.Accepted styles) (hd : d ∈ markup (Grammar.ofStyles styles) v text)
    (hh : d.hidden = true) : ∃ l ∈ text.lines, d.On l ∧ d.Leads l := by
  rcases List.mem_append.mp hd with hd | hd
  · obtain ⟨l, hl, hd⟩ := List.mem_flatMap.mp hd
    obtain ⟨p, -, -, -, hlead⟩ := commentsOn_leads hd hh
    exact ⟨l, hl, commentsOn_on (Text.newline_not_mem_body (n := 0) rfl hl) hd, hlead⟩
  · obtain ⟨b, hb, hd⟩ := List.mem_flatMap.mp hd
    obtain ⟨above, k, o, below, hlines, hk⟩ := Grammar.exists_of_mem_blocksOf hb
    rcases ofBlock_leads h hlines hk hd hh with hon | hon
    · exact ⟨k, by rw [hlines]; simp, hon⟩
    · exact ⟨o, by rw [hlines]; simp, hon⟩

theorem code_follows (he : e ∈ text.lines.flatMap (a.doctestsOn g) ∨ e ∈ text.lines.flatMap (a.quotesOn g v)) :
    ∃ l ∈ text.lines, e.On l ∧ e.Follows l := by
  rcases he with he | he
  · obtain ⟨l, hl, he⟩ := List.mem_flatMap.mp he
    have hbody : '\n' ∉ l.body := Text.newline_not_mem_body (n := 0) rfl hl
    exact ⟨l, hl, doctestsOn_on hbody he, doctestsOn_follows hbody he⟩
  · obtain ⟨l, hl, he⟩ := List.mem_flatMap.mp he
    exact ⟨l, hl, quotesOn_on he, quotesOn_follows he⟩

theorem ofLines_pairwise_iff (h : Grammar.Accepted styles) (a : Annotator π) (v : Visibility) (text : Text) :
    (a.ofLines (Grammar.ofStyles styles) v false text.lines).Pairwise Clears ↔
      (markup (π := π) (Grammar.ofStyles styles) v text).Pairwise Clears := by
  have hcode : ∀ d ∈ markup (Grammar.ofStyles styles) v text, ∀ e,
      e ∈ text.lines.flatMap (a.doctestsOn (Grammar.ofStyles styles)) ∨
        e ∈ text.lines.flatMap (a.quotesOn (Grammar.ofStyles styles) v) → d.Clears e := by
    intro d hd e he hh hs
    obtain ⟨l, hl, hlead⟩ := markup_leads h hd hh
    obtain ⟨m, hm, hfollow⟩ := code_follows he
    exact clears_of_leads hl hlead hm hfollow hh hs
  have hshown : ∀ d ∈ text.lines.flatMap (a.doctestsOn (Grammar.ofStyles styles)), d.hidden = false := by
    intro d hd
    obtain ⟨l, -, hd⟩ := List.mem_flatMap.mp hd
    exact doctestsOn_shown hd
  have hquotes : (text.lines.flatMap (a.quotesOn (Grammar.ofStyles styles) v)).Pairwise Clears :=
    pairwise_lines (fun l _ d hd => quotesOn_on hd) fun l _ => quotesOn_pairwise l
  rw [ofLines, ← markup, List.pairwise_append, List.pairwise_append]
  constructor
  · rintro ⟨⟨hmarkup, -⟩, -⟩
    exact hmarkup
  · intro hmarkup
    refine ⟨⟨hmarkup, List.pairwise_of_forall_mem_list fun d hd e _ => clears_of_shown (hshown d hd),
      fun d hd e he => hcode d hd e (.inl he)⟩, hquotes, fun d hd e he => ?_⟩
    rcases List.mem_append.mp hd with hd | hd
    · exact hcode d hd e (.inr he)
    · exact clears_of_shown (hshown d hd)

end Families

variable {s : Settings}

/-- What is hidden stays hidden if and only if no title takes the loud mark of a doc comment for its first character. -/
theorem annotate_pairwise_clears_iff (h : Grammar.Accepted s.titleStyles) (hhide : s.hideTitleMarkup = true)
    (a : Annotator π) (text : Text) :
    let ds := a.annotate s none text 0 none
    let bs := s.grammar.titleBlocks text 0 text.length
    (ds.Pairwise Clears ↔ ¬∃ b ∈ bs, b.heading.TakesLoudMark) ∧
      ((¬∃ b ∈ bs, b.heading.TakesLoudMark) → ∀ d ∈ ds, d.hidden = true → ∀ i, d.start ≤ i → i < d.stop →
        ∃ e, topAt? i ds = some e ∧ e.hidden = true) := by
  intro ds bs
  have hbs : bs = s.grammar.blocksOf false text.lines := Grammar.titleBlocks_all h.withinLine text
  have hds : ds = a.ofLines s.grammar (.ofSettings s none) false text.lines := by
    have hzero : text.clamp 0 = 0 := Nat.zero_min _
    have hfull : ds = a.directives s.grammar (.ofSettings s none) text (text.clamp 0) text.length := rfl
    rw [hzero] at hfull
    exact hfull.trans (directives_all h.withinLine text)
  have hiff : ds.Pairwise Clears ↔ ¬∃ b ∈ bs, b.heading.TakesLoudMark := by
    rw [hds, hbs]
    exact (ofLines_pairwise_iff h a _ text).trans (markup_pairwise_iff rfl hhide text)
  exact ⟨hiff, fun hquiet d hd hh i hs ht => topAt?_hidden (hiff.mpr hquiet) hd hh hs ht⟩

theorem annotate_shows_loud_mark : Grammar.Accepted ({ hideTitleMarkup := true } : Settings).titleStyles ∧
    ¬((Annotator.mk none [] : Annotator Unit).annotate { hideTitleMarkup := true, hideQuotes := true } none
      "##! =\n-".toList 0 none).Pairwise Clears := by
  have h : Grammar.Accepted ({ hideTitleMarkup := true } : Settings).titleStyles := by decide
  refine ⟨h, fun hclears => ?_⟩
  have hiff := (annotate_pairwise_clears_iff (s := { hideTitleMarkup := true, hideQuotes := true }) h rfl
    (Annotator.mk none [] : Annotator Unit) "##! =\n-".toList).1
  refine hiff.mp hclears ⟨⟨0, ⟨['#', '#'], ['!', ' ', '='], []⟩, ⟨[], '-', 1, []⟩, false⟩, by decide +kernel, ?_⟩
  exact ⟨[], ' ', ['='], rfl, rfl, rfl, by decide⟩

end Annotator

end Literate
