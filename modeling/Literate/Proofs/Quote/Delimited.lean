import Literate.Proofs.Quote

namespace Literate

namespace QuotedSpan

variable {q r : QuotedSpan} {n first last : Nat} {text body rest : Text}

/-- A quote that stands well delimited in a range. The text is cut at the end of the range, but seen in front of it. -/
structure Delimited (q : QuotedSpan) (text : Text) (first last : Nat) : Prop where
  width : q.width = 1 ∨ q.width = 2
  quotable : q.Quotable
  line : '\n' ∉ q.content
  setOff : q.SetOff 0 (text.take last)
  starts : first ≤ q.start

theorem newline_not_mem_written (h : '\n' ∉ q.content) : '\n' ∉ q.written := by
  simp only [written, backticks, List.mem_append, List.mem_replicate, not_or]
  exact ⟨⟨by simp, h⟩, by simp⟩

theorem written_ne_nil (h : q.Quotable) : q.written ≠ [] := by
  simp [written, h.filled]

theorem setOff_line (hb : '\n' ∉ body) (hw : '\n' ∉ q.written) (hne : q.written ≠ []) :
    q.SetOff n (body ++ '\n' :: rest) ↔ q.SetOff n body ∨ q.SetOff (n + body.length + 1) rest := by
  constructor
  · rintro ⟨front, tail, he, hs, hf, ht⟩
    rcases List.append_eq_append_iff.mp he with ⟨extra, rfl, hextra⟩ | ⟨part, rfl, hpart⟩
    · cases extra with
      | nil =>
        obtain ⟨c, written, hcons⟩ := List.exists_cons_of_ne_nil hne
        rw [hcons, List.nil_append, List.cons_append] at hextra
        exact absurd (hcons ▸ (List.cons.inj hextra).1 ▸ List.mem_cons_self) hw
      | cons c extra =>
        obtain ⟨rfl, rfl⟩ := List.cons.inj hextra
        refine .inr ⟨extra, tail, rfl, ?_, fun hl => hf ?_, ht⟩
        · rw [hs, List.length_append, List.length_cons]
          omega
        · rw [List.getLast?_append, List.getLast?_cons, hl]
          rfl
    · rcases List.append_eq_append_iff.mp hpart with ⟨extra, rfl, hextra⟩ | ⟨extra, hextra, hcut⟩
      · refine .inl ⟨front, extra, rfl, hs, hf, fun hh => ht ?_⟩
        rw [hextra, List.head?_append, hh]
        rfl
      · cases extra with
        | nil => exact .inl ⟨front, [], by rw [hextra, List.append_nil, List.append_nil], hs, hf, by simp⟩
        | cons c extra =>
          obtain ⟨rfl, -⟩ := List.cons.inj hcut
          exact absurd (hextra ▸ List.mem_append_right part List.mem_cons_self) hw
  · rintro (⟨front, tail, rfl, hs, hf, ht⟩ | ⟨front, tail, rfl, hs, hf, ht⟩)
    · refine ⟨front, tail ++ '\n' :: rest, by simp only [List.append_assoc], hs, hf, ?_⟩
      cases tail with
      | nil => simp
      | cons c tail => exact ht
    · refine ⟨body ++ '\n' :: front, tail, by simp only [List.append_assoc, List.cons_append], ?_, ?_, ht⟩
      · rw [hs, List.length_append, List.length_cons]
        omega
      · rw [List.getLast?_append, List.getLast?_cons]
        cases hlast : front.getLast? with
        | none => simp
        | some c => exact fun he => hf (hlast.trans he)

theorem setOff_iff_exists_line (hq : q.Quotable) (hl : '\n' ∉ q.content) :
    q.SetOff n text ↔ ∃ l ∈ Text.linesFrom n text, q.SetOff l.start l.body := by
  induction text using Text.byLine generalizing n with
  | last body hb => simp only [Text.linesFrom_last hb, List.mem_singleton, exists_eq_left]
  | line body rest hb ih =>
    rw [setOff_line hb (newline_not_mem_written hl) (written_ne_nil hq), ih, Text.linesFrom_line hb]
    simp only [List.mem_cons, exists_eq_or_imp]

theorem SetOff.newline_not_mem (h : q.SetOff n body) (hb : '\n' ∉ body) : '\n' ∉ q.content := by
  obtain ⟨front, rest, rfl, -⟩ := h
  simp only [written, List.mem_append, not_or] at hb
  exact hb.2.1.1.2

structure Ticks (q : QuotedSpan) (text : Text) : Prop where
  before : ∀ i, i + 1 = q.start → text[i]? ≠ some '\x60'
  opening : ∀ i, q.start ≤ i → i < q.contentStart → text[i]? = some '\x60'
  inside : ∀ i, q.contentStart ≤ i → i < q.contentStop → text[i]? ≠ some '\x60'
  closing : ∀ i, q.contentStop ≤ i → i < q.stop → text[i]? = some '\x60'
  behind : text[q.stop]? ≠ some '\x60'

theorem getElem?_backticks {width i : Nat} (h : i < width) : (backticks width)[i]? = some '\x60' := by
  rw [backticks, List.getElem?_replicate, if_pos h]

theorem SetOff.ticks (h : q.SetOff 0 text) (hq : q.Quotable) : q.Ticks text := by
  obtain ⟨front, rest, rfl, hs, hf, hr⟩ := h
  have hlen := q.length_written
  have hticks : (backticks q.width).length = q.width := List.length_replicate
  have hat : ∀ i, (front ++ (q.written ++ rest))[q.start + i]? = (q.written ++ rest)[i]? := by
    intro i
    rw [List.getElem?_append_right (by omega)]
    congr 1
    omega
  have hwritten : ∀ i, q.start + i < q.stop → (front ++ (q.written ++ rest))[q.start + i]? = q.written[i]? := by
    intro i hi
    rw [hat, List.getElem?_append_left (by omega)]
  refine { before := fun i hi => ?_, opening := fun i hle hlt => ?_, inside := fun i hle hlt => ?_,
           closing := fun i hle hlt => ?_, behind := ?_ }
  · rw [List.getElem?_append_left (by omega)]
    rw [List.getLast?_eq_getElem?] at hf
    have he : front.length - 1 = i := by omega
    rwa [he] at hf
  · obtain ⟨k, rfl⟩ := Nat.exists_eq_add_of_le hle
    simp only [contentStart] at hlt
    rw [hwritten k (by simp only [stop, contentStop, contentStart]; omega), written, List.append_assoc,
      List.getElem?_append_left (by omega), getElem?_backticks (by omega)]
  · obtain ⟨k, rfl⟩ := Nat.exists_eq_add_of_le hle
    simp only [contentStop, contentStart] at hlt ⊢
    rw [Nat.add_assoc, hwritten _ (by simp only [stop, contentStop, contentStart]; omega), written,
      List.append_assoc, List.getElem?_append_right (by omega), List.getElem?_append_left (by omega)]
    exact fun he => hq.plain (List.mem_of_getElem? he)
  · obtain ⟨k, rfl⟩ := Nat.exists_eq_add_of_le hle
    simp only [contentStop, contentStart, stop] at hlt ⊢
    rw [Nat.add_assoc, Nat.add_assoc, hwritten _ (by simp only [stop, contentStop, contentStart]; omega), written,
      List.append_assoc, List.getElem?_append_right (by omega), List.getElem?_append_right (by omega),
      getElem?_backticks (by omega)]
  · rw [← hlen, hat, List.getElem?_append_right (Nat.le_refl _), Nat.sub_self, ← List.head?_eq_getElem?]
    exact hr

theorem Ticks.start_of_tick (hq : q.Ticks text) {i : Nat} (hi : text[i]? = some '\x60')
    (hbefore : ∀ j, j + 1 = i → text[j]? ≠ some '\x60') (hle : q.start ≤ i) (hlt : i < q.stop) :
    i = q.start ∨ i = q.contentStop := by
  rcases Nat.eq_zero_or_pos i with rfl | hpos
  · exact .inl (by omega)
  · have hprev := hbefore (i - 1) (by omega)
    by_contra hne
    rcases Nat.lt_or_ge i q.contentStart with hopen | hopen
    · exact hprev (hq.opening _ (by omega) (by omega))
    · rcases Nat.lt_or_ge i q.contentStop with hin | hin
      · exact hq.inside i hopen hin hi
      · exact hprev (hq.closing _ (by omega) (by omega))

theorem Ticks.width_eq (hq : q.Ticks text) (hr : r.Ticks text) (hqf : q.content ≠ []) (hrf : r.content ≠ [])
    (hrw : 0 < r.width) (hle : q.start ≤ r.start) (hlt : r.start < q.stop) : q.width = r.width := by
  have hqp := List.length_pos_iff.mpr hqf
  have hrp := List.length_pos_iff.mpr hrf
  have hopen := hr.opening r.start (Nat.le_refl _) (by simp only [contentStart]; omega)
  have hend := hr.inside r.contentStart (Nat.le_refl _) (by simp only [contentStop]; omega)
  rcases hq.start_of_tick hopen hr.before hle hlt with hs | hs
  · have hqend := hq.inside q.contentStart (Nat.le_refl _) (by simp only [contentStop]; omega)
    have hlong : ¬q.width < r.width := fun h =>
      hqend (hr.opening _ (by simp only [contentStart]; omega) (by simp only [contentStart]; omega))
    have hshort : ¬r.width < q.width := fun h =>
      hend (hq.opening _ (by simp only [contentStart]; omega) (by simp only [contentStart]; omega))
    omega
  · have hlong : ¬q.width < r.width := fun h =>
      hq.behind (hr.opening _ (by simp only [stop]; omega) (by simp only [stop, contentStart]; omega))
    have hshort : ¬r.width < q.width := fun h =>
      hend (hq.closing _ (by simp only [contentStart]; omega) (by simp only [contentStart, stop]; omega))
    omega

theorem Delimited.width_eq (hq : q.Delimited text first last) (hr : r.Delimited text first last)
    (h : q.overlaps r = true) : q.width = r.width := by
  obtain ⟨hlt, hgt⟩ : q.start < r.stop ∧ r.start < q.stop := by simpa [overlaps] using h
  have hqw : 0 < q.width := by have := hq.width; omega
  have hrw : 0 < r.width := by have := hr.width; omega
  have hqt := hq.setOff.ticks hq.quotable
  have hrt := hr.setOff.ticks hr.quotable
  rcases Nat.le_total q.start r.start with hle | hle
  · exact hqt.width_eq hrt hq.quotable.filled hr.quotable.filled hrw hle hgt
  · exact (hrt.width_eq hqt hr.quotable.filled hq.quotable.filled hqw hle hlt).symm

end QuotedSpan

theorem insertQuote_sorted {q : QuotedSpan} {qs : List QuotedSpan} (h : qs.Pairwise fun q r => q.start ≤ r.start) :
    (insertQuote q qs).Pairwise fun q r => q.start ≤ r.start := by
  induction qs with
  | nil => exact List.pairwise_singleton _ _
  | cons r qs ih =>
    obtain ⟨hr, hqs⟩ := List.pairwise_cons.mp h
    rw [insertQuote]
    split
    · rename_i hlt
      refine List.pairwise_cons.mpr ⟨fun s hs => ?_, h⟩
      rcases List.mem_cons.mp hs with rfl | hs
      · exact Nat.le_of_lt hlt
      · exact Nat.le_trans (Nat.le_of_lt hlt) (hr s hs)
    · rename_i hge
      refine List.pairwise_cons.mpr ⟨fun s hs => ?_, ih hqs⟩
      rcases mem_insertQuote.mp hs with rfl | hs
      · exact Nat.not_lt.mp hge
      · exact hr s hs

theorem mergeQuotes_sorted {ds : List QuotedSpan} (h : ds.Pairwise fun q r => q.start ≤ r.start)
    (ss : List QuotedSpan) : (mergeQuotes ds ss).Pairwise fun q r => q.start ≤ r.start := by
  rw [mergeQuotes]
  induction ss.filter fun s => !ds.any s.overlaps with
  | nil => exact h
  | cons s rest ih => exact insertQuote_sorted ih

namespace Line

theorem quotes_follow (l : Line) (first : Nat) :
    (l.quotes first).Pairwise fun q r => q.start < r.start ∧ q.stop ≤ r.start := by
  have hsorted : (l.quotes first).Pairwise fun q r => q.start ≤ r.start := by
    refine mergeQuotes_sorted ((l.quotesOf_pairwise 2 first).imp fun {q r} h => ?_) _
    simp only [QuotedSpan.stop, QuotedSpan.contentStop, QuotedSpan.contentStart] at h
    omega
  refine (hsorted.and (l.quotes_pairwise first)).imp_of_mem fun {q r} hq hr h => ?_
  have hqlt := QuotedSpan.start_lt_stop (mem_quotes hq).2.1
  have hrlt := QuotedSpan.start_lt_stop (mem_quotes hr).2.1
  have hge : ¬r.start < q.stop := fun hlt => by
    simp [QuotedSpan.overlaps, hlt, Nat.lt_of_le_of_lt h.1 hrlt] at h
  omega

end Line

namespace Text

variable {text : Text} {first last : Nat} {l : Line} {q : QuotedSpan}

theorem delimited_of_mem_quotesOf {width : Nat} (hl : l ∈ lines (text.take last)) (hw : width = 1 ∨ width = 2)
    (h : q ∈ l.quotesOf width first) : q.Delimited text first last := by
  obtain ⟨rfl, hq, hset, hfirst⟩ := Line.mem_quotesOf h
  have hn := hset.newline_not_mem (newline_not_mem_body (lines_eq_linesFrom _).symm hl)
  exact ⟨hw, hq, hn, (QuotedSpan.setOff_iff_exists_line hq hn).mpr ⟨l, hl, hset⟩, hfirst⟩

theorem filter_quotesOf (hl : l ∈ lines (text.take last)) {m : Line} (hm : m ∈ lines (text.take last)) :
    (l.quotesOf 1 first).filter (fun s => !(m.quotesOf 2 first).any s.overlaps) = l.quotesOf 1 first := by
  refine List.filter_eq_self.mpr fun s hs => ?_
  rw [Bool.not_eq_true', List.any_eq_false]
  intro d hd hmeet
  have heq := (delimited_of_mem_quotesOf hl (.inl rfl) hs).width_eq (delimited_of_mem_quotesOf hm (.inr rfl) hd) hmeet
  rw [(Line.mem_quotesOf hs).1, (Line.mem_quotesOf hd).1] at heq
  exact absurd heq (by decide)

theorem mem_quotes_of_mem_quotesOf (hl : l ∈ lines (text.take last)) (hw : q.width = 1 ∨ q.width = 2)
    (h : q ∈ l.quotesOf q.width first) : q ∈ text.quotes first last := by
  refine List.mem_flatMap.mpr ⟨l, hl, (mergeQuotes_perm _ _).mem_iff.mpr ?_⟩
  rw [filter_quotesOf hl hl]
  rcases hw with hw | hw <;> rw [hw] at h
  · exact List.mem_append_left _ h
  · exact List.mem_append_right _ h

theorem quotes_follow (text : Text) (first last : Nat) :
    (text.quotes first last).Pairwise fun q r => q.start < r.start ∧ q.stop ≤ r.start := by
  refine List.pairwise_flatMap.mpr ⟨fun l _ => l.quotes_follow first, ?_⟩
  refine (linesFrom_pairwise 0 (text.take last)).imp fun {l m} hlm q hq r hr => ?_
  obtain ⟨-, hquotable, hsetOff, -⟩ := Line.mem_quotes hq
  have hlt := QuotedSpan.start_lt_stop hquotable
  have hstop := hsetOff.bounds.2
  have hstart := (Line.mem_quotes hr).2.2.1.bounds.1
  simp only [Line.stop] at hlm
  omega

theorem quotes_delimited (text : Text) (first last : Nat) :
    (∀ q ∈ text.quotes first last, q.Delimited text first last) ∧
    (text.quotes first last).Pairwise (fun q r => q.start < r.start ∧ q.stop ≤ r.start) ∧
    (∀ q : QuotedSpan, q.Delimited text first last → q ∉ text.quotes first last →
      ∃ r ∈ text.quotes first last, r.width = q.width ∧ r.start < q.start ∧ r.overlaps q = true) ∧
    (∀ q r : QuotedSpan, q.Delimited text first last → r.Delimited text first last → q.width ≠ r.width →
      q.overlaps r = false) ∧
    ∀ l ∈ lines (text.take last), ∀ m ∈ lines (text.take last),
      (l.quotesOf 1 first).filter (fun s => !(m.quotesOf 2 first).any s.overlaps) = l.quotesOf 1 first := by
  refine ⟨fun q hq => ?_, quotes_follow text first last, fun q hq hout => ?_, fun q r hq hr hne => ?_,
    fun l hl m hm => filter_quotesOf hl hm⟩
  · obtain ⟨l, hl, hql⟩ := List.mem_flatMap.mp hq
    rcases mem_of_mem_mergeQuotes hql with hql | hql
    · exact delimited_of_mem_quotesOf hl (.inr rfl) hql
    · exact delimited_of_mem_quotesOf hl (.inl rfl) hql
  · obtain ⟨l, hl, hset⟩ := (QuotedSpan.setOff_iff_exists_line hq.quotable hq.line).mp hq.setOff
    have hpos : 0 < q.width := by have := hq.width; omega
    rcases Line.exists_of_setOff hpos hq.quotable hset hq.starts with hin | ⟨r, hr, hlt, hgt⟩
    · exact absurd (mem_quotes_of_mem_quotesOf hl hq.width hin) hout
    · have hw := (Line.mem_quotesOf hr).1
      have hq' := QuotedSpan.start_lt_stop hq.quotable
      refine ⟨r, mem_quotes_of_mem_quotesOf hl (hw ▸ hq.width) (hw ▸ hr), hw, hlt, ?_⟩
      simp only [QuotedSpan.overlaps, Bool.and_eq_true, decide_eq_true_eq]
      omega
  · rw [← Bool.not_eq_true]
    exact fun hmeet => hne (hq.width_eq hr hmeet)

example : Text.quotes "\x60a\x60b\x60c\x60".toList 0 7 = [⟨0, 1, ['a']⟩, ⟨4, 1, ['c']⟩] := by decide

end Text

end Literate
