import Mathlib.Data.List.TakeWhile
import Literate.Proofs.Text.Lines
import Literate.Quote

namespace Literate

open Unicode

namespace Pattern

variable {α : Type} {p : Pattern α} {skip pos : Nat} {before : Option Char}

theorem getLast?_cons_or (before : Option Char) (c : Char) (front : Text) :
    (c :: front).getLast?.or before = front.getLast?.or (some c) := by
  rw [List.getLast?_cons]
  cases front.getLast? <;> rfl

theorem mem_searchFrom {text : Text} {m : Match α} (h : m ∈ p.searchFrom skip pos before text) :
    ∃ front rest, text = front ++ rest ∧ m.start = pos + front.length ∧
      p (front.getLast?.or before) rest = some (m.length, m.value) := by
  induction text generalizing skip pos before with
  | nil => simp [searchFrom] at h
  | cons c text ih =>
    have grow : ∀ {n}, m ∈ p.searchFrom n (pos + 1) (some c) text → ∃ front rest, c :: text = front ++ rest ∧
        m.start = pos + front.length ∧ p (front.getLast?.or before) rest = some (m.length, m.value) := by
      intro n hn
      obtain ⟨front, rest, rfl, hs, hp⟩ := ih hn
      exact ⟨c :: front, rest, rfl, by rw [hs, List.length_cons]; omega, by rwa [getLast?_cons_or]⟩
    cases skip with
    | succ n =>
      rw [searchFrom] at h
      exact grow h
    | zero =>
      rw [searchFrom] at h
      cases hp : p before (c :: text) with
      | none =>
        simp only [hp] at h
        exact grow h
      | some found =>
        simp only [hp, List.mem_cons] at h
        rcases h with rfl | h
        · exact ⟨[], c :: text, rfl, rfl, hp⟩
        · exact grow h

theorem exists_of_searchFrom (skip pos : Nat) {front rest : Text} {n : Nat} {value : α}
    (hp : p (front.getLast?.or before) rest = some (n, value)) (hne : rest ≠ []) :
    front.length < skip ∨ ⟨pos + front.length, n, value⟩ ∈ p.searchFrom skip pos before (front ++ rest) ∨
      ∃ m ∈ p.searchFrom skip pos before (front ++ rest), m.start < pos + front.length ∧
        pos + front.length < m.stop := by
  induction front generalizing skip pos before with
  | nil =>
    obtain ⟨c, rest, rfl⟩ := List.exists_cons_of_ne_nil hne
    cases skip with
    | succ k => exact .inl (Nat.succ_pos k)
    | zero =>
      have hfound : p before (c :: rest) = some (n, value) := hp
      refine .inr (.inl ?_)
      rw [List.nil_append, searchFrom, hfound]
      exact List.mem_cons_self
  | cons c front ih =>
    rw [getLast?_cons_or] at hp
    have hlen : pos + (c :: front).length = pos + 1 + front.length := by rw [List.length_cons]; omega
    rw [hlen, List.length_cons, List.cons_append]
    cases skip with
    | succ k =>
      rw [searchFrom]
      exact (ih k (pos + 1) hp).imp_left Nat.succ_lt_succ
    | zero =>
      rw [searchFrom]
      cases hc : p before (c :: (front ++ rest)) with
      | none => exact .inr ((ih 0 (pos + 1) hp).resolve_left (Nat.not_lt_zero _))
      | some found =>
        rcases ih (found.1 - 1) (pos + 1) hp with hcovered | hmem | ⟨m, hm, hlt⟩
        · refine .inr (.inr ⟨_, List.mem_cons_self, ?_⟩)
          simp only [Match.stop]
          omega
        · exact .inr (.inl (List.mem_cons_of_mem _ hmem))
        · exact .inr (.inr ⟨m, List.mem_cons_of_mem _ hm, hlt⟩)

theorem le_start_of_mem_searchFrom {text : Text} {m : Match α} (h : m ∈ p.searchFrom skip pos before text) :
    pos + skip ≤ m.start := by
  induction text generalizing skip pos before with
  | nil => simp [searchFrom] at h
  | cons c text ih =>
    cases skip with
    | succ n =>
      have := ih (by rw [searchFrom] at h; exact h)
      omega
    | zero =>
      rw [searchFrom] at h
      cases hp : p before (c :: text) with
      | none =>
        simp only [hp] at h
        have := ih h
        omega
      | some found =>
        simp only [hp, List.mem_cons] at h
        rcases h with rfl | h
        · exact Nat.le_refl _
        · have := ih h
          omega

theorem searchFrom_pairwise (p : Pattern α) (skip pos : Nat) (before : Option Char) (text : Text) :
    (p.searchFrom skip pos before text).Pairwise fun m n => m.stop ≤ n.start := by
  induction text generalizing skip pos before with
  | nil => exact List.Pairwise.nil
  | cons c text ih =>
    cases skip with
    | succ n => exact ih n (pos + 1) (some c)
    | zero =>
      rw [searchFrom]
      cases hp : p before (c :: text) with
      | none => exact ih 0 (pos + 1) (some c)
      | some found =>
        refine List.pairwise_cons.mpr ⟨fun m hm => ?_, ih _ _ _⟩
        have := le_start_of_mem_searchFrom hm
        simp only [Match.stop]
        omega

end Pattern

namespace QuotedSpan

def shift (n : Nat) (q : QuotedSpan) : QuotedSpan := { q with start := q.start + n }

theorem overlaps_shift (n : Nat) (q r : QuotedSpan) : (q.shift n).overlaps (r.shift n) = q.overlaps r := by
  have hiff : ∀ q r : QuotedSpan, (q.shift n).start < (r.shift n).stop ↔ q.start < r.stop := by
    intro q r
    simp only [shift, stop, contentStop, contentStart]
    omega
  simp only [overlaps, hiff]

end QuotedSpan

def QuotedSpan.written (q : QuotedSpan) : Text := backticks q.width ++ q.content ++ backticks q.width

def QuotedSpan.SetOff (q : QuotedSpan) (n : Nat) (text : Text) : Prop :=
  ∃ front rest, text = front ++ (q.written ++ rest) ∧ q.start = n + front.length ∧
    front.getLast? ≠ some '\x60' ∧ rest.head? ≠ some '\x60'

structure QuotedSpan.Quotable (q : QuotedSpan) : Prop where
  filled : q.content ≠ []
  plain : '\x60' ∉ q.content
  tight : q.width = 1 → q.content.head?.any isSpace = false ∧ q.content.getLast?.any isSpace = false

theorem padded_eq_false_iff (content : Text) :
    padded content = false ↔ content.head?.any isSpace = false ∧ content.getLast?.any isSpace = false := by
  rw [padded, Bool.or_eq_false_iff]

theorem quotable_of_content {q : QuotedSpan} {before : Option Char} {text : Text}
    (h : quoteContent? q.width before text = some q.content) : before ≠ some '\x60' ∧ q.Quotable ∧
      ∃ rest, text = q.written ++ rest ∧ rest.head? ≠ some '\x60' := by
  rw [quoteContent?] at h
  split at h
  · simp at h
  · rename_i hbefore
    cases ho : (backticks q.width).isPrefixOf? text with
    | none => simp [ho] at h
    | some inner =>
      simp only [ho] at h
      cases hc : (backticks q.width).isPrefixOf? (inner.dropWhile (· ≠ '\x60')) with
      | none => simp only [hc, reduceCtorEq] at h
      | some after =>
        simp only [hc] at h
        split at h
        · simp at h
        · rename_i hn
          obtain ⟨hne, hafter, hpad⟩ := not_or.mp hn |>.imp_right not_or.mp
          have hcontent : inner.takeWhile (· ≠ '\x60') = q.content := Option.some.inj h
          have hopen := List.append_eq_of_isPrefixOf?_eq_some ho
          have hclose := List.append_eq_of_isPrefixOf?_eq_some hc
          have hinner := List.takeWhile_append_dropWhile (p := (· ≠ '\x60')) (l := inner)
          rw [hcontent] at hne hpad hinner
          refine ⟨hbefore, ⟨hne, fun hm => ?_, fun hw => ?_⟩, after, ?_, hafter⟩
          · rw [← hcontent] at hm
            simpa using List.mem_takeWhile_imp hm
          · exact (padded_eq_false_iff _).mp (Bool.not_eq_true _ ▸ fun hp => hpad ⟨hw, hp⟩)
          · rw [← hopen, ← hinner, ← hclose, QuotedSpan.written, List.append_assoc, List.append_assoc]

theorem content_of_quotable {q : QuotedSpan} (hw : 0 < q.width) (h : q.Quotable) {before : Option Char}
    (hbefore : before ≠ some '\x60') {rest : Text} (hrest : rest.head? ≠ some '\x60') :
    quoteContent? q.width before (q.written ++ rest) = some q.content := by
  obtain ⟨n, hn⟩ : ∃ n, q.width = n + 1 := ⟨q.width - 1, by omega⟩
  have hopen : (backticks q.width).isPrefixOf? (q.written ++ rest) =
      some (q.content ++ (backticks q.width ++ rest)) := by
    rw [List.isPrefixOf?_eq_some_iff_append_eq, QuotedSpan.written, List.append_assoc, List.append_assoc]
  have hall : ∀ c ∈ q.content, decide (c ≠ '\x60') = true := fun c hc => decide_eq_true fun he => h.plain (he ▸ hc)
  have htick : backticks q.width ++ rest = '\x60' :: (backticks n ++ rest) := by rw [hn]; rfl
  have htake : (q.content ++ (backticks q.width ++ rest)).takeWhile (· ≠ '\x60') = q.content := by
    rw [List.takeWhile_append_of_pos hall, htick, List.takeWhile_cons_of_neg (by simp), List.append_nil]
  have hdrop : (q.content ++ (backticks q.width ++ rest)).dropWhile (· ≠ '\x60') = backticks q.width ++ rest := by
    rw [List.dropWhile_append_of_pos hall, htick, List.dropWhile_cons_of_neg (by simp)]
  have hclose : (backticks q.width).isPrefixOf? (backticks q.width ++ rest) = some rest :=
    List.isPrefixOf?_eq_some_iff_append_eq.mpr rfl
  have hfits : ¬(q.content = [] ∨ rest.head? = some '\x60' ∨ (q.width = 1 ∧ padded q.content = true)) := by
    rintro (hnil | hhead | ⟨hone, hpad⟩)
    · exact h.filled hnil
    · exact hrest hhead
    · simp [(padded_eq_false_iff _).mpr (h.tight hone)] at hpad
  rw [quoteContent?, if_neg hbefore, hopen]
  simp only [htake, hdrop, hclose, if_neg hfits]

theorem QuotedSpan.length_written (q : QuotedSpan) : q.start + q.written.length = q.stop := by
  simp only [written, backticks, List.length_append, List.length_replicate, stop, contentStop, contentStart]
  omega

theorem QuotedSpan.SetOff.bounds {q : QuotedSpan} {n : Nat} {text : Text} (h : q.SetOff n text) :
    n ≤ q.start ∧ q.stop ≤ n + text.length := by
  obtain ⟨front, rest, rfl, hstart, -⟩ := h
  have hwritten := q.length_written
  simp only [List.length_append]
  omega

theorem QuotedSpan.start_lt_stop {q : QuotedSpan} (h : q.Quotable) : q.start < q.stop := by
  have hpos := List.length_pos_iff.mpr h.filled
  simp only [stop, contentStop, contentStart]
  omega

theorem insertQuote_perm (q : QuotedSpan) (qs : List QuotedSpan) : (insertQuote q qs).Perm (q :: qs) := by
  induction qs with
  | nil => exact List.Perm.refl _
  | cons r qs ih =>
    rw [insertQuote]
    split
    · exact List.Perm.refl _
    · exact (ih.cons r).trans (List.Perm.swap q r qs)

theorem mergeQuotes_perm (ds ss : List QuotedSpan) :
    (mergeQuotes ds ss).Perm ((ss.filter fun s => !ds.any s.overlaps) ++ ds) := by
  rw [mergeQuotes]
  induction ss.filter fun s => !ds.any s.overlaps with
  | nil => exact List.Perm.refl _
  | cons s rest ih => exact (insertQuote_perm s _).trans (ih.cons s)

theorem mem_insertQuote {q r : QuotedSpan} {qs : List QuotedSpan} : r ∈ insertQuote q qs ↔ r = q ∨ r ∈ qs := by
  induction qs with
  | nil => simp [insertQuote]
  | cons s qs ih =>
    rw [insertQuote]
    split
    · exact List.mem_cons
    · rw [List.mem_cons, ih, List.mem_cons]
      exact or_left_comm

theorem mem_of_mem_mergeQuotes {ds ss : List QuotedSpan} {q : QuotedSpan} (h : q ∈ mergeQuotes ds ss) :
    q ∈ ds ∨ q ∈ ss := by
  have hfold : ∀ rs : List QuotedSpan, q ∈ rs.foldr insertQuote ds → q ∈ ds ∨ q ∈ rs := by
    intro rs hq
    induction rs with
    | nil => exact .inl hq
    | cons r rs ih =>
      rcases mem_insertQuote.mp hq with rfl | hq
      · exact .inr List.mem_cons_self
      · exact (ih hq).imp_right (List.mem_cons_of_mem r)
  exact (hfold _ h).imp_right fun hq => (List.mem_filter.mp hq).1

theorem insertQuote_shift (n : Nat) (q : QuotedSpan) (qs : List QuotedSpan) :
    insertQuote (q.shift n) (qs.map (QuotedSpan.shift n)) = (insertQuote q qs).map (QuotedSpan.shift n) := by
  induction qs with
  | nil => rfl
  | cons r qs ih =>
    rw [List.map_cons, insertQuote, insertQuote]
    by_cases hq : q.start < r.start
    · have hn : (q.shift n).start < (r.shift n).start := Nat.add_lt_add_right hq n
      rw [if_pos hq, if_pos hn]
      rfl
    · have hn : ¬(q.shift n).start < (r.shift n).start := fun h => hq (Nat.lt_of_add_lt_add_right h)
      rw [if_neg hq, if_neg hn, ih]
      rfl

theorem mergeQuotes_shift (n : Nat) (ds ss : List QuotedSpan) :
    mergeQuotes (ds.map (QuotedSpan.shift n)) (ss.map (QuotedSpan.shift n)) =
      (mergeQuotes ds ss).map (QuotedSpan.shift n) := by
  have hfilter : (ss.map (QuotedSpan.shift n)).filter (fun s => !(ds.map (QuotedSpan.shift n)).any s.overlaps) =
      (ss.filter fun s => !ds.any s.overlaps).map (QuotedSpan.shift n) := by
    rw [List.filter_map]
    congr 1
    apply List.filter_congr
    intro s _
    simp only [Function.comp_apply, List.any_map, Function.comp_def, QuotedSpan.overlaps_shift]
  rw [mergeQuotes, mergeQuotes, hfilter]
  induction ss.filter fun s => !ds.any s.overlaps with
  | nil => rfl
  | cons s rest ih => rw [List.map_cons, List.foldr_cons, List.foldr_cons, ih, insertQuote_shift]

namespace Line

variable {l : Line}

theorem quotes_of_stop_le {first : Nat} (h : l.stop ≤ first) : l.quotes first = [] := by
  have hd : l.body.drop (first - l.start) = [] := by
    rw [List.drop_eq_nil_iff]
    simp only [Line.stop] at h
    omega
  simp [quotes, quotesOf, Pattern.searchAfter, hd, Pattern.searchFrom, mergeQuotes]

theorem quotes_of_le_start {first : Nat} (h : first ≤ l.start) : l.quotes first = l.quotes 0 := by
  rw [quotes, quotes, quotesOf, quotesOf, quotesOf, quotesOf, Nat.sub_eq_zero_of_le h, Nat.zero_sub]

theorem quotes_shift (l : Line) (n : Nat) : (l.shift n).quotes 0 = (l.quotes 0).map (QuotedSpan.shift n) := by
  have hof : ∀ width, (l.shift n).quotesOf width 0 = (l.quotesOf width 0).map (QuotedSpan.shift n) := by
    intro width
    rw [quotesOf, quotesOf, Nat.zero_sub, Nat.zero_sub, List.map_map]
    apply List.map_congr_left
    intro m _
    simp only [Function.comp_apply, QuotedSpan.shift, shift_start, Nat.add_right_comm]
  rw [quotes, hof, hof, mergeQuotes_shift]
  rfl

theorem match_stop {width k : Nat} {m : Match Text}
    (h : m ∈ (quote width).searchAfter l.body k) :
    (QuotedSpan.mk (l.start + m.start) width m.value).stop = l.start + m.stop := by
  obtain ⟨front, rest, -, -, hp⟩ := Pattern.mem_searchFrom h
  obtain ⟨content, -, he⟩ := Option.map_eq_some_iff.mp hp
  obtain ⟨hlen, rfl⟩ := Prod.mk.inj he
  simp only [QuotedSpan.stop, QuotedSpan.contentStop, QuotedSpan.contentStart, Match.stop]
  omega

theorem mem_quotesOf {width first : Nat} {q : QuotedSpan} (h : q ∈ l.quotesOf width first) :
    q.width = width ∧ q.Quotable ∧ q.SetOff l.start l.body ∧ first ≤ q.start := by
  obtain ⟨m, hm, rfl⟩ := List.mem_map.mp h
  have hfrom := Pattern.le_start_of_mem_searchFrom hm
  obtain ⟨front, rest, hbody, hstart, hp⟩ := Pattern.mem_searchFrom hm
  obtain ⟨content, hc, he⟩ := Option.map_eq_some_iff.mp hp
  obtain rfl := (Prod.mk.inj he).2
  obtain ⟨hbefore, hquotable, after, rfl, hafter⟩ :=
    quotable_of_content (q := ⟨l.start + m.start, width, m.value⟩) hc
  have htake : (l.body.take (first - l.start)).length = first - l.start := by
    have hwritten := QuotedSpan.length_written ⟨l.start + m.start, width, m.value⟩
    have hlt := QuotedSpan.start_lt_stop hquotable
    have hlen := congrArg List.length hbody
    simp only [List.length_drop, List.length_append] at hlen
    rw [List.length_take]
    omega
  refine ⟨rfl, hquotable, ⟨l.body.take (first - l.start) ++ front, after, ?_, ?_, ?_, hafter⟩, ?_⟩
  · rw [List.append_assoc, ← hbody, List.take_append_drop]
  · dsimp only
    rw [hstart, List.length_append, htake]
  · rwa [List.getLast?_append]
  · dsimp only
    omega

theorem exists_of_setOff {first : Nat} {q : QuotedSpan} (hw : 0 < q.width) (hq : q.Quotable)
    (h : q.SetOff l.start l.body) (hfirst : first ≤ q.start) :
    q ∈ l.quotesOf q.width first ∨ ∃ r ∈ l.quotesOf q.width first, r.start < q.start ∧ q.start < r.stop := by
  obtain ⟨front, rest, hbody, hstart, hfront, hrest⟩ := h
  have hk : first - l.start ≤ front.length := by omega
  have htake : l.body.take (first - l.start) = front.take (first - l.start) := by
    rw [hbody, List.take_append_of_le_length hk]
  have hdrop : l.body.drop (first - l.start) = front.drop (first - l.start) ++ (q.written ++ rest) := by
    rw [hbody, List.drop_append_of_le_length hk]
  have hbefore : (front.drop (first - l.start)).getLast?.or (front.take (first - l.start)).getLast? =
      front.getLast? := by
    rw [← List.getLast?_append, List.take_append_drop]
  have hlen : first - l.start + (front.drop (first - l.start)).length = front.length := by
    rw [List.length_drop]
    omega
  have hp : quote q.width ((front.drop (first - l.start)).getLast?.or (front.take (first - l.start)).getLast?)
      (q.written ++ rest) = some (q.content.length + 2 * q.width, q.content) := by
    rw [hbefore, quote, content_of_quotable hw hq hfront hrest]
    rfl
  have hne : q.written ++ rest ≠ [] := by
    have hwritten := q.length_written
    have hlt := QuotedSpan.start_lt_stop hq
    intro hnil
    rw [(List.append_eq_nil_iff.mp hnil).1] at hwritten
    simp only [List.length_nil] at hwritten
    omega
  have hfound := Pattern.exists_of_searchFrom 0 (first - l.start) hp hne
  rw [← hdrop, ← htake, hlen] at hfound
  rcases hfound with hlt | hmem | ⟨m, hm, hlt, hgt⟩
  · exact absurd hlt (Nat.not_lt_zero _)
  · exact .inl (List.mem_map.mpr ⟨_, hmem, by simp only [← hstart]⟩)
  · refine .inr ⟨_, List.mem_map.mpr ⟨m, hm, rfl⟩, ?_, ?_⟩
    · dsimp only
      omega
    · rw [match_stop hm]
      omega

theorem mem_quotes {first : Nat} {q : QuotedSpan} (h : q ∈ l.quotes first) :
    (q.width = 1 ∨ q.width = 2) ∧ q.Quotable ∧ q.SetOff l.start l.body ∧ first ≤ q.start := by
  rcases mem_of_mem_mergeQuotes h with hq | hq
  · exact (mem_quotesOf hq).imp_left .inr
  · exact (mem_quotesOf hq).imp_left .inl

theorem quotes_parts {q : QuotedSpan} (h : q ∈ l.quotes 0) :
    l.start ≤ q.start ∧ 0 < q.width ∧ q.content ≠ [] ∧ q.stop ≤ l.stop := by
  obtain ⟨hw, hq, hsetOff, -⟩ := mem_quotes h
  exact ⟨hsetOff.bounds.1, by omega, hq.filled, hsetOff.bounds.2⟩

theorem getElem?_quote {q : QuotedSpan} (h : q ∈ l.quotes 0) :
    ∃ i, q.start = l.start + i ∧ l.body[i]? = some '\x60' := by
  obtain ⟨hw, -, ⟨front, rest, hbody, hstart, -⟩, -⟩ := mem_quotes h
  obtain ⟨n, hn⟩ : ∃ n, q.width = n + 1 := ⟨q.width - 1, by omega⟩
  refine ⟨front.length, hstart, ?_⟩
  rw [hbody, List.getElem?_append_right (Nat.le_refl _), Nat.sub_self, QuotedSpan.written, hn]
  rfl

theorem quotesOf_pairwise (l : Line) (width first : Nat) :
    (l.quotesOf width first).Pairwise fun q r => q.stop ≤ r.start := by
  rw [quotesOf, List.pairwise_map]
  refine ((quote width).searchFrom_pairwise 0 _ _ _).imp_of_mem fun {m n} hm _ h => ?_
  rw [match_stop hm]
  exact Nat.add_le_add_left h _

theorem quotes_pairwise (l : Line) (first : Nat) : (l.quotes first).Pairwise fun q r => q.overlaps r = false := by
  have hsymm : ∀ {q r : QuotedSpan}, q.overlaps r = false → r.overlaps q = false := by
    intro q r h
    rw [QuotedSpan.overlaps, Bool.and_comm] at h
    exact h
  have hof : ∀ width, (l.quotesOf width first).Pairwise fun q r => q.overlaps r = false := fun width =>
    (l.quotesOf_pairwise width first).imp fun {q r} h => by
      rw [QuotedSpan.overlaps, decide_eq_false (Nat.not_lt.mpr h), Bool.and_false]
  rw [quotes, (mergeQuotes_perm _ _).pairwise_iff hsymm, List.pairwise_append]
  refine ⟨(hof 1).filter _, hof 2, fun q hq r hr => ?_⟩
  have hany := (List.mem_filter.mp hq).2
  simp only [Bool.not_eq_true', List.any_eq_false] at hany
  simpa using hany r hr

end Line

end Literate
