import Mathlib.Data.List.Induction
import Literate.Editor.Basic
import Literate.Proofs.Session.Resize

namespace Literate

namespace TextEdit

structure Fits (e : TextEdit) (source : Text) : Prop where
  start : 0 ≤ e.start
  ordered : e.start ≤ e.stop
  stop : e.stop ≤ source.length

def inserted (e : TextEdit) : List (Int × Char) := e.text.zipIdx.map fun p => (e.start + p.2, p.1)

def moved (e : TextEdit) (ts : List (Int × Char)) : List (Int × Char) :=
  ts.filterMap fun t => (e.place? t.1).map (·, t.2)

def typed (edits : List TextEdit) : List (Int × Char) := edits.foldl (fun ts e => e.moved ts ++ e.inserted) []

variable {e : TextEdit} {source : Text} {ts : List (Int × Char)} {t : Int × Char}

theorem typed_concat (edits : List TextEdit) (e : TextEdit) : typed (edits ++ [e]) = e.moved (typed edits) ++ e.inserted := by
  rw [typed, List.foldl_concat]
  rfl

theorem mem_inserted : t ∈ e.inserted ↔ ∃ i : Nat, e.text[i]? = some t.2 ∧ t.1 = e.start + i := by
  simp only [inserted, List.mem_map, List.mem_zipIdx_iff_getElem?]
  constructor
  · rintro ⟨p, hp, rfl⟩
    exact ⟨p.2, hp, rfl⟩
  · rintro ⟨i, hi, ht⟩
    exact ⟨(t.2, i), hi, by rw [← ht]⟩

theorem mem_moved : t ∈ e.moved ts ↔ ∃ s ∈ ts, e.place? s.1 = some t.1 ∧ s.2 = t.2 := by
  simp only [moved, List.mem_filterMap, Option.map_eq_some_iff]
  constructor
  · rintro ⟨s, hs, j, hj, rfl⟩
    exact ⟨s, hs, hj, rfl⟩
  · rintro ⟨s, hs, hj, hc⟩
    exact ⟨s, hs, t.1, hj, by rw [hc]⟩

theorem le_of_mem_inserted (ht : t ∈ e.inserted) : e.start ≤ t.1 ∧ t.1 < e.start + e.text.length := by
  obtain ⟨i, hi, hplace⟩ := mem_inserted.mp ht
  obtain ⟨hlen, -⟩ := List.getElem?_eq_some_iff.mp hi
  omega

theorem le_place? (h : e.Fits source) {i j : Int} (hj : e.place? i = some j) : min i e.start ≤ j := by
  have hordered := h.ordered
  rw [place?] at hj
  split at hj
  · obtain rfl : i = j := Option.some.inj hj
    omega
  · split at hj
    · obtain rfl : i + e.growth = j := Option.some.inj hj
      simp only [growth]
      omega
    · simp at hj

theorem getElem?_inserted (h : e.Fits source) (ht : t ∈ e.inserted) :
    0 ≤ t.1 ∧ (e.apply source)[t.1.toNat]? = some t.2 := by
  obtain ⟨i, hi, hplace⟩ := mem_inserted.mp ht
  obtain ⟨front, old, back, -, happly, hfront, -⟩ := exists_parts h.start h.ordered h.stop
  obtain ⟨hlen, -⟩ := List.getElem?_eq_some_iff.mp hi
  have hnat : t.1.toNat = front.length + i := by omega
  refine ⟨by omega, ?_⟩
  rw [happly, hnat, List.getElem?_append_right (by omega), Nat.add_sub_cancel_left, List.getElem?_append_left hlen, hi]

end TextEdit

namespace Pending

theorem merge_stop (p later : Pending) : (p.merge later).stop = max p.stop later.stop := by
  have hstart : p.start ≤ p.stop := Nat.le_add_right _ _
  simp only [merge, stop]
  omega

end Pending

namespace Editor

open TextEdit (typed typed_concat)

def replaceAll (e : Editor) (edits : List TextEdit) : Editor := edits.foldl replace e

def AllFit : Editor → List TextEdit → Prop
  | _, [] => True
  | e, c :: edits => c.Fits e.text ∧ AllFit (e.replace c) edits

def Gathers (e : Editor) (ts : List (Int × Char)) : Prop :=
  ∀ t ∈ ts, ∃ p, e.pending = some p ∧ p.start ≤ t.1 ∧ t.1 < p.stop

structure Follows (e : Editor) (ts : List (Int × Char)) : Prop where
  stands : ∀ t ∈ ts, 0 ≤ t.1 ∧ e.text[t.1.toNat]? = some t.2
  reached : ∀ t ∈ ts, ∃ p, e.pending = some p ∧ p.start ≤ t.1
  within : ∀ p, e.pending = some p → p.start ≤ e.text.length

variable {e : Editor} {c : TextEdit} {edits : List TextEdit} {ts : List (Int × Char)}

theorem replaceAll_concat (e : Editor) (edits : List TextEdit) (c : TextEdit) :
    e.replaceAll (edits ++ [c]) = (e.replaceAll edits).replace c :=
  List.foldl_concat ..

theorem allFit_append {before later : List TextEdit} :
    e.AllFit (before ++ later) ↔ e.AllFit before ∧ (e.replaceAll before).AllFit later := by
  induction before generalizing e with
  | nil => simp [AllFit, replaceAll]
  | cons c before ih => simp only [List.cons_append, AllFit, ih, and_assoc, replaceAll, List.foldl_cons]

theorem foldl_request_keeps (requests : List Reveal.Request) (e : Editor) :
    (requests.foldl request e).text = e.text ∧ (requests.foldl request e).pending = e.pending := by
  induction requests generalizing e with
  | nil => exact ⟨rfl, rfl⟩
  | cons r requests ih =>
    obtain ⟨htext, hpending⟩ := ih (e.request r)
    rw [List.foldl_cons, htext, hpending]
    cases r with
    | redraw range window => exact ⟨rfl, rfl⟩
    | schedule delay => exact ⟨rfl, rfl⟩
    | cancel => exact ⟨rfl, rfl⟩

theorem setCursor_keeps (e : Editor) (pos : Nat) :
    (e.setCursor pos).text = e.text ∧ (e.setCursor pos).pending = e.pending := by
  rw [setCursor]
  split
  · exact ⟨rfl, rfl⟩
  · rw [cursorMoved]
    split
    · exact ⟨rfl, rfl⟩
    · exact foldl_request_keeps _ _

theorem replace_of_nothing (h : isNothing c = true) : e.replace c = e := by rw [replace, if_pos h]

theorem replace_eq (h : isNothing c = false) (hfit : c.Fits e.text) : e.replace c = setCursor
    { e with
      text := c.apply e.text
      pending := some (.join e.pending ⟨c.start.toNat, (c.stop - c.start).toNat, c.text.length⟩)
      idle := true }
    (shiftCursor e.cursor c.start.toNat (c.stop - c.start).toNat c.text.length) := by
  obtain ⟨n, hn⟩ := Int.eq_ofNat_of_zero_le hfit.start
  obtain ⟨m, hm⟩ := Int.eq_ofNat_of_zero_le (Int.le_trans hfit.start hfit.ordered)
  have hstop := hfit.stop
  have hordered := hfit.ordered
  have hstart : e.text.offset c.start = n := by rw [hn, Text.offset_of_le (by omega)]
  have hend : e.text.offset c.stop = m := by rw [hm, Text.offset_of_le (by omega)]
  have hremoved : (c.stop - c.start).toNat = m - n := by omega
  have hnat : c.start.toNat = n := by omega
  rw [replace, if_neg (by simp [h]), hremoved, hnat, hstart, hend]

theorem replace_keeps (h : isNothing c = false) (hfit : c.Fits e.text) : (e.replace c).text = c.apply e.text ∧
    (e.replace c).pending = some (.join e.pending ⟨c.start.toNat, (c.stop - c.start).toNat, c.text.length⟩) := by
  rw [replace_eq h hfit]
  exact setCursor_keeps _ _

theorem growth_of_nothing (h : isNothing c = true) : c.growth = 0 := by
  rw [isNothing, Bool.and_eq_true, decide_eq_true_iff, List.isEmpty_iff] at h
  rw [TextEdit.growth, h.1, h.2, List.length_nil]
  omega

theorem apply_of_nothing (h : isNothing c = true) (source : Text) : c.apply source = source := by
  rw [isNothing, Bool.and_eq_true, decide_eq_true_iff, List.isEmpty_iff] at h
  rw [TextEdit.apply, h.1, h.2, List.append_nil, List.take_append_drop]

theorem typed_of_nothing (h : isNothing c = true) (ts : List (Int × Char)) : c.moved ts ++ c.inserted = ts := by
  have hgrowth := growth_of_nothing h
  rw [isNothing, Bool.and_eq_true, decide_eq_true_iff, List.isEmpty_iff] at h
  have hplace : ∀ i, c.place? i = some i := by
    intro i
    rw [TextEdit.place?, hgrowth, h.1, Int.add_zero]
    split
    · rfl
    · rw [if_pos (by omega)]
  have hmoved : c.moved ts = ts := by simp [TextEdit.moved, hplace]
  rw [hmoved, TextEdit.inserted, h.2]
  exact List.append_nil ts

theorem replace_range (h : isNothing c = false) (hfit : c.Fits e.text) : ∃ p, (e.replace c).pending = some p ∧
    p.start ≤ c.start ∧ c.start + c.text.length ≤ p.stop ∧
      ∀ q, e.pending = some q → p.start ≤ q.start ∧ (p.stop : Int) = max (q.stop : Int) (c.start + c.text.length) := by
  obtain ⟨later, hpending, hstart, hstop⟩ : ∃ later, (e.replace c).pending = some (.join e.pending later) ∧
      (later.start : Int) = c.start ∧ (later.stop : Int) = c.start + c.text.length := by
    have hstart := Int.toNat_of_nonneg hfit.start
    refine ⟨_, (replace_keeps h hfit).2, hstart, ?_⟩
    rw [Pending.stop, Int.natCast_add, hstart]
  refine ⟨_, hpending, ?_⟩
  cases e.pending with
  | none => exact ⟨Int.le_of_eq hstart, Int.le_of_eq hstop.symm, by simp⟩
  | some q =>
    have hfrom : (Pending.join (some q) later).start = min q.start later.start := rfl
    have hto : (Pending.join (some q) later).stop = max q.stop later.stop := Pending.merge_stop q later
    rw [hfrom, hto]
    refine ⟨by omega, by omega, fun r hr => ?_⟩
    obtain rfl := Option.some.inj hr
    exact ⟨Nat.min_le_left _ _, by omega⟩

theorem Follows.replace (h : e.Follows ts) (hfit : c.Fits e.text) : (e.replace c).Follows (c.moved ts ++ c.inserted) := by
  cases hc : isNothing c with
  | true => rwa [replace_of_nothing hc, typed_of_nothing hc]
  | false =>
    obtain ⟨p, hp, hfrom, hto, hjoin⟩ := replace_range hc hfit
    have htext := (replace_keeps hc hfit).1
    constructor
    · intro t ht
      rw [htext]
      rcases List.mem_append.mp ht with ht | ht
      · obtain ⟨s, hs, hplace, hchar⟩ := TextEdit.mem_moved.mp ht
        obtain ⟨hpos, hstands⟩ := h.stands s hs
        obtain ⟨i, hi⟩ := Int.eq_ofNat_of_zero_le hpos
        rw [hi] at hplace hstands
        obtain ⟨hpos', hmoved⟩ := TextEdit.getElem?_place hfit.start hfit.ordered hfit.stop hplace
        exact ⟨hpos', by rw [hmoved, ← hchar]; exact hstands⟩
      · exact TextEdit.getElem?_inserted hfit ht
    · intro t ht
      refine ⟨p, hp, ?_⟩
      rcases List.mem_append.mp ht with ht | ht
      · obtain ⟨s, hs, hplace, -⟩ := TextEdit.mem_moved.mp ht
        obtain ⟨q, hq, hreached⟩ := h.reached s hs
        have hback := (hjoin q hq).1
        have hmoved := TextEdit.le_place? hfit hplace
        omega
      · have hin := TextEdit.le_of_mem_inserted ht
        omega
    · intro q hq
      obtain rfl := Option.some.inj (hp.symm.trans hq)
      have hlen := TextEdit.length_apply hfit.start hfit.ordered hfit.stop
      have hstop := hfit.stop
      rw [htext]
      simp only [TextEdit.growth] at hlen
      omega

theorem replace_gathers_iff (h : e.Gathers ts) (hfit : c.Fits e.text) : (e.replace c).Gathers (c.moved ts ++ c.inserted) ↔
    ∀ p, e.pending = some p → ∀ t ∈ ts, c.stop ≤ t.1 → t.1 + c.growth < p.stop := by
  have hordered := hfit.ordered
  cases hc : isNothing c with
  | true =>
    rw [replace_of_nothing hc, typed_of_nothing hc, growth_of_nothing hc]
    apply iff_of_true h
    intro q hq t ht _
    obtain ⟨r, hr, -, hin⟩ := h t ht
    obtain rfl := Option.some.inj (hq.symm.trans hr)
    omega
  | false =>
    obtain ⟨p, hp, hfrom, hto, hjoin⟩ := replace_range hc hfit
    constructor
    · intro hall q hq t ht hbehind
      have hplace : c.place? t.1 = some (t.1 + c.growth) := by
        rw [TextEdit.place?, if_neg (by omega), if_pos hbehind]
      obtain ⟨r, hr, -, hin⟩ := hall (t.1 + c.growth, t.2)
        (List.mem_append_left _ (TextEdit.mem_moved.mpr ⟨t, ht, hplace, rfl⟩))
      obtain rfl := Option.some.inj (hp.symm.trans hr)
      have hmax := (hjoin q hq).2
      have hend : c.start + c.text.length = c.stop + c.growth := by
        rw [TextEdit.growth]
        omega
      omega
    · intro hnear t ht
      refine ⟨p, hp, ?_⟩
      rcases List.mem_append.mp ht with ht | ht
      · obtain ⟨s, hs, hplace, -⟩ := TextEdit.mem_moved.mp ht
        obtain ⟨q, hq, hreached, hin⟩ := h s hs
        obtain ⟨hback, hmax⟩ := hjoin q hq
        have hmoved := TextEdit.le_place? hfit hplace
        have hnear' := hnear q hq s hs
        refine ⟨by omega, ?_⟩
        rw [TextEdit.place?] at hplace
        split at hplace
        · have hstay := Option.some.inj hplace
          omega
        · split at hplace
          · have hmove := Option.some.inj hplace
            have := hnear' ‹_›
            omega
          · simp at hplace
      · have hin := TextEdit.le_of_mem_inserted ht
        omega

theorem replaceAll_follows (hnone : e.pending = none) (hfit : e.AllFit edits) :
    (e.replaceAll edits).Follows (typed edits) := by
  induction edits using List.reverseRecOn with
  | nil => exact ⟨by simp [typed], by simp [typed], by simp [replaceAll, hnone]⟩
  | append_singleton edits c ih =>
    obtain ⟨hbefore, hlast, -⟩ := allFit_append.mp hfit
    rw [replaceAll_concat, typed_concat]
    exact (ih hbefore).replace hlast

theorem flush_of_pending {p : Pending} (hp : e.pending = some p) (hopen : e.closed = false) (hin : p.start ≤ e.text.length) :
    e.flush = { e with pending := none }.performAll (Plan.changed e.grammar e.text p.start p.added).1 := by
  have hmin : min (p.start : Int) e.text.length = p.start := by omega
  rw [flush, hp]
  dsimp only
  rw [hopen, hmin, if_neg (by simp)]
  rfl

/-- Some edits with nothing dealt with between them. The gathered range is the one that is dealt with, and it starts in
front of all that was typed; it takes all of that in, after each of the edits, as long as no edit moves something typed
before behind the end that the range had in the text before the edit. -/
theorem replaceAll_gathers_iff (hnone : e.pending = none) (hfit : e.AllFit edits) :
    (∀ t ∈ typed edits, 0 ≤ t.1 ∧ (e.replaceAll edits).text[t.1.toNat]? = some t.2 ∧
      ∃ p, (e.replaceAll edits).pending = some p ∧ p.start ≤ t.1) ∧
    (∀ p, (e.replaceAll edits).pending = some p → (e.replaceAll edits).closed = false → (e.replaceAll edits).flush =
      { e.replaceAll edits with pending := none }.performAll
        (Plan.changed (e.replaceAll edits).grammar (e.replaceAll edits).text p.start p.added).1) ∧
    ((∀ before, before <+: edits → (e.replaceAll before).Gathers (typed before)) ↔
      ∀ before c, before ++ [c] <+: edits → ∀ p, (e.replaceAll before).pending = some p →
        ∀ t ∈ typed before, c.stop ≤ t.1 → t.1 + c.growth < p.stop) := by
  have hfollows := replaceAll_follows hnone hfit
  refine ⟨fun t ht => ⟨(hfollows.stands t ht).1, (hfollows.stands t ht).2, hfollows.reached t ht⟩,
    fun p hp hopen => flush_of_pending hp hopen (hfollows.within p hp), ?_⟩
  have hstep : ∀ before c, before ++ [c] <+: edits → c.Fits (e.replaceAll before).text := by
    rintro before c ⟨later, rfl⟩
    obtain ⟨hbefore, -⟩ := allFit_append.mp hfit
    exact (allFit_append.mp hbefore).2.1
  constructor
  · intro hall before c hprefix
    have hlast := hall _ hprefix
    rw [replaceAll_concat, typed_concat] at hlast
    exact (replace_gathers_iff (hall before ((List.prefix_append _ _).trans hprefix)) (hstep before c hprefix)).mp hlast
  · intro hnear before hprefix
    induction before using List.reverseRecOn with
    | nil => simp [Gathers, typed]
    | append_singleton before c ih =>
      rw [replaceAll_concat, typed_concat]
      have hbefore := ih ((List.prefix_append _ _).trans hprefix)
      exact (replace_gathers_iff hbefore (hstep before c hprefix)).mpr (hnear before c hprefix)

theorem replaceAll_not_gathers_front :
    (ofSettings {} none []).AllFit [⟨0, 0, "ab".toList⟩, ⟨0, 0, "x".toList⟩] ∧
    ((ofSettings {} none []).replaceAll [⟨0, 0, "ab".toList⟩, ⟨0, 0, "x".toList⟩]).pending = some ⟨0, 0, 2⟩ ∧
    typed [⟨0, 0, "ab".toList⟩, ⟨0, 0, "x".toList⟩] = [(1, 'a'), (2, 'b'), (0, 'x')] ∧
    ¬∀ before, before <+: [⟨0, 0, "ab".toList⟩, ⟨0, 0, "x".toList⟩] →
      ((ofSettings {} none []).replaceAll before).Gathers (typed before) := by
  have hfit : (ofSettings {} none []).AllFit [⟨0, 0, "ab".toList⟩, ⟨0, 0, "x".toList⟩] := by
    refine ⟨?_, ?_, trivial⟩
    · constructor <;> decide
    · constructor <;> decide +kernel
  refine ⟨hfit, by decide +kernel, by decide +kernel, fun hall => ?_⟩
  have hnear := (replaceAll_gathers_iff rfl hfit).2.2.mp hall [⟨0, 0, "ab".toList⟩] ⟨0, 0, "x".toList⟩ (List.prefix_refl _)
    ⟨0, 0, 2⟩ (by decide +kernel) (1, 'b') (by decide +kernel) (by decide)
  exact absurd hnear (by decide)

end Editor

end Literate
