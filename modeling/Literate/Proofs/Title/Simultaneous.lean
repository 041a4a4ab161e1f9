import Mathlib.Data.List.Sort
import Literate.Proofs.Editor.Pending

namespace Literate

namespace TextEdit

def Apart (e f : TextEdit) : Prop := (e.start < f.start ∧ e.stop ≤ f.start) ∨ (f.start < e.start ∧ f.stop ≤ e.start)

instance (e f : TextEdit) : Decidable (Apart e f) := inferInstanceAs (Decidable (_ ∨ _))

def startingAt (edits : List TextEdit) (i : Nat) : Text :=
  (edits.filter fun e => e.start = (i : Int)).flatMap TextEdit.text

def takesAway (edits : List TextEdit) (i : Nat) : Bool := edits.any fun e => e.start ≤ i && i < e.stop

def atOnce (edits : List TextEdit) (pos : Nat) : Text → Text
  | [] => startingAt edits pos
  | c :: rest =>
    startingAt edits pos ++ ((if takesAway edits pos then [] else [c]) ++ atOnce edits (pos + 1) rest)

section Sorted

def Leads (e f : TextEdit) : Prop := f.start ≤ e.start

instance : DecidableRel Leads := fun e f => inferInstanceAs (Decidable (f.start ≤ e.start))

instance : IsTrans TextEdit Leads := ⟨fun _ _ _ h h' => Int.le_trans h' h⟩

instance : Std.Total Leads := ⟨fun e f => Int.le_total f.start e.start⟩

theorem insert_eq_orderedInsert (e : TextEdit) (edits : List TextEdit) :
    insert e edits = edits.orderedInsert Leads e := by
  induction edits with
  | nil => rfl
  | cons f rest ih =>
    rw [insert, List.orderedInsert_cons, ih]
    rfl

theorem foldr_insert (edits : List TextEdit) : edits.foldr insert [] = edits.insertionSort Leads := by
  induction edits with
  | nil => rfl
  | cons e edits ih => rw [List.foldr_cons, ih, insert_eq_orderedInsert, List.insertionSort_cons]

end Sorted

section Pass

variable {e : TextEdit} {edits others : List TextEdit} {pos : Nat} {front old back text : Text}

theorem startingAt_cons (e : TextEdit) (edits : List TextEdit) (i : Nat) :
    startingAt (e :: edits) i = if e.start = i then e.text ++ startingAt edits i else startingAt edits i := by
  by_cases h : e.start = i <;> simp [startingAt, h]

theorem takesAway_cons (e : TextEdit) (edits : List TextEdit) (i : Nat) :
    takesAway (e :: edits) i = ((e.start ≤ i && i < e.stop) || takesAway edits i) := List.any_cons

theorem takesAway_inside (hstart : e.start ≤ pos) (hstop : pos < e.stop) : takesAway (e :: edits) pos = true := by
  rw [takesAway_cons, decide_eq_true hstart, decide_eq_true hstop]
  rfl

theorem startingAt_of_passed (h : ∀ e ∈ edits, e.start < pos ∧ e.stop ≤ pos) : startingAt edits pos = [] := by
  induction edits with
  | nil => rfl
  | cons e edits ih =>
    obtain ⟨he, hrest⟩ := List.forall_mem_cons.mp h
    rw [startingAt_cons, if_neg (by omega), ih hrest]

theorem takesAway_of_passed (h : ∀ e ∈ edits, e.start < pos ∧ e.stop ≤ pos) : takesAway edits pos = false := by
  refine List.any_eq_false.mpr fun e he => ?_
  have hstop := (h e he).2
  simp only [Bool.and_eq_true, decide_eq_true_eq, not_and]
  omega

theorem passed_succ (h : ∀ e ∈ edits, e.start < pos ∧ e.stop ≤ pos) (e : TextEdit) (he : e ∈ edits) :
    e.start < (pos + 1 : Nat) ∧ e.stop ≤ (pos + 1 : Nat) := by
  have := h e he
  omega

theorem atOnce_of_passed (h : ∀ e ∈ edits, e.start < pos ∧ e.stop ≤ pos) (text : Text) : atOnce edits pos text = text := by
  induction text generalizing pos with
  | nil => exact startingAt_of_passed h
  | cons c text ih =>
    rw [atOnce, startingAt_of_passed h, takesAway_of_passed h, ih (passed_succ h)]
    rfl

theorem atOnce_inside (h : ∀ f ∈ edits, f.start < pos ∧ f.stop ≤ pos) (hstart : e.start < pos)
    (hstop : e.stop = (pos + old.length : Nat)) : atOnce (e :: edits) pos (old ++ back) = back := by
  induction old generalizing pos with
  | nil => exact atOnce_of_passed (List.forall_mem_cons.mpr ⟨⟨hstart, Int.le_of_eq hstop⟩, h⟩) back
  | cons c old ih =>
    rw [List.length_cons] at hstop
    have htaken : takesAway (e :: edits) pos = true := takesAway_inside (by omega) (by omega)
    rw [List.cons_append, atOnce, startingAt_cons, if_neg (by omega), startingAt_of_passed h, htaken]
    exact ih (passed_succ h) (by omega) (by omega)

theorem atOnce_at (h : ∀ f ∈ edits, f.start < pos ∧ f.stop ≤ pos) (hstart : e.start = pos)
    (hstop : e.stop = (pos + old.length : Nat)) : atOnce (e :: edits) pos (old ++ back) = e.text ++ back := by
  have htext : startingAt (e :: edits) pos = e.text := by
    rw [startingAt_cons, if_pos hstart, startingAt_of_passed h, List.append_nil]
  cases old with
  | cons c old =>
    rw [List.length_cons] at hstop
    have htaken : takesAway (e :: edits) pos = true := takesAway_inside (by omega) (by omega)
    rw [List.cons_append, atOnce, htext, htaken]
    exact congrArg _ (atOnce_inside (passed_succ h) (by omega) (by omega))
  | nil =>
    have hkept : takesAway (e :: edits) pos = false := by
      rw [List.length_nil] at hstop
      rw [takesAway_cons, takesAway_of_passed h, decide_eq_false (show ¬(pos : Int) < e.stop by omega), Bool.and_false]
      rfl
    have hpassed : ∀ f ∈ e :: edits, f.start < (pos + 1 : Nat) ∧ f.stop ≤ (pos + 1 : Nat) := by
      refine List.forall_mem_cons.mpr ⟨?_, passed_succ h⟩
      rw [List.length_nil] at hstop
      omega
    cases back with
    | nil => rw [List.append_nil, List.append_nil, atOnce, htext]
    | cons c back =>
      rw [List.nil_append, atOnce, htext, hkept, atOnce_of_passed hpassed]
      rfl

theorem atOnce_front (h : ∀ i < pos + front.length, startingAt others i = startingAt edits i ∧
      takesAway others i = takesAway edits i)
    (hrest : atOnce others (pos + front.length) old = atOnce edits (pos + front.length) back) :
    atOnce others pos (front ++ old) = atOnce edits pos (front ++ back) := by
  induction front generalizing pos with
  | nil => exact hrest
  | cons c front ih =>
    have hlen : pos + (c :: front).length = pos + 1 + front.length := by
      rw [List.length_cons]
      omega
    rw [hlen] at h hrest
    obtain ⟨hstart, htake⟩ := h pos (by omega)
    rw [List.cons_append, List.cons_append, atOnce, atOnce, hstart, htake, ih h hrest]

theorem atOnce_apply {source : Text} (he : e.Fits source) (h : ∀ f ∈ edits, f.start < e.start ∧ f.stop ≤ e.start) :
    atOnce edits 0 (e.apply source) = atOnce (e :: edits) 0 source := by
  obtain ⟨front, old, back, hs, ha, hfront, hold⟩ := exists_parts he.start he.ordered he.stop
  rw [hfront] at h
  rw [ha, hs]
  refine atOnce_front (fun i hi => ?_) ?_
  · have hlt : (i : Int) < e.start := by omega
    rw [startingAt_cons, if_neg (by omega), takesAway_cons, decide_eq_false (by omega)]
    exact ⟨rfl, rfl⟩
  · rw [Nat.zero_add, atOnce_of_passed h, atOnce_at h hfront hold]

end Pass

section Orders

variable {e : TextEdit} {edits others : List TextEdit} {source : Text}

theorem Apart.symm {e f : TextEdit} (h : Apart e f) : Apart f e := Or.symm h

theorem foldl_apply (hfit : ∀ e ∈ edits, e.Fits source)
    (h : edits.Pairwise fun e f => f.start < e.start ∧ f.stop ≤ e.start) :
    edits.foldl (fun text e => e.apply text) source = atOnce edits 0 source := by
  induction edits generalizing source with
  | nil => exact (atOnce_of_passed (fun _ he => absurd he List.not_mem_nil) source).symm
  | cons e edits ih =>
    obtain ⟨hlast, hrest⟩ := List.pairwise_cons.mp h
    obtain ⟨he, hedits⟩ := List.forall_mem_cons.mp hfit
    have hlen := length_apply he.start he.ordered he.stop
    have hfit' : ∀ f ∈ edits, f.Fits (e.apply source) := by
      intro f hf
      refine ⟨(hedits f hf).start, (hedits f hf).ordered, ?_⟩
      have hstop := (hlast f hf).2
      have hstart := he.ordered
      rw [hlen, growth]
      have := he.stop
      omega
    rw [List.foldl_cons, ih hfit' hrest, atOnce_apply he hlast]

theorem atOnce_perm (hapart : edits.Pairwise Apart) (hperm : others.Perm edits) (pos : Nat) (text : Text) :
    atOnce others pos text = atOnce edits pos text := by
  have hstart (i : Nat) : startingAt others i = startingAt edits i := by
    have hne : (edits.filter fun e => e.start = (i : Int)).Pairwise Apart := hapart.filter _
    have hne' : (others.filter fun e => e.start = (i : Int)).Pairwise Apart :=
      (hperm.pairwise_iff Apart.symm).mpr hapart |>.filter _
    -- Two edits that keep clear of each other never start at one place.
    have heq := (hperm.filter fun e => e.start = (i : Int)).eq_of_pairwise (fun e f he hf hef _ => by
      have hi := (List.mem_filter.mp he).2
      have hj := (List.mem_filter.mp hf).2
      simp only [decide_eq_true_eq] at hi hj
      rcases hef with hlt | hlt <;> omega) hne' hne
    rw [startingAt, heq, startingAt]
  have htake (i : Nat) : takesAway others i = takesAway edits i := hperm.any_eq
  induction text generalizing pos with
  | nil => exact hstart pos
  | cons c text ih => rw [atOnce, atOnce, hstart, htake, ih]

/-- Edits that keep clear of each other are made as if all were made at once, in whatever order they are listed. -/
theorem applyAll_eq_atOnce (hfit : ∀ e ∈ edits, e.Fits source) (hapart : edits.Pairwise Apart)
    (hperm : others.Perm edits) : applyAll others source = atOnce edits 0 source := by
  have hsorted : (others.insertionSort Leads).Perm edits := (List.perm_insertionSort Leads others).trans hperm
  have hpair : (others.insertionSort Leads).Pairwise fun e f => f.start < e.start ∧ f.stop ≤ e.start := by
    have hclear := (hsorted.pairwise_iff Apart.symm).mpr hapart
    apply (hclear.and (List.pairwise_insertionSort Leads others)).imp
    rintro e f ⟨hbefore | hbehind, hle⟩
    · exact absurd hle (Int.not_le.mpr hbefore.1)
    · exact hbehind
  rw [applyAll, foldr_insert, foldl_apply (fun e he => hfit e (hsorted.mem_iff.mp he)) hpair]
  exact atOnce_perm hapart hsorted 0 source

theorem applyAll_touching : applyAll [⟨1, 1, ['x']⟩, ⟨4, 5, ['E', 'E']⟩, ⟨0, 1, ['A', 'A']⟩] "abcdef".toList =
    "AAxbcdEEf".toList := by
  have hfit : ∀ e ∈ ([⟨0, 1, ['A', 'A']⟩, ⟨1, 1, ['x']⟩, ⟨4, 5, ['E', 'E']⟩] : List TextEdit), e.Fits "abcdef".toList := by
    intro e he
    simp only [List.mem_cons, List.not_mem_nil, or_false] at he
    obtain rfl | rfl | rfl := he <;> exact ⟨by decide, by decide, by decide⟩
  exact (applyAll_eq_atOnce hfit (by decide) (by decide)).trans (by decide)

end Orders

end TextEdit

end Literate
