import Literate.Code.Highlight
import Literate.Proofs.Text.Reading

namespace Literate.Code

def Triple.StandsAt (t : Triple) (text : Text) (i : Nat) : Prop := t.quotes <+: text.drop i

namespace State

def Awaits : State → Triple → Prop
  | none, _ => True
  | some kind, t => t = kind

def next : State → Triple → State
  | none, t => some t
  | some _, _ => none

def Passes (s : State) (front rest : Text) : Prop :=
  ∀ t, s.Awaits t → ∀ i < front.length, ¬t.StandsAt (front ++ rest) i

end State

namespace Triple

variable {t u : Triple} {text back : Text} {i : Nat}

theorem length_quotes (t : Triple) : t.quotes.length = 3 := by cases t <;> rfl

theorem newline_not_mem_quotes (t : Triple) : '\n' ∉ t.quotes := by cases t <;> decide

theorem not_mark_of_mem_quotes {c : Char} (h : c ∈ t.quotes) : isStringMark c = false := by
  have hall : t.quotes.all (isStringMark · == false) = true := by cases t <;> rfl
  exact eq_of_beq (List.all_eq_true.mp hall c h)

theorem standsAt_append (front : Text) : t.StandsAt (front ++ text) (front.length + i) ↔ t.StandsAt text i := by
  rw [StandsAt, List.drop_length_add_append, StandsAt]

theorem standsAt_quotes (front back : Text) (t : Triple) : t.StandsAt (front ++ (t.quotes ++ back)) front.length := by
  rw [StandsAt, List.drop_left]
  exact List.prefix_append _ _

theorem standsAt_newline (hi : i ≤ text.length) (rest : Text) :
    t.StandsAt (text ++ '\n' :: rest) i ↔ t.StandsAt text i := by
  rw [StandsAt, List.drop_append_of_le_length hi, StandsAt, ← List.isPrefixOf_iff_prefix,
    ← List.isPrefixOf_iff_prefix, Text.isPrefixOf_newline t.newline_not_mem_quotes]

theorem StandsAt.append (h : t.StandsAt text i) (rest : Text) : t.StandsAt (text ++ rest) i := by
  rw [StandsAt, List.drop_append]
  exact h.trans (List.prefix_append _ _)

theorem StandsAt.unique (ht : t.StandsAt text i) (hu : u.StandsAt text i) : t = u := by
  have hlen : t.quotes.length = u.quotes.length := by rw [length_quotes, length_quotes]
  have hq : t.quotes = u.quotes := (List.prefix_of_prefix_length_le ht hu hlen.le).eq_of_length hlen
  cases t <;> cases u <;> simp_all [quotes]

theorem StandsAt.mem_quotes (h : t.StandsAt text i) {c : Char} (hc : text[i]? = some c) : c ∈ t.quotes := by
  have hhead : (text.drop i)[0]? = some c := by rwa [List.getElem?_drop]
  rw [List.prefix_iff_getElem?.mp h 0 (by rw [length_quotes]; omega)] at hhead
  exact Option.some.inj hhead ▸ List.getElem_mem _

theorem at?_quotes (t : Triple) (back : Text) : at? (t.quotes ++ back) = some (t, back) := by cases t <;> rfl

theorem eq_of_at? (h : at? text = some (t, back)) : text = t.quotes ++ back := by
  obtain ⟨u, -, hu⟩ := List.exists_of_findSome?_eq_some h
  obtain ⟨rest, hrest, he⟩ := Option.map_eq_some_iff.mp hu
  obtain ⟨rfl, rfl⟩ := Prod.mk.inj he
  exact (List.append_eq_of_isPrefixOf?_eq_some hrest).symm

end Triple

namespace State

variable {s : State} {t : Triple} {c : Char} {front rest text back : Text}

theorem passes_cons : s.Passes (c :: front) rest ↔
    (∀ t, s.Awaits t → ¬t.StandsAt (c :: (front ++ rest)) 0) ∧ s.Passes front rest := by
  constructor
  · intro h
    exact ⟨fun t ht => h t ht 0 (Nat.succ_pos _), fun t ht i hi => h t ht (i + 1) (Nat.succ_lt_succ hi)⟩
  · rintro ⟨hfirst, h⟩ t ht i hi
    cases i with
    | zero => exact hfirst t ht
    | succ i => exact h t ht i (Nat.lt_of_succ_lt_succ hi)

theorem passes_or_exists_first (s : State) (text : Text) : s.Passes text [] ∨ ∃ front t back,
    text = front ++ (t.quotes ++ back) ∧ s.Awaits t ∧ s.Passes front (t.quotes ++ back) := by
  induction text with
  | nil => exact .inl fun t _ i hi => absurd hi (Nat.not_lt_zero i)
  | cons c text ih =>
    by_cases hfirst : ∃ t, s.Awaits t ∧ t.StandsAt (c :: text) 0
    · obtain ⟨t, ht, back, hback⟩ := hfirst
      exact .inr ⟨[], t, back, hback.symm, ht, fun u _ i hi => absurd hi (Nat.not_lt_zero i)⟩
    · have hnot : ∀ t, s.Awaits t → ¬t.StandsAt (c :: text) 0 := fun t ht h => hfirst ⟨t, ht, h⟩
      rcases ih with hpass | ⟨front, t, back, rfl, ht, hpass⟩
      · exact .inl (passes_cons.mpr ⟨by rwa [List.append_nil], hpass⟩)
      · exact .inr ⟨c :: front, t, back, rfl, ht, passes_cons.mpr ⟨hnot, hpass⟩⟩

theorem byQuotes {motive : State → Text → Prop} (passes : ∀ s text, Passes s text [] → motive s text)
    (first : ∀ s front t back, Awaits s t → Passes s front (t.quotes ++ back) → motive (next s t) back →
      motive s (front ++ (t.quotes ++ back))) (s : State) (text : Text) : motive s text := by
  induction hn : text.length using Nat.strong_induction_on generalizing s text with
  | _ n ih =>
    rcases passes_or_exists_first s text with hpass | ⟨front, t, back, rfl, ht, hpass⟩
    · exact passes s text hpass
    · have hlt : back.length < n := by
        rw [List.length_append, List.length_append, t.length_quotes] at hn
        omega
      exact first s front t back ht hpass (ih back.length hlt _ back rfl)

end State

namespace Triple

variable {t : Triple} {front rest text back : Text} {n : Nat}

theorem closedLength?_cons {c : Char} (h : ¬t.StandsAt (c :: text) 0) :
    t.closedLength? (c :: text) = (t.closedLength? text).map (· + 1) := by
  have hp : ¬t.quotes.isPrefixOf (c :: text) = true := fun hp => h (List.isPrefixOf_iff_prefix.mp hp)
  rw [closedLength?, indexOf?, if_neg hp, closedLength?, Option.map_map, Option.map_map]
  congr 1

theorem closedLength?_quotes (t : Triple) (back : Text) : t.closedLength? (t.quotes ++ back) = some 3 := by
  cases t <;> rfl

theorem closedLength?_of_passes (h : State.Passes (some t) text []) : t.closedLength? text = none := by
  induction text with
  | nil => cases t <;> rfl
  | cons c text ih =>
    obtain ⟨hfirst, hpass⟩ := State.passes_cons.mp h
    rw [List.append_nil] at hfirst
    rw [closedLength?_cons (hfirst t rfl), ih hpass]
    rfl

theorem closedLength?_of_first (h : State.Passes (some t) front (t.quotes ++ back)) :
    t.closedLength? (front ++ (t.quotes ++ back)) = some (front.length + 3) := by
  induction front with
  | nil => exact closedLength?_quotes t back
  | cons c front ih =>
    obtain ⟨hfirst, hpass⟩ := State.passes_cons.mp h
    rw [List.cons_append, closedLength?_cons (hfirst t rfl), ih hpass, List.length_cons]
    exact congrArg some (Nat.add_right_comm front.length 3 1)

theorem exists_more {lead : Text} (h : front ++ rest = lead ++ (t.quotes ++ back)) (hlen : lead.length + 3 ≤ front.length) :
    ∃ more, front = lead ++ (t.quotes ++ more) ∧ back = more ++ rest := by
  have hlead : lead ++ t.quotes <+: front :=
    List.prefix_of_prefix_length_le ⟨back, by rw [h, List.append_assoc]⟩ (List.prefix_append front rest)
      (by rw [List.length_append, length_quotes]; exact hlen)
  obtain ⟨more, rfl⟩ := hlead
  refine ⟨more, List.append_assoc _ _ _, ?_⟩
  simpa only [List.append_assoc, List.append_cancel_left_eq, eq_comm] using h

theorem closedLength?_front (h : t.closedLength? (front ++ rest) = some n) (hn : n ≤ front.length) :
    t.closedLength? front = some n := by
  rcases State.passes_or_exists_first (some t) (front ++ rest) with hpass | ⟨lead, u, back, he, rfl, hpass⟩
  · rw [closedLength?_of_passes hpass] at h
    cases h
  · rw [he, closedLength?_of_first hpass] at h
    obtain rfl := Option.some.inj h
    obtain ⟨more, rfl, rfl⟩ := exists_more he hn
    refine closedLength?_of_first fun v hv i hi hstands => hpass v hv i hi ?_
    have hlong := hstands.append rest
    rwa [List.append_assoc, List.append_assoc] at hlong

end Triple

section Strings

variable {before : Option Char} {marks front text back : Text} {t : Triple}

def Marks (marks : Text) : Prop := (∀ c ∈ marks, isStringMark c = true) ∧ marks.length ≤ 2

theorem stringMarks?_quotes (h : Marks marks) (t : Triple) (back : Text) :
    stringMarks? (marks ++ (t.quotes ++ back)) = some (marks.length, t.quotes ++ back) := by
  have htake : (marks ++ (t.quotes ++ back)).takeWhile isStringMark = marks := by
    rw [List.takeWhile_append_of_pos h.1]
    cases t <;> simp [Triple.quotes, isStringMark]
  rw [stringMarks?, htake, if_pos h.2, List.drop_left]

theorem tripleString_marked (h : Marks marks) (before : Option Char) (t : Triple) (back : Text) :
    tripleString before (marks ++ (t.quotes ++ back)) = some (match t.closedLength? back with
      | some n => (marks.length + 3 + n, none)
      | none => ((marks ++ (t.quotes ++ back)).length, some t)) := by
  rw [tripleString, stringMarks?_quotes h, Option.bind_some]
  dsimp only
  rw [Triple.at?_quotes]
  rfl

theorem exists_of_tripleString (h : tripleString before text ≠ none) :
    ∃ (marks : Text) (t : Triple) (back : Text), Marks marks ∧ text = marks ++ (t.quotes ++ back) := by
  obtain ⟨found, hfound⟩ := Option.ne_none_iff_exists'.mp h
  obtain ⟨⟨k, rest⟩, hmarks, hfound⟩ := Option.bind_eq_some_iff.mp hfound
  obtain ⟨⟨t, back⟩, hat, -⟩ := Option.map_eq_some_iff.mp hfound
  rw [stringMarks?] at hmarks
  split at hmarks
  · rename_i hlen
    obtain ⟨-, rfl⟩ := Prod.mk.inj (Option.some.inj hmarks)
    have hprefix := List.takeWhile_prefix isStringMark (l := text)
    refine ⟨text.takeWhile isStringMark, t, back, ⟨fun c hc => List.mem_takeWhile_imp hc, hlen⟩, ?_⟩
    rw [← Triple.eq_of_at? hat]
    exact (List.prefix_iff_eq_append.mp hprefix).symm
  · cases hmarks

theorem exists_succ_of_tripleString {n : Nat} {v : Option Triple} (h : tripleString before text = some (n, v)) :
    ∃ k, n = k + 1 := by
  obtain ⟨marks, t, back, hm, rfl⟩ := exists_of_tripleString (h ▸ Option.some_ne_none _)
  rw [tripleString_marked hm] at h
  apply Nat.exists_eq_add_one.mpr
  cases hclosed : t.closedLength? back with
  | none =>
    rw [hclosed] at h
    rw [← (Prod.mk.inj (Option.some.inj h)).1, List.length_append, List.length_append, t.length_quotes]
    omega
  | some k =>
    rw [hclosed] at h
    rw [← (Prod.mk.inj (Option.some.inj h)).1]
    omega

theorem marks_of_first (hm : Marks marks) (hpass : State.Passes none front (t.quotes ++ back)) {u : Triple} {rest : Text}
    (h : front ++ (t.quotes ++ back) = marks ++ (u.quotes ++ rest)) : front = marks ∧ t = u ∧ back = rest := by
  have hu : u.StandsAt (front ++ (t.quotes ++ back)) marks.length := h ▸ Triple.standsAt_quotes marks rest u
  have ht : t.StandsAt (marks ++ (u.quotes ++ rest)) front.length := h ▸ Triple.standsAt_quotes front back t
  have hle : front.length ≤ marks.length := Nat.le_of_not_lt fun hlt => hpass u trivial _ hlt hu
  have hge : marks.length ≤ front.length := by
    refine Nat.le_of_not_lt fun hlt => ?_
    have hc : (marks ++ (u.quotes ++ rest))[front.length]? = some marks[front.length] := by
      rw [List.getElem?_append_left hlt, List.getElem?_eq_getElem hlt]
    have hmark := hm.1 _ (List.getElem_mem hlt)
    rw [Triple.not_mark_of_mem_quotes (ht.mem_quotes hc)] at hmark
    cases hmark
  obtain ⟨rfl, hrest⟩ := List.append_inj h (Nat.le_antisymm hle hge)
  obtain rfl := ht.unique (Triple.standsAt_quotes front rest u)
  exact ⟨rfl, rfl, List.append_cancel_left hrest⟩

end Strings

section States

variable {s : State} {t : Triple} {front text back : Text}

def leaves (strings : List (Match (Option Triple))) : State := (openTriple? strings).bind Match.value

theorem leaves_cons (m : Match (Option Triple)) (ms : List (Match (Option Triple))) :
    leaves (m :: ms) = m.value.or (leaves ms) := by
  cases hv : m.value with
  | none => simp [leaves, openTriple?, hv]
  | some t => simp [leaves, openTriple?, hv]

theorem leaves_searchFrom (skip pos : Nat) (before : Option Char) (text : Text) :
    leaves (tripleString.searchFrom skip pos before text) = codeState (text.drop skip) := by
  induction text generalizing skip pos before with
  | nil => rw [List.drop_nil]; rfl
  | cons c text ih =>
    cases skip with
    | succ n => exact ih n (pos + 1) (some c)
    | zero =>
      -- The pattern does not look at what stands in front, so the search starts anew behind each string.
      have hpattern : tripleString before (c :: text) = tripleString none (c :: text) := rfl
      change _ = leaves (tripleString.searchFrom 0 0 none (c :: text))
      rw [Pattern.searchFrom, Pattern.searchFrom, hpattern]
      cases tripleString none (c :: text) with
      | none => exact (ih 0 _ _).trans (ih 0 _ _).symm
      | some found => rw [leaves_cons, leaves_cons, ih, ih]

theorem codeState_of_none {c : Char} (h : tripleString none (c :: text) = none) :
    codeState (c :: text) = codeState text := by
  change leaves (tripleString.searchFrom 0 0 none (c :: text)) = _
  rw [Pattern.searchFrom, h]
  exact leaves_searchFrom 0 1 (some c) text

theorem codeState_of_some {n : Nat} {v : Option Triple} (h : tripleString none text = some (n, v)) :
    codeState text = v.or (codeState (text.drop n)) := by
  obtain ⟨k, rfl⟩ := exists_succ_of_tripleString h
  cases text with
  | nil => cases h
  | cons c text =>
    change leaves (tripleString.searchFrom 0 0 none (c :: text)) = _
    rw [Pattern.searchFrom, h]
    simp only [leaves_cons, leaves_searchFrom, Nat.add_sub_cancel, List.drop_succ_cons]

theorem codeState_marked {marks : Text} (h : Marks marks) (t : Triple) (back : Text) :
    codeState (marks ++ (t.quotes ++ back)) = lineState (some t) back := by
  have hfound := tripleString_marked h none t back
  rw [lineState]
  cases hclosed : t.closedLength? back with
  | none =>
    rw [hclosed] at hfound
    rw [codeState_of_some hfound]
    rfl
  | some n =>
    have hdrop : (marks ++ (t.quotes ++ back)).drop (marks.length + 3 + n) = back.drop n := by
      rw [Nat.add_assoc, List.drop_length_add_append, ← t.length_quotes, List.drop_length_add_append]
    rw [hclosed] at hfound
    rw [codeState_of_some hfound, hdrop]
    rfl

theorem lineState_of_passes (h : s.Passes text []) : lineState s text = s := by
  cases s with
  | some kind => rw [lineState, Triple.closedLength?_of_passes h]
  | none =>
    induction text with
    | nil => rfl
    | cons c text ih =>
      obtain ⟨-, hpass⟩ := State.passes_cons.mp h
      have hnone : tripleString none (c :: text) = none := by
        by_contra hsome
        obtain ⟨marks, t, back, -, he⟩ := exists_of_tripleString hsome
        have hstands := Triple.standsAt_quotes marks back t
        have hlen := congrArg List.length he
        rw [List.length_append, List.length_append, t.length_quotes] at hlen
        rw [← he, ← List.append_nil (c :: text)] at hstands
        exact h t trivial marks.length (by omega) hstands
      rw [lineState, codeState_of_none hnone]
      exact ih hpass

theorem lineState_of_first (ht : s.Awaits t) (h : s.Passes front (t.quotes ++ back)) :
    lineState s (front ++ (t.quotes ++ back)) = lineState (s.next t) back := by
  cases s with
  | some kind =>
    obtain rfl : t = kind := ht
    have hdrop : (front ++ (t.quotes ++ back)).drop (front.length + 3) = back := by
      rw [List.drop_length_add_append, ← t.length_quotes, List.drop_left]
    rw [lineState, Triple.closedLength?_of_first h]
    simp only [hdrop]
    rfl
  | none =>
    induction front with
    | nil =>
      have hmarks : Marks [] := ⟨by simp, by simp⟩
      exact codeState_marked hmarks t back
    | cons c front ih =>
      obtain ⟨-, hpass⟩ := State.passes_cons.mp h
      cases hfound : tripleString none (c :: (front ++ (t.quotes ++ back))) with
      | none => rw [lineState, List.cons_append, codeState_of_none hfound]; exact ih hpass
      | some found =>
        obtain ⟨marks, u, rest, hm, he⟩ := exists_of_tripleString (hfound ▸ Option.some_ne_none found)
        obtain ⟨hfront, rfl, rfl⟩ := marks_of_first hm h he
        rw [hfront]
        exact codeState_marked hm t back

end States

end Literate.Code
