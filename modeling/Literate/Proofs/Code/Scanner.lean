import Mathlib.Logic.Relation
import Literate.Proofs.Code.Triple

/-!
Carrying the state from line to line comes to the same as scanning the whole text once: a scanner goes from one place
behind tripled quotes to the next, and the ends of the lines are no places of its own.
-/

namespace Literate.Code

/-- One jump of a scanner: in code behind the first tripled quotes from its position on, which open a string, and in a
string behind the first ones of the same kind, which close it. -/
inductive Jump (text : Text) : Nat × State → Nat × State → Prop
  | enter {pos place : Nat} {t : Triple} (behind : pos ≤ place) (stands : t.StandsAt text place)
      (first : ∀ u : Triple, ∀ i, pos ≤ i → i < place → ¬u.StandsAt text i) : Jump text (pos, none) (place + 3, some t)
  | leave {pos place : Nat} {t : Triple} (behind : pos ≤ place) (stands : t.StandsAt text place)
      (first : ∀ i, pos ≤ i → i < place → ¬t.StandsAt text i) : Jump text (pos, some t) (place + 3, none)

def ScansTo (text : Text) (start : State) (place : Nat) (s : State) : Prop :=
  ∃ pos ≤ place, Relation.ReflTransGen (Jump text) (0, start) (pos, s) ∧
    ∀ next, Jump text (pos, s) next → place < next.1

section Jumps

variable {text : Text} {pos place : Nat} {s start : State} {a b c : Nat × State}

theorem jump_iff : Jump text (pos, s) b ↔ ∃ place t, pos ≤ place ∧ s.Awaits t ∧ t.StandsAt text place ∧
    (∀ u, s.Awaits u → ∀ i, pos ≤ i → i < place → ¬u.StandsAt text i) ∧ b = (place + 3, s.next t) := by
  constructor
  · rintro (⟨behind, stands, first⟩ | ⟨behind, stands, first⟩)
    · exact ⟨_, _, behind, trivial, stands, fun u _ => first u, rfl⟩
    · refine ⟨_, _, behind, rfl, stands, ?_, rfl⟩
      rintro u rfl
      exact first
  · rintro ⟨place, t, behind, awaits, stands, first, rfl⟩
    cases s with
    | none => exact .enter behind stands fun u => first u trivial
    | some kind =>
      obtain rfl : t = kind := awaits
      exact .leave behind stands (first t rfl)

theorem Jump.lt (h : Jump text a b) : a.1 < b.1 := by cases h <;> (dsimp only; omega)

theorem jump_rightUnique (text : Text) : Relator.RightUnique (Jump text) := by
  rintro ⟨pos, s⟩ b c hb hc
  obtain ⟨i, t, hi, ht, hti, hfirst, rfl⟩ := jump_iff.mp hb
  obtain ⟨j, u, hj, hu, huj, hfirst', rfl⟩ := jump_iff.mp hc
  rcases Nat.lt_trichotomy i j with hlt | rfl | hlt
  · exact absurd hti (hfirst' t ht i hi hlt)
  · rw [hti.unique huj]
  · exact absurd huj (hfirst u hu j hj hlt)

theorem le_of_reflTransGen (h : Relation.ReflTransGen (Jump text) a b) : a.1 ≤ b.1 := by
  induction h with
  | refl => exact Nat.le_refl _
  | tail _ hjump ih => exact ih.trans hjump.lt.le

theorem ScansTo.unique {r : State} (hs : ScansTo text start place s) (hr : ScansTo text start place r) : s = r := by
  obtain ⟨i, hi, hreach, hlast⟩ := hs
  obtain ⟨j, hj, hreach', hlast'⟩ := hr
  -- Jumps only go forward, so from where a scanner rests none leads to a place in front of the one in question.
  have stay : ∀ {k l : Nat} {p q : State}, l ≤ place → (∀ next, Jump text (k, p) next → place < next.1) →
      Relation.ReflTransGen (Jump text) (k, p) (l, q) → p = q := by
    intro k l p q hl hlast h
    rcases h.cases_head with he | ⟨next, hjump, hrest⟩
    · exact congrArg Prod.snd he
    · exact absurd (le_of_reflTransGen hrest) (by have := hlast next hjump; dsimp only; omega)
  rcases hreach.total_of_right_unique (jump_rightUnique text) hreach' with h | h
  · exact stay hj hlast h
  · exact (stay hi hlast' h).symm

end Jumps

def Rests (text : Text) (start : State) (place : Nat) (s : State) : Prop :=
  ∃ pos ≤ place, Relation.ReflTransGen (Jump text) (0, start) (pos, s) ∧
    ∀ t, s.Awaits t → ∀ i, pos ≤ i → i < place → ¬t.StandsAt text i

section Lines

variable {text front line back : Text} {start s r : State} {place : Nat}

theorem Rests.scansTo (h : Rests text start place s) : ScansTo text start place s := by
  obtain ⟨pos, hpos, hreach, hpass⟩ := h
  refine ⟨pos, hpos, hreach, fun next hjump => ?_⟩
  obtain ⟨i, t, hi, ht, hti, -, rfl⟩ := jump_iff.mp hjump
  have hle : place ≤ i := Nat.le_of_not_lt fun hlt => hpass t ht i hi hlt hti
  dsimp only
  omega

def EndsLine (back : Text) : Prop := back = [] ∨ ∃ rest, back = '\n' :: rest

theorem EndsLine.passes (hb : EndsLine back) (h : s.Passes front line) : s.Passes front (line ++ back) := by
  rcases hb with rfl | ⟨rest, rfl⟩
  · rwa [List.append_nil]
  · -- No quotes reach over a newline.
    intro t ht i hi hstands
    rw [← List.append_assoc] at hstands
    exact h t ht i hi ((Triple.standsAt_newline (by rw [List.length_append]; omega) rest).mp hstands)

theorem Rests.passes (htext : text = front ++ (line ++ back)) (h : Rests text start front.length s)
    (hp : s.Passes line back) : Rests text start (front ++ line).length s := by
  obtain ⟨pos, hpos, hreach, hpass⟩ := h
  rw [List.length_append]
  refine ⟨pos, by omega, hreach, fun t ht i hi hlt => ?_⟩
  by_cases hfront : i < front.length
  · exact hpass t ht i hi hfront
  · obtain ⟨k, rfl⟩ := Nat.exists_eq_add_of_le (Nat.le_of_not_lt hfront)
    rw [htext, Triple.standsAt_append]
    exact hp t ht k (by omega)

theorem Rests.jump {t : Triple} (htext : text = front ++ (t.quotes ++ back)) (h : Rests text start front.length s)
    (ht : s.Awaits t) : Rests text start (front ++ t.quotes).length (s.next t) := by
  obtain ⟨pos, hpos, hreach, hpass⟩ := h
  have hjump : Jump text (pos, s) (front.length + 3, s.next t) :=
    jump_iff.mpr ⟨front.length, t, hpos, ht, htext ▸ Triple.standsAt_quotes front back t, hpass, rfl⟩
  rw [List.length_append, t.length_quotes]
  exact ⟨_, Nat.le_refl _, hreach.tail hjump, fun u _ i hi hlt => absurd hlt (Nat.not_lt_of_le hi)⟩

theorem Rests.over {body : Text} (htext : text = front ++ (body ++ back)) (hb : EndsLine back)
    (h : Rests text start front.length s) : Rests text start (front ++ body).length (lineState s body) := by
  induction s, body using State.byQuotes generalizing front with
  | passes s body hp =>
    rw [lineState_of_passes hp]
    exact h.passes htext (hb.passes hp)
  | first s lead t rest ht hp ih =>
    rw [lineState_of_first ht hp]
    have hlead : Rests text start (front ++ lead).length s :=
      h.passes (by rw [htext, List.append_assoc]) (hb.passes hp)
    have hquotes : Rests text start (front ++ lead ++ t.quotes).length (s.next t) :=
      hlead.jump (show text = front ++ lead ++ (t.quotes ++ (rest ++ back)) by simp only [htext, List.append_assoc]) ht
    have hrest := ih (by simp only [htext, List.append_assoc]) hquotes
    simpa only [List.append_assoc] using hrest

theorem Rests.newline (htext : text = front ++ '\n' :: back) (h : Rests text start front.length s) :
    Rests text start (front ++ ['\n']).length s := by
  have hpass : s.Passes ['\n'] back := by
    intro t _ i hi hstands
    obtain rfl : i = 0 := Nat.lt_one_iff.mp hi
    exact t.newline_not_mem_quotes (hstands.mem_quotes rfl)
  exact h.passes htext hpass

theorem exists_endsLine (body : Text) (lines : List Text) :
    ∃ back, Text.joinLines (body :: lines) = body ++ back ∧ EndsLine back := by
  cases lines with
  | nil => exact ⟨[], by rw [Text.joinLines_singleton, List.append_nil], .inl rfl⟩
  | cons next lines => exact ⟨_, Text.joinLines_cons body (List.cons_ne_nil _ _), .inr ⟨_, rfl⟩⟩

theorem Rests.lines {lines : List Text} {k : Nat} (htext : text = front ++ Text.joinLines lines)
    (h : Rests text start front.length s) (hr : (statesAfter s lines)[k]? = some r) :
    Rests text start (front ++ Text.joinLines (lines.take (k + 1))).length r := by
  induction lines generalizing front s k with
  | nil => cases hr
  | cons body lines ih =>
    obtain ⟨back, hjoin, hb⟩ := exists_endsLine body lines
    have hline := h.over (htext.trans (by rw [hjoin])) hb
    cases k with
    | zero =>
      obtain rfl : lineState s body = r := Option.some.inj hr
      rwa [List.take_succ_cons, List.take_zero, Text.joinLines_singleton]
    | succ k =>
      have hne : lines ≠ [] := by rintro rfl; cases hr
      have htake : lines.take (k + 1) ≠ [] := by simpa using hne
      rw [Text.joinLines_cons body hne] at htext
      have hnext : text = (front ++ body) ++ '\n' :: Text.joinLines lines := by rw [htext, List.append_assoc]
      have hrest := ih (hnext.trans (by simp)) (hline.newline hnext) hr
      rw [List.take_succ_cons, Text.joinLines_cons body htake]
      simpa using hrest

end Lines

section States

variable {start s : State} {lines : List Text} {k : Nat}

theorem map_fst_paintLines (start : State) (lines : List Text) :
    (paintLines start lines).map Prod.fst = statesAfter start lines := by
  induction lines generalizing start with
  | nil => rfl
  | cons line lines ih => exact congrArg _ (ih _)

theorem length_statesAfter (start : State) (lines : List Text) : (statesAfter start lines).length = lines.length := by
  induction lines generalizing start with
  | nil => rfl
  | cons line lines ih => exact congrArg (· + 1) (ih _)

/-- The state that a line leaves is the one in which the scanner of the joined lines is at its end. -/
theorem paintLines_scansTo_iff (n : Int) (lines : List Text) (k : Nat) (s : State) :
    ((paintLines (.ofNumber n) lines)[k]?.map Prod.fst = some s) ↔ k < lines.length ∧
      ScansTo (Text.joinLines lines) (.ofNumber n) (Text.joinLines (lines.take (k + 1))).length s := by
  have hstart (start : State) : Rests (Text.joinLines lines) start ([] : Text).length start :=
    ⟨0, Nat.le_refl _, .refl, fun _ _ i _ hi => absurd hi (Nat.not_lt_zero i)⟩
  rw [← List.getElem?_map, map_fst_paintLines]
  constructor
  · intro hs
    have hk := (List.getElem?_eq_some_iff.mp hs).1
    rw [length_statesAfter] at hk
    exact ⟨hk, (Rests.lines rfl (hstart _) hs).scansTo⟩
  · rintro ⟨hk, hs⟩
    rw [← length_statesAfter (.ofNumber n)] at hk
    have hr := List.getElem?_eq_getElem hk
    rw [hr, hs.unique (Rests.lines rfl (hstart _) hr).scansTo]

end States

end Literate.Code
