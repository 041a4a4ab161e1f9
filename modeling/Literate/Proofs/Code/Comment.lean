import Literate.Proofs.Code.Triple

namespace Literate.Code

section Runs

variable {code : Text} {c n : Nat} {r : Run}

theorem format_of_mem_basicRuns (h : r ∈ basicRuns code) : r.format ≠ commentFormat := by
  have hrules : ∀ rule ∈ rules, rule.2 ≠ commentFormat := by decide
  rcases List.mem_append.mp h with h | h
  · obtain ⟨rule, hrule, hr⟩ := List.mem_flatMap.mp h
    obtain ⟨m, -, rfl⟩ := List.mem_map.mp hr
    exact hrules rule hrule
  · obtain ⟨m, -, rfl⟩ := List.mem_map.mp h
    exact show strong .sand ≠ commentFormat by decide

theorem format_of_mem_strings {α : Type} {ms : List (Match α)} (h : r ∈ ms.map (runOf stringFormat)) :
    r.format ≠ commentFormat := by
  obtain ⟨m, -, rfl⟩ := List.mem_map.mp h
  exact show stringFormat ≠ commentFormat by decide

theorem eq_of_mem_commentRuns {start : Nat} (h : ⟨c, n, commentFormat⟩ ∈ commentRuns code start) : c = start := by
  rcases List.mem_cons.mp h with he | h
  · exact (Run.mk.inj he).1
  · obtain ⟨m, -, he⟩ := List.mem_map.mp h
    exact absurd (Run.mk.inj he).2.2 (show strong .amber ≠ commentFormat by decide)

theorem commentOf?_of_mem_codeRuns (h : ⟨c, n, commentFormat⟩ ∈ codeRuns code) : commentOf? code = some c := by
  rcases List.mem_append.mp h with h | h
  · rcases List.mem_append.mp h with h | h
    · rcases List.mem_append.mp h with h | h
      · exact absurd rfl (format_of_mem_basicRuns h)
      · exact absurd rfl (format_of_mem_strings h)
    · exact absurd rfl (format_of_mem_strings h)
  · cases hc : commentOf? code with
    | none =>
      rw [hc] at h
      cases h
    | some start =>
      rw [hc] at h
      rw [eq_of_mem_commentRuns h]

end Runs

section Place

variable {α β : Type} {strings : List (Match α)} {triples : List (Match β)} {pos c : Nat} {text code : Text}

theorem exists_of_commentStart? (h : commentStart? strings triples pos text = some c) : ∃ front back,
    text = front ++ '#' :: back ∧ c = pos + front.length ∧ ∀ m ∈ triples, m.start ≤ c → m.stop ≤ c := by
  induction text generalizing pos with
  | nil => cases h
  | cons d rest ih =>
    rw [commentStart?] at h
    split at h
    · rename_i hfound
      obtain rfl := Option.some.inj h
      obtain ⟨rfl, hfree⟩ := hfound
      refine ⟨[], rest, rfl, rfl, fun m hm hle => Nat.le_of_not_lt fun hlt => ?_⟩
      have hcovered : triples.any (fun m => m.start ≤ pos && pos < m.stop) = true :=
        List.any_eq_true.mpr ⟨m, hm, by simp [hle, hlt]⟩
      simp [hcovered] at hfree
    · obtain ⟨front, back, rfl, rfl, hm⟩ := ih h
      exact ⟨d :: front, back, rfl, by rw [List.length_cons]; omega, hm⟩

theorem exists_of_commentOf? (h : commentOf? code = some c) : ∃ front back, code = front ++ '#' :: back ∧
    c = front.length ∧ (∀ m ∈ tripleString.search code, m.value = none → m.start ≤ c → m.stop ≤ c) ∧
    ∀ m, openTriple? (tripleString.search code) = some m → c < m.start := by
  obtain ⟨front, back, hscope, hc, hclosed⟩ := exists_of_commentStart? h
  rw [Nat.zero_add] at hc
  have hshut : ∀ m ∈ tripleString.search code, m.value = none → m.start ≤ c → m.stop ≤ c :=
    fun m hm hv => hclosed m (List.mem_filter.mpr ⟨hm, by rw [hv]; rfl⟩)
  rw [commentScope] at hscope
  cases hopen : openTriple? (tripleString.search code) with
  | none =>
    rw [hopen] at hscope
    exact ⟨front, back, hscope, hc, hshut, fun m hm => by cases hm⟩
  | some m =>
    rw [hopen] at hscope
    have hlen := congrArg List.length hscope
    simp only [List.length_take, List.length_append, List.length_cons] at hlen
    refine ⟨front, back ++ code.drop m.start, ?_, hc, hshut, ?_⟩
    · rw [← List.cons_append, ← List.append_assoc, ← hscope, List.take_append_drop]
    · rintro _ ⟨⟩
      omega

end Place

section Front

variable {front back : Text} {before : Option Char} {n skip pos : Nat}

theorem tripleString_front_none (rest : Text) (h : tripleString before (front ++ rest) = none) :
    tripleString before front = none := by
  by_contra hsome
  obtain ⟨marks, t, back, hm, rfl⟩ := exists_of_tripleString hsome
  rw [List.append_assoc, List.append_assoc, tripleString_marked hm] at h
  cases h

theorem tripleString_front_closed (rest : Text) (h : tripleString before (front ++ rest) = some (n, none))
    (hn : n ≤ front.length) : tripleString before front = some (n, none) := by
  obtain ⟨marks, t, back, hm, he⟩ := exists_of_tripleString (h ▸ Option.some_ne_none _)
  rw [he, tripleString_marked hm] at h
  cases hk : t.closedLength? back with
  | none =>
    rw [hk] at h
    cases h
  | some k =>
    rw [hk] at h
    obtain ⟨rfl, -⟩ := Prod.mk.inj (Option.some.inj h)
    obtain ⟨more, rfl, rfl⟩ := Triple.exists_more he (by omega)
    simp only [List.length_append, Triple.length_quotes] at hn
    rw [tripleString_marked hm, Triple.closedLength?_front hk (by omega)]

theorem codeState_split (hskip : skip ≤ front.length)
    (hclosed : ∀ m ∈ tripleString.searchFrom skip pos before (front ++ '#' :: back), m.value = none →
      m.start ≤ pos + front.length → m.stop ≤ pos + front.length)
    (hopen : ∀ m, openTriple? (tripleString.searchFrom skip pos before (front ++ '#' :: back)) = some m →
      pos + front.length < m.start) :
    codeState (front.drop skip) = none ∧ codeState ((front ++ '#' :: back).drop skip) = codeState ('#' :: back) := by
  induction front generalizing skip pos before with
  | nil =>
    obtain rfl : skip = 0 := Nat.le_zero.mp hskip
    exact ⟨rfl, rfl⟩
  | cons c front ih =>
    have hlen : pos + (c :: front).length = pos + 1 + front.length := by rw [List.length_cons]; omega
    rw [hlen, List.cons_append] at hclosed hopen
    cases skip with
    | succ k => exact ih (Nat.le_of_succ_le_succ hskip) hclosed hopen
    | zero =>
      rw [Pattern.searchFrom] at hclosed hopen
      cases hp : tripleString before (c :: (front ++ '#' :: back)) with
      | none =>
        rw [hp] at hclosed hopen
        have hfront : tripleString none (c :: front) = none := tripleString_front_none ('#' :: back) hp
        rw [List.drop_zero, List.drop_zero, List.cons_append, codeState_of_none hfront, codeState_of_none hp]
        exact ih (Nat.zero_le _) hclosed hopen
      | some found =>
        obtain ⟨n, v⟩ := found
        rw [hp] at hclosed hopen
        obtain ⟨k, rfl⟩ := exists_succ_of_tripleString hp
        cases v with
        | some t =>
          have hlt := hopen ⟨pos, k + 1, some t⟩ rfl
          dsimp only at hlt
          omega
        | none =>
          have hk : k ≤ front.length := by
            have hstop := hclosed ⟨pos, k + 1, none⟩ List.mem_cons_self rfl (by dsimp only; omega)
            simp only [Match.stop] at hstop
            omega
          have hfront : tripleString none (c :: front) = some (k + 1, none) :=
            tripleString_front_closed ('#' :: back) hp (Nat.succ_le_succ hk)
          rw [List.drop_zero, List.drop_zero, List.cons_append, codeState_of_some hfront, codeState_of_some hp]
          exact ih hk (fun m hm => hclosed m (List.mem_cons_of_mem _ hm)) hopen

end Front

theorem tripleString_sign (before : Option Char) (back : Text) : tripleString before ('#' :: back) = none := by
  by_contra hsome
  obtain ⟨marks, t, rest, hm, he⟩ := exists_of_tripleString hsome
  cases marks with
  | nil => cases t <;> cases he
  | cons c marks =>
    obtain ⟨rfl, -⟩ := List.cons.inj he
    exact absurd (hm.1 _ List.mem_cons_self) (by decide)

/-- The text of a comment is read on as code. So a comment leaves what the code in front of it would leave exactly if
its own text, taken for code, opens no string. -/
theorem comment_leaves_iff {line : Text} {c n : Nat} (h : ⟨c, n, commentFormat⟩ ∈ lineRuns none line) :
    lineState none (line.take c) = none ∧ lineState none line = lineState none (line.drop (c + 1)) ∧
      (lineState none line = lineState none (line.take c) ↔ lineState none (line.drop (c + 1)) = none) := by
  obtain ⟨front, back, rfl, rfl, hclosed, hopen⟩ := exists_of_commentOf? (commentOf?_of_mem_codeRuns h)
  rw [← Nat.zero_add front.length] at hclosed hopen
  obtain ⟨hfront, hback⟩ := codeState_split (Nat.zero_le _) hclosed hopen
  have htake : (front ++ '#' :: back).take front.length = front := List.take_left
  have hdrop : (front ++ '#' :: back).drop (front.length + 1) = back := by
    rw [List.drop_length_add_append]
    rfl
  have hwhole : lineState none (front ++ '#' :: back) = lineState none back :=
    hback.trans (codeState_of_none (tripleString_sign none back))
  have hnone : lineState none front = none := hfront
  rw [htake, hdrop, hwhole, hnone]
  exact ⟨rfl, rfl, Iff.rfl⟩

theorem comment_leaves_open : ⟨0, 2, commentFormat⟩ ∈ lineRuns none "# '''".toList ∧
    lineState none "# '''".toList = some .single ∧ lineState none ("# '''".toList.take 0) = none := by
  have hstart : commentOf? "# '''".toList = some 0 := by decide
  have h : ⟨0, 2, commentFormat⟩ ∈ lineRuns none "# '''".toList := by
    refine List.mem_append_right _ ?_
    rw [hstart]
    exact List.mem_cons_self
  obtain ⟨hnone, hstate, -⟩ := comment_leaves_iff h
  exact ⟨h, hstate, hnone⟩

end Literate.Code
