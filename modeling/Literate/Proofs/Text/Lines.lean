import Mathlib.Data.List.Basic
import Literate.Text.Line

namespace Literate

theorem Line.start_le_stop (l : Line) : l.start ≤ l.stop := Nat.le_add_right _ _

def Line.shift (n : Nat) (l : Line) : Line := ⟨l.start + n, l.body⟩

@[simp] theorem Line.shift_start (n : Nat) (l : Line) : (l.shift n).start = l.start + n := rfl

@[simp] theorem Line.shift_body (n : Nat) (l : Line) : (l.shift n).body = l.body := rfl

@[simp] theorem Line.shift_stop (n : Nat) (l : Line) : (l.shift n).stop = l.stop + n := by
  simp only [Line.stop, Line.shift_start, Line.shift_body]
  omega

namespace Text

def linesFrom (n : Nat) (text : Text) : List Line :=
  number n ((splitLines text).1 :: (splitLines text).2)

theorem lines_eq_linesFrom (text : Text) : lines text = linesFrom 0 text := rfl

@[elab_as_elim]
theorem byLine {motive : Text → Prop} (last : ∀ body, '\n' ∉ body → motive body)
    (line : ∀ body rest, '\n' ∉ body → motive rest → motive (body ++ '\n' :: rest)) (text : Text) :
    motive text := by
  have grow : ∀ (text body : Text), '\n' ∉ body → motive (body ++ text) := by
    intro text
    induction text with
    | nil => intro body hb; simpa using last body hb
    | cons c rest ih =>
      intro body hb
      by_cases hc : c = '\n'
      · subst hc
        exact line body rest hb (by simpa using ih [] (by simp))
      · have hg : '\n' ∉ body ++ [c] := by simp [hb, Ne.symm hc]
        simpa using ih (body ++ [c]) hg
  simpa using grow text [] (by simp)

theorem splitLines_of_not_mem {body : Text} (h : '\n' ∉ body) : splitLines body = (body, []) := by
  induction body with
  | nil => rfl
  | cons c rest ih =>
    obtain ⟨hc, hr⟩ := not_or.mp (List.mem_cons.not.mp h)
    simp [splitLines, ih hr, Ne.symm hc]

theorem splitLines_append {body : Text} (h : '\n' ∉ body) (rest : Text) :
    splitLines (body ++ '\n' :: rest) = (body, (splitLines rest).1 :: (splitLines rest).2) := by
  induction body with
  | nil => simp [splitLines]
  | cons c body ih =>
    obtain ⟨hc, hb⟩ := not_or.mp (List.mem_cons.not.mp h)
    simp [splitLines, ih hb, Ne.symm hc]

theorem linesFrom_last {body : Text} (h : '\n' ∉ body) (n : Nat) : linesFrom n body = [⟨n, body⟩] := by
  simp [linesFrom, splitLines_of_not_mem h, number]

theorem linesFrom_line {body : Text} (h : '\n' ∉ body) (n : Nat) (rest : Text) :
    linesFrom n (body ++ '\n' :: rest) = ⟨n, body⟩ :: linesFrom (n + body.length + 1) rest := by
  simp [linesFrom, splitLines_append h, number]

theorem linesFrom_ne_nil (n : Nat) (text : Text) : linesFrom n text ≠ [] := by
  simp [linesFrom, number]

theorem linesFrom_append (n : Nat) (front rest : Text) :
    linesFrom n (front ++ '\n' :: rest) = linesFrom n front ++ linesFrom (n + front.length + 1) rest := by
  induction front using byLine generalizing n with
  | last body hb => rw [linesFrom_line hb, linesFrom_last hb, List.singleton_append]
  | line body below hb ih =>
    rw [List.append_assoc, List.cons_append, linesFrom_line hb, linesFrom_line hb, ih, List.cons_append]
    congr 3
    simp only [List.length_append, List.length_cons]
    omega

theorem linesFrom_shift (n k : Nat) (text : Text) :
    linesFrom (n + k) text = (linesFrom n text).map (Line.shift k) := by
  induction text using byLine generalizing n with
  | last body hb => simp [linesFrom_last hb, Line.shift]
  | line body rest hb ih =>
    have he : n + k + body.length + 1 = n + body.length + 1 + k := by omega
    rw [linesFrom_line hb, linesFrom_line hb, he, ih, List.map_cons, Line.shift]

theorem newline_not_mem_body {n : Nat} {text : Text} {ls : List Line} (h : linesFrom n text = ls) {l : Line}
    (hl : l ∈ ls) : '\n' ∉ l.body := by
  induction text using byLine generalizing n ls with
  | last body hb =>
    rw [← h, linesFrom_last hb, List.mem_singleton] at hl
    exact hl ▸ hb
  | line body rest hb ih =>
    rw [← h, linesFrom_line hb, List.mem_cons] at hl
    rcases hl with rfl | hl
    · exact hb
    · exact ih rfl hl

theorem le_start_of_mem {n : Nat} {text : Text} {l : Line} (h : l ∈ linesFrom n text) : n ≤ l.start := by
  induction text using byLine generalizing n with
  | last body hb =>
    obtain rfl := List.mem_singleton.mp (linesFrom_last hb n ▸ h)
    exact Nat.le_refl _
  | line body rest hb ih =>
    rw [linesFrom_line hb, List.mem_cons] at h
    rcases h with rfl | h
    · exact Nat.le_refl _
    · have := ih h
      omega

theorem stop_le_of_mem {n : Nat} {text : Text} {l : Line} (h : l ∈ linesFrom n text) :
    l.stop ≤ n + text.length := by
  induction text using byLine generalizing n with
  | last body hb =>
    obtain rfl := List.mem_singleton.mp (linesFrom_last hb n ▸ h)
    exact Nat.le_refl _
  | line body rest hb ih =>
    rw [linesFrom_line hb, List.mem_cons] at h
    simp only [List.length_append, List.length_cons]
    rcases h with rfl | h
    · simp only [Line.stop]
      omega
    · have := ih h
      omega

theorem stop_le_length {text : Text} {above : List Line} {l : Line} {below : List Line}
    (h : lines text = above ++ l :: below) : l.stop ≤ text.length := by
  have hl : l ∈ linesFrom 0 text := by rw [← lines_eq_linesFrom, h]; simp
  have hle := stop_le_of_mem hl
  omega

theorem linesFrom_pairwise (n : Nat) (text : Text) :
    (linesFrom n text).Pairwise fun l m => l.stop < m.start := by
  induction text using byLine generalizing n with
  | last body hb => simp [linesFrom_last hb]
  | line body rest hb ih =>
    rw [linesFrom_line hb, List.pairwise_cons]
    refine ⟨fun m hm => ?_, ih _⟩
    have := le_start_of_mem hm
    simp only [Line.stop]
    omega

theorem apart_of_mem {n : Nat} {text : Text} {l m : Line} (hl : l ∈ linesFrom n text) (hm : m ∈ linesFrom n text) :
    l = m ∨ l.stop < m.start ∨ m.stop < l.start := by
  have hp := linesFrom_pairwise n text
  exact List.Pairwise.forall_of_forall_of_flip (R := fun l m => l = m ∨ l.stop < m.start ∨ m.stop < l.start)
    (fun _ _ => .inl rfl) (hp.imp fun h => .inr (.inl h)) (hp.imp fun h => .inr (.inr h)) hl hm

theorem of_linesFrom_cons {n : Nat} {text : Text} {l : Line} {below : List Line}
    (h : linesFrom n text = l :: below) :
    l.start = n ∧ ((below = [] ∧ text = l.body) ∨
      ∃ rest, text = l.body ++ '\n' :: rest ∧ below = linesFrom (l.stop + 1) rest) := by
  induction text using byLine with
  | last body hb =>
    rw [linesFrom_last hb] at h
    obtain ⟨rfl, rfl⟩ := List.cons.inj h
    exact ⟨rfl, .inl ⟨rfl, rfl⟩⟩
  | line body rest hb _ =>
    rw [linesFrom_line hb] at h
    obtain ⟨rfl, rfl⟩ := List.cons.inj h
    exact ⟨rfl, .inr ⟨rest, rfl, rfl⟩⟩

theorem of_linesFrom_append {n : Nat} {text : Text} {above : List Line} {l : Line} {below : List Line}
    (h : linesFrom n text = above ++ l :: below) :
    ∃ front rest, text = front ++ rest ∧ l.start = n + front.length ∧ linesFrom l.start rest = l :: below ∧
      ((above = [] ∧ front = []) ∨ ∃ body, front = body ++ ['\n'] ∧ linesFrom n body = above) := by
  induction above generalizing n text with
  | nil =>
    have hs := (of_linesFrom_cons h).1
    exact ⟨[], text, rfl, by simp [hs], by rw [hs]; exact h, .inl ⟨rfl, rfl⟩⟩
  | cons m above ih =>
    obtain ⟨hm, ⟨hn, -⟩ | ⟨rest, rfl, hr⟩⟩ := of_linesFrom_cons h
    · simp at hn
    · obtain ⟨front, tail, rfl, hl, ht, hf⟩ := ih hr.symm
      refine ⟨m.body ++ '\n' :: front, tail, by simp, ?_, ht, .inr ?_⟩
      · simp only [hl, Line.stop, List.length_append, List.length_cons]
        omega
      · have hb : '\n' ∉ m.body := newline_not_mem_body h (by simp)
        rcases hf with ⟨rfl, rfl⟩ | ⟨body, rfl, rfl⟩
        · refine ⟨m.body, rfl, ?_⟩
          rw [linesFrom_last hb, ← hm]
        · refine ⟨m.body ++ '\n' :: body, by simp, ?_⟩
          rw [linesFrom_line hb, ← hm]
          rfl

theorem next_start {n : Nat} {text : Text} {above : List Line} {l m : Line} {below : List Line}
    (h : linesFrom n text = above ++ l :: m :: below) : m.start = l.stop + 1 := by
  obtain ⟨front, rest, -, -, hr, -⟩ := of_linesFrom_append h
  obtain ⟨-, ⟨hn, -⟩ | ⟨tail, -, ht⟩⟩ := of_linesFrom_cons hr
  · simp at hn
  · exact (of_linesFrom_cons ht.symm).1

theorem last_stop {n : Nat} {text : Text} {above : List Line} {l : Line} (h : linesFrom n text = above ++ [l]) :
    l.stop = n + text.length := by
  obtain ⟨front, rest, rfl, hl, hr, -⟩ := of_linesFrom_append h
  obtain ⟨-, ⟨-, rfl⟩ | ⟨tail, -, hn⟩⟩ := of_linesFrom_cons hr
  · rw [Line.stop, hl, List.length_append, Nat.add_assoc]
  · exact absurd hn.symm (linesFrom_ne_nil _ _)

theorem drop_start {text : Text} {above : List Line} {l : Line} {below : List Line}
    (h : lines text = above ++ l :: below) : linesFrom l.start (text.drop l.start) = l :: below := by
  obtain ⟨front, rest, rfl, hl, hr, -⟩ := of_linesFrom_append h
  have hf : l.start = front.length := by omega
  rw [hf, List.drop_left, ← hf]
  exact hr

theorem lines_take_stop {text : Text} {above : List Line} {l : Line} {below : List Line}
    (h : lines text = above ++ l :: below) : lines (text.take l.stop) = above ++ [l] := by
  obtain ⟨front, rest, rfl, hl, hr, hf⟩ := of_linesFrom_append h
  have hb : '\n' ∉ l.body := newline_not_mem_body hr (by simp)
  have hc : (front ++ rest).take l.stop = front ++ l.body := by
    have hn : l.stop = front.length + l.body.length := by simp only [Line.stop]; omega
    rw [hn, List.take_length_add_append]
    obtain ⟨-, ⟨-, rfl⟩ | ⟨tail, rfl, -⟩⟩ := of_linesFrom_cons hr
    · rw [List.take_length]
    · rw [List.take_left]
  rw [hc]
  rcases hf with ⟨rfl, rfl⟩ | ⟨body, rfl, hbody⟩
  · have hs : l.start = 0 := by simpa using hl
    rw [List.nil_append, lines_eq_linesFrom, linesFrom_last hb, ← hs]
    rfl
  · have hs : 0 + body.length + 1 = l.start := by simp [hl]
    rw [List.append_assoc, List.singleton_append, lines_eq_linesFrom, linesFrom_append, hbody,
      linesFrom_last hb, hs]

theorem lines_take_start {text : Text} {above : List Line} {l : Line} {below : List Line}
    (h : lines text = above ++ l :: below) : lines (text.take l.start) = above ++ [⟨l.start, []⟩] := by
  obtain ⟨front, rest, rfl, hl, -, hf⟩ := of_linesFrom_append h
  have hn : l.start = front.length := by omega
  rw [hn, List.take_left]
  rcases hf with ⟨rfl, rfl⟩ | ⟨body, rfl, rfl⟩
  · rfl
  · rw [lines_eq_linesFrom, linesFrom_append, linesFrom_last List.not_mem_nil, List.length_append]
    simp

theorem exists_line {n pos : Nat} {text : Text} (hn : n ≤ pos) (hp : pos ≤ n + text.length) :
    ∃ above l below, linesFrom n text = above ++ l :: below ∧ l.start ≤ pos ∧ pos ≤ l.stop := by
  induction text using byLine generalizing n with
  | last body hb => exact ⟨[], ⟨n, body⟩, [], linesFrom_last hb n, hn, hp⟩
  | line body rest hb ih =>
    rw [linesFrom_line hb]
    by_cases hl : pos ≤ n + body.length
    · exact ⟨[], ⟨n, body⟩, _, rfl, hn, hl⟩
    · simp only [List.length_append, List.length_cons] at hp
      obtain ⟨above, l, below, he, hs, ht⟩ := ih (n := n + body.length + 1) (by omega) (by omega)
      exact ⟨⟨n, body⟩ :: above, l, below, by rw [he, List.cons_append], hs, ht⟩

theorem clamp_le (text : Text) (pos : Int) : text.clamp pos ≤ text.length := Nat.min_le_right _ _

theorem clamp_of_le {text : Text} {n : Nat} (h : n ≤ text.length) : text.clamp n = n := by
  simp [clamp, h]

end Text

namespace Focus

theorem seek_eq {pos : Nat} {l : Line} {below : List Line} (hs : l.start ≤ pos) (ht : pos ≤ l.stop)
    {above : List Line} {m : Line} {rest : List Line} (seen : List Line)
    (h : m :: rest = above ++ l :: below) (hp : (m :: rest).Pairwise fun l m => l.stop < m.start) :
    seek pos seen m rest = ⟨above.reverse ++ seen, l, below⟩ := by
  induction above generalizing m rest seen with
  | nil =>
    obtain ⟨rfl, rfl⟩ := List.cons.inj h
    cases rest with
    | nil => rfl
    | cons next below => simp [seek, ht]
  | cons a above ih =>
    obtain ⟨rfl, rfl⟩ := List.cons.inj h
    obtain ⟨hlt, hp⟩ := List.pairwise_cons.mp hp
    have hl := hlt l (by simp)
    have hn : ¬pos ≤ m.stop := by omega
    cases above with
    | nil =>
      have he := ih (m :: seen) rfl hp
      simpa [seek, hn] using he
    | cons next above =>
      have he := ih (m :: seen) rfl hp
      simpa [seek, hn] using he

end Focus

namespace Text

theorem focus_eq {text : Text} {pos : Int} {above : List Line} {l : Line} {below : List Line}
    (h : lines text = above ++ l :: below) (hs : l.start ≤ text.clamp pos) (ht : text.clamp pos ≤ l.stop) :
    text.focus pos = ⟨above.reverse, l, below⟩ := by
  have hn : linesFrom 0 text =
      ⟨0, (splitLines text).1⟩ :: number ((splitLines text).1.length + 1) (splitLines text).2 := by
    simp [linesFrom, number]
  have hp := linesFrom_pairwise 0 text
  rw [← lines_eq_linesFrom] at hp
  rw [lines_eq_linesFrom, hn] at h hp
  simpa [focus] using Focus.seek_eq hs ht [] h hp

theorem exists_focus (text : Text) (pos : Int) :
    ∃ above l below, lines text = above ++ l :: below ∧ l.start ≤ text.clamp pos ∧ text.clamp pos ≤ l.stop ∧
      text.focus pos = ⟨above.reverse, l, below⟩ := by
  obtain ⟨above, l, below, h, hs, ht⟩ :=
    exists_line (n := 0) (Nat.zero_le (text.clamp pos)) (by rw [Nat.zero_add]; exact clamp_le text pos)
  exact ⟨above, l, below, h, hs, ht, focus_eq h hs ht⟩

theorem focus_start {text : Text} {above : List Line} {l : Line} {below : List Line}
    (h : lines text = above ++ l :: below) : text.focus l.start = ⟨above.reverse, l, below⟩ := by
  have ht := stop_le_length h
  have hl : l.start ≤ l.stop := Nat.le_add_right _ _
  have hc : text.clamp l.start = l.start := clamp_of_le (by omega)
  exact focus_eq h (by omega) (by omega)

theorem lines_unique {text : Text} {above below above' below' : List Line} {l l' : Line}
    (h : text.lines = above ++ l :: below) (h' : text.lines = above' ++ l' :: below') (hs : l.start = l'.start) :
    above = above' ∧ l = l' ∧ below = below' := by
  have he : Focus.mk above.reverse l below = Focus.mk above'.reverse l' below' := by
    rw [← Text.focus_start h, ← Text.focus_start h', hs]
  injection he with ha hl hb
  exact ⟨List.reverse_injective ha, hl, hb⟩

section Positions

variable {text : Text} {above : List Line} {l : Line} {below : List Line}

theorem clamp_of_le_stop {pos : Nat} (h : lines text = above ++ l :: below) (ht : pos ≤ l.stop) :
    text.clamp pos = pos := by
  have hl := stop_le_length h
  exact clamp_of_le (by omega)

theorem lineStart_eq {pos : Int} (h : lines text = above ++ l :: below) (hs : l.start ≤ text.clamp pos)
    (ht : text.clamp pos ≤ l.stop) : text.lineStart pos = l.start := by
  rw [lineStart, lineAt, focus_eq h hs ht]

theorem lineStop_eq {pos : Int} (h : lines text = above ++ l :: below) (hs : l.start ≤ text.clamp pos)
    (ht : text.clamp pos ≤ l.stop) : text.lineStop pos = l.stop := by
  rw [lineStop, lineAt, focus_eq h hs ht]

theorem getElem?_body {i : Nat} (h : lines text = above ++ l :: below) (hs : l.start ≤ i) (ht : i < l.stop) :
    ∃ c ∈ l.body, text[i]? = some c := by
  obtain ⟨front, rest, rfl, hl, hr, -⟩ := of_linesFrom_append h
  have hn : i - l.start < l.body.length := by
    simp only [Line.stop] at ht
    omega
  refine ⟨l.body[i - l.start], List.getElem_mem hn, ?_⟩
  have he : i - front.length = i - l.start := by omega
  rw [List.getElem?_append_right (by omega), he]
  obtain ⟨-, ⟨-, rfl⟩ | ⟨tail, rfl, -⟩⟩ := of_linesFrom_cons hr
  · exact List.getElem?_eq_getElem hn
  · rw [List.getElem?_append_left hn, List.getElem?_eq_getElem hn]

theorem getElem?_stop {m : Line} (h : lines text = above ++ l :: m :: below) : text[l.stop]? = some '\n' := by
  obtain ⟨front, rest, rfl, hl, hr, -⟩ := of_linesFrom_append h
  obtain ⟨-, ⟨hn, -⟩ | ⟨tail, rfl, -⟩⟩ := of_linesFrom_cons hr
  · simp at hn
  · have hlen : l.stop = front.length + l.body.length := by simp only [Line.stop]; omega
    rw [hlen, List.getElem?_append_right (by omega), Nat.add_sub_cancel_left, List.getElem?_append_right (by omega),
      Nat.sub_self]
    rfl

theorem lineAt_mem_front {pos : Int} {front back : List Line} (h : lines text = front ++ back) {m : Line}
    (hm : m ∈ front) (hpos : text.clamp pos ≤ m.stop) : text.lineAt pos ∈ front := by
  obtain ⟨above, l, below, hlines, hs, -, hfocus⟩ := exists_focus text pos
  have hl : text.lineAt pos = l := by rw [lineAt, hfocus]
  have hmem : l ∈ front ++ back := by rw [← h, hlines]; simp
  have hp := linesFrom_pairwise 0 text
  rw [← lines_eq_linesFrom, h] at hp
  rw [hl]
  rcases List.mem_append.mp hmem with hfront | hback
  · exact hfront
  · have hlt := (List.pairwise_append.mp hp).2.2 m hm l hback
    omega

end Positions

section Joined

theorem joinLines_cons (body : Text) {bodies : List Text} (h : bodies ≠ []) :
    joinLines (body :: bodies) = body ++ '\n' :: joinLines bodies := by
  obtain ⟨next, rest, rfl⟩ := List.exists_cons_of_ne_nil h
  rw [joinLines, List.intercalate_cons_cons, List.append_assoc]
  rfl

theorem joinLines_singleton (body : Text) : joinLines [body] = body := by simp [joinLines]

theorem joinLines_append {front back : List Text} (hfront : front ≠ []) (hback : back ≠ []) :
    joinLines (front ++ back) = joinLines front ++ '\n' :: joinLines back := by
  induction front with
  | nil => exact absurd rfl hfront
  | cons body front ih =>
    cases front with
    | nil => rw [joinLines_singleton, List.singleton_append, joinLines_cons body hback]
    | cons next front =>
      have hne : next :: front ≠ [] := List.cons_ne_nil _ _
      rw [List.cons_append, joinLines_cons body (by simp), ih hne, joinLines_cons body hne, List.append_assoc,
        List.cons_append]

theorem joinLines_bodies (n : Nat) (text : Text) : joinLines ((linesFrom n text).map Line.body) = text := by
  induction text using byLine generalizing n with
  | last body hb => rw [linesFrom_last hb, List.map_singleton, joinLines_singleton]
  | line body rest hb ih =>
    rw [linesFrom_line hb, List.map_cons, joinLines_cons body (by simp [linesFrom_ne_nil]), ih]

theorem linesFrom_joinLines {bodies : List Text} (h : bodies ≠ []) (hb : ∀ body ∈ bodies, '\n' ∉ body)
    (n : Nat) : linesFrom n (joinLines bodies) = number n bodies := by
  induction bodies generalizing n with
  | nil => exact absurd rfl h
  | cons body bodies ih =>
    obtain ⟨hbody, hrest⟩ := List.forall_mem_cons.mp hb
    cases bodies with
    | nil => rw [joinLines_singleton, linesFrom_last hbody, number, number]
    | cons next bodies =>
      have hne : next :: bodies ≠ [] := List.cons_ne_nil _ _
      rw [joinLines_cons body hne, linesFrom_line hbody, ih hne hrest]
      rfl

end Joined

end Text

end Literate
