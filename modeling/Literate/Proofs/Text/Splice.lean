import Literate.Proofs.Text.Lines

namespace Literate

namespace Text

variable {front back : Text} {above : List Line} {l : Line} {below : List Line}

theorem offset_of_le {text : Text} {n : Nat} (h : n ≤ text.length) : text.offset n = n := by
  rw [offset, if_neg (by omega), Int.toNat_natCast, Nat.min_eq_left h]

theorem slice_eq {text middle : Text} {i j : Nat} (front back : Text) (h : text = front ++ (middle ++ back))
    (hi : front.length = i) (hj : i + middle.length = j) : text.slice i j = middle := by
  rw [slice, h, ← hj, ← hi, List.take_length_add_append, List.take_left, List.drop_left]

theorem take_take_drop (text : Text) {i j : Nat} (h : i ≤ j) :
    text.take i ++ ((text.drop i).take (j - i) ++ text.drop j) = text := by
  have hdrop : text.drop j = (text.drop i).drop (j - i) := by
    rw [List.drop_drop]
    congr 1
    omega
  rw [hdrop, List.take_append_drop, List.take_append_drop]

theorem lines_front {rest : Text} (h : lines (front ++ rest) = above ++ l :: below) (hl : l.start ≤ front.length)
    (other : Text) : ∃ ls, lines (front ++ other) = above ++ ls := by
  obtain ⟨lead, tail, he, hs, -, hlead⟩ := of_linesFrom_append h
  have hlead' : lead <+: front ++ rest := ⟨tail, he.symm⟩
  have hprefix : lead <+: front :=
    List.prefix_of_prefix_length_le hlead' (List.prefix_append front rest) (by omega)
  obtain ⟨more, rfl⟩ := hprefix
  rcases hlead with ⟨rfl, rfl⟩ | ⟨body, rfl, rfl⟩
  · exact ⟨_, rfl⟩
  · refine ⟨linesFrom (0 + body.length + 1) (more ++ other), ?_⟩
    rw [lines_eq_linesFrom, List.append_assoc, List.append_assoc, List.singleton_append, linesFrom_append]

theorem lines_back (h : lines (front ++ back) = above ++ l :: below) (hl : front.length ≤ l.stop)
    (hne : below ≠ []) (other : Text) :
    ∃ (up ls : List Line) (n k : Nat), below = ls.map (Line.shift n) ∧ lines (other ++ back) = up ++ ls.map (Line.shift k) ∧
      n + other.length = k + front.length := by
  obtain ⟨lead, tail, he, hs, ht, -⟩ := of_linesFrom_append h
  obtain ⟨-, ⟨hn, -⟩ | ⟨rest, rfl, rfl⟩⟩ := of_linesFrom_cons ht
  · exact absurd hn hne
  · have hlead : (lead ++ l.body).length = l.stop := by
      rw [List.length_append, Line.stop]
      omega
    have hline : lead ++ l.body <+: front ++ back := ⟨'\n' :: rest, by rw [he, List.append_assoc]⟩
    have hprefix : front <+: lead ++ l.body :=
      List.prefix_of_prefix_length_le (List.prefix_append front back) hline (by omega)
    obtain ⟨more, hmore⟩ := hprefix
    have hback : back = more ++ '\n' :: rest := by
      rw [← List.append_assoc, ← hmore, List.append_assoc] at he
      exact List.append_cancel_left he
    have hlen := congrArg List.length hmore
    rw [List.length_append, hlead] at hlen
    refine ⟨linesFrom 0 (other ++ more), linesFrom 0 rest, l.stop + 1, (other ++ more).length + 1, ?_, ?_, ?_⟩
    · rw [← linesFrom_shift, Nat.zero_add]
    · rw [lines_eq_linesFrom, hback, ← List.append_assoc, linesFrom_append, ← linesFrom_shift, Nat.add_assoc]
    · rw [List.length_append]
      omega

theorem take_body_drop {text : Text} (h : lines text = above ++ l :: below) :
    text = text.take l.start ++ (l.body ++ text.drop l.stop) := by
  obtain ⟨front, rest, rfl, hl, hr, -⟩ := of_linesFrom_append h
  have hn : l.start = front.length := by omega
  have hstop : l.stop = front.length + l.body.length := by rw [Line.stop, hn]
  rw [hstop, hn, List.take_left, List.drop_length_add_append]
  obtain ⟨-, ⟨-, rfl⟩ | ⟨tail, rfl, -⟩⟩ := of_linesFrom_cons hr
  · rw [List.drop_length, List.append_nil]
  · rw [List.drop_left]

theorem slice_of_body {text : Text} {last : Nat} (h : lines (text.take last) = above ++ l :: below) (pre post : Text)
    {middle : Text} (hbody : l.body = pre ++ (middle ++ post)) {i j : Nat} (hi : i = l.start + pre.length)
    (hj : j = i + middle.length) : text.slice i j = middle := by
  have hlen := stop_le_length h
  have hline := l.start_le_stop
  have hwhole := take_body_drop h
  rw [hbody] at hwhole
  have htext : text = ((text.take last).take l.start ++ pre) ++
      (middle ++ (post ++ (text.take last).drop l.stop ++ text.drop last)) := by
    conv_lhs => rw [← List.take_append_drop last text, hwhole]
    simp only [List.append_assoc]
  refine slice_eq _ _ htext ?_ hj.symm
  rw [List.length_append, List.length_take, Nat.min_eq_left (by omega), hi]

theorem drop_stop {text : Text} (h : lines text = above ++ l :: below) :
    (text.drop l.stop = [] ∧ below = []) ∨ ∃ rest, text.drop l.stop = '\n' :: rest ∧ below = linesFrom (l.stop + 1) rest := by
  obtain ⟨front, rest, rfl, hl, hr, -⟩ := of_linesFrom_append h
  have hstop : l.stop = front.length + l.body.length := by
    rw [Line.stop]
    omega
  rw [hstop, List.drop_length_add_append, ← hstop]
  obtain ⟨-, ⟨hbelow, rfl⟩ | ⟨tail, rfl, hbelow⟩⟩ := of_linesFrom_cons hr
  · exact .inl ⟨List.drop_length, hbelow⟩
  · exact .inr ⟨tail, List.drop_left, hbelow⟩

theorem split_two_lines {text : Text} {m : Line} (h : lines text = above ++ l :: m :: below) :
    ∃ back, text = text.take l.start ++ (l.body ++ '\n' :: (m.body ++ back)) ∧
      ((back = [] ∧ below = []) ∨ ∃ rest, back = '\n' :: rest ∧ below = linesFrom (m.stop + 1) rest) := by
  obtain ⟨-, hm⟩ | ⟨rest, hrest, hbelow⟩ := drop_stop h
  · simp at hm
  · have htext := take_body_drop h
    obtain ⟨-, ⟨hlast, rfl⟩ | ⟨tail, rfl, htail⟩⟩ := of_linesFrom_cons hbelow.symm
    · exact ⟨[], by rwa [hrest, ← List.append_nil m.body] at htext, .inl ⟨rfl, hlast⟩⟩
    · exact ⟨'\n' :: tail, by rwa [hrest] at htext, .inr ⟨tail, rfl, htail⟩⟩

theorem lines_take_stop_append {text : Text} (h : lines text = above ++ l :: below) (rest : Text) :
    lines (text.take l.stop ++ '\n' :: rest) = (above ++ [l]) ++ linesFrom (l.stop + 1) rest := by
  have hlen := stop_le_length h
  have hcut : (text.take l.stop).length = l.stop := by
    rw [List.length_take]
    omega
  rw [← lines_take_stop h, lines_eq_linesFrom, linesFrom_append, hcut, Nat.zero_add]
  rfl

theorem stop_lt_start {n : Nat} {text : Text} (h : linesFrom n text = above ++ l :: below) :
    (∀ k ∈ above, k.stop < l.start) ∧ ∀ m ∈ below, l.stop < m.start := by
  have hp := linesFrom_pairwise n text
  rw [h, List.pairwise_append, List.pairwise_cons] at hp
  exact ⟨fun k hk => hp.2.2 k hk l List.mem_cons_self, hp.2.1.1⟩

def insertBelow (text : Text) (stop : Nat) (body : Text) : Text := text.take stop ++ '\n' :: (body ++ text.drop stop)

theorem lines_insertBelow {text : Text} (h : lines text = above ++ l :: below) {body : Text} (hb : '\n' ∉ body) :
    lines (text.insertBelow l.stop body) = above ++ l :: ⟨l.stop + 1, body⟩ :: below.map (Line.shift (body.length + 1)) := by
  rw [insertBelow, lines_take_stop_append h]
  rcases drop_stop h with ⟨hend, rfl⟩ | ⟨rest, hrest, rfl⟩
  · rw [hend, List.append_nil, linesFrom_last hb]
    simp
  · rw [hrest, linesFrom_line hb, Nat.add_assoc (l.stop + 1), linesFrom_shift]
    simp

section Inserted

variable {text : Text} {stop : Nat}

theorem take_stop_insertBelow (h : stop ≤ text.length) (body : Text) :
    (text.insertBelow stop body).take stop = text.take stop := by
  have hlen : stop ≤ (text.take stop).length := by
    rw [List.length_take]
    omega
  rw [insertBelow, List.take_append_of_le_length hlen, List.take_take, Nat.min_self]

theorem take_insertBelow (h : stop ≤ text.length) (body : Text) :
    (text.insertBelow stop body).take (stop + 1) = text.take stop ++ ['\n'] := by
  have hlen : (text.take stop ++ ['\n']).length = stop + 1 := by
    rw [List.length_append, List.length_take, Nat.min_eq_left h]
    rfl
  rw [insertBelow, ← List.singleton_append, ← List.append_assoc, ← hlen, List.take_left]

theorem drop_insertBelow (h : stop ≤ text.length) (body : Text) :
    (text.insertBelow stop body).drop (stop + 1 + body.length) = text.drop stop := by
  have hlen : (text.take stop ++ '\n' :: body).length = stop + 1 + body.length := by
    rw [List.length_append, List.length_take, Nat.min_eq_left h, List.length_cons]
    omega
  rw [insertBelow, ← List.cons_append, ← List.append_assoc, ← hlen, List.drop_left]

end Inserted

theorem lines_replace {text : Text} (h : lines text = above ++ l :: below) {body : Text} (hb : '\n' ∉ body) :
    ∃ below', lines (text.take l.start ++ (body ++ text.drop l.stop)) = above ++ ⟨l.start, body⟩ :: below' ∧
      (below' = [] ↔ below = []) := by
  obtain ⟨front, rest, rfl, hl, hr, hf⟩ := of_linesFrom_append h
  have hn : l.start = front.length := by omega
  have hstop : l.stop = front.length + l.body.length := by rw [Line.stop, hn]
  have hlead : ∀ other, lines (front ++ other) = above ++ linesFrom l.start other := by
    intro other
    rcases hf with ⟨rfl, rfl⟩ | ⟨lead, rfl, rfl⟩
    · rw [hn]
      rfl
    · have hs : 0 + lead.length + 1 = l.start := by simp [hn]
      rw [lines_eq_linesFrom, List.append_assoc, List.singleton_append, linesFrom_append, hs]
  obtain ⟨-, ⟨rfl, rfl⟩ | ⟨tail, rfl, rfl⟩⟩ := of_linesFrom_cons hr
  · refine ⟨[], ?_, Iff.rfl⟩
    rw [hstop, ← List.length_append, List.drop_length, hn, List.take_left, List.append_nil, hlead,
      linesFrom_last hb, hn]
  · refine ⟨linesFrom (l.start + body.length + 1) tail, ?_, ?_⟩
    · rw [hstop, List.drop_length_add_append, List.drop_left, hn, List.take_left, hlead, linesFrom_line hb, hn]
    · exact iff_of_false (linesFrom_ne_nil _ _) (linesFrom_ne_nil _ _)

section Pairs

variable {new : Text} {k m : Line}

theorem pair_front (h : lines (front ++ (new ++ back)) = above ++ k :: m :: below) (hm : m.stop < front.length)
    (old : Text) : ∃ ls, lines (front ++ (old ++ back)) = above ++ k :: m :: ls := by
  have h' : lines (front ++ (new ++ back)) = (above ++ [k]) ++ m :: below := by rw [h]; simp
  cases below with
  | nil =>
    have hlast : m.stop = 0 + (front ++ (new ++ back)).length := last_stop h'
    rw [List.length_append] at hlast
    omega
  | cons n below =>
    have hnext : n.start = m.stop + 1 := next_start h'
    have hsplit : lines (front ++ (new ++ back)) = (above ++ [k, m]) ++ n :: below := by rw [h]; simp
    obtain ⟨ls, hls⟩ := lines_front hsplit (by omega) (old ++ back)
    exact ⟨ls, by rw [hls]; simp⟩

theorem pair_back (h : lines (front ++ (new ++ back)) = above ++ k :: m :: below)
    (hk : front.length + new.length < k.start) (old : Text) :
    ∃ up k' m' ls, lines (front ++ (old ++ back)) = up ++ k' :: m' :: ls ∧ k'.body = k.body ∧ m'.body = m.body ∧
      ls.map Line.body = below.map Line.body ∧
      k'.start + new.length = k.start + old.length ∧ m'.start + new.length = m.start + old.length := by
  rcases List.eq_nil_or_concat above with rfl | ⟨above, j, rfl⟩
  · have hzero : k.start = 0 := (of_linesFrom_cons h).1
    omega
  · have h' : lines ((front ++ new) ++ back) = above ++ j :: k :: m :: below := by
      rw [List.append_assoc, h]
      simp
    have hnext : k.start = j.stop + 1 := next_start h'
    have hj : (front ++ new).length ≤ j.stop := by
      rw [List.length_append]
      omega
    obtain ⟨up, ls, n, i, hbelow, hlines, hmoved⟩ := lines_back h' hj (by simp) (front ++ old)
    obtain ⟨k', rest, rfl, rfl, hrest⟩ := List.map_eq_cons_iff.mp hbelow.symm
    obtain ⟨m', ls, rfl, rfl, rfl⟩ := List.map_eq_cons_iff.mp hrest
    rw [List.append_assoc] at hlines
    simp only [List.length_append] at hmoved
    refine ⟨up, k'.shift i, m'.shift i, ls.map (Line.shift i), hlines, rfl, rfl, by simp, ?_, ?_⟩
    · simp only [Line.shift_start]
      omega
    · simp only [Line.shift_start]
      omega

end Pairs

end Text

end Literate
