import Mathlib.Logic.Function.Iterate
import Literate.Proofs.Extent
import Literate.Proofs.Title.Stack

/-!
Rounds of widening. A round takes in at most one block more of a stack at either end, so the rounds come to rest if
and only if no more blocks are stacked up from the first line, or down from the last one, than there are rounds.
-/

namespace Literate

namespace Extent

structure EndsOn (e : Extent) (text : Text) (l : Line) : Prop where
  ordered : e.start ≤ e.stop
  from_start : l.start ≤ e.lastCovered text
  to_stop : e.lastCovered text ≤ l.stop

variable {text : Text} {e : Extent} {above : List Line} {l : Line} {below : List Line}

theorem lastCovered_of_newline {m : Line} (h : text.lines = above ++ l :: m :: below) (hlt : e.start < e.stop)
    (he : e.stop = l.stop + 1) : e.lastCovered text = l.stop := by
  have hn : text[e.stop - 1]? = some '\n' := by
    rw [he]
    exact Text.getElem?_stop h
  rw [lastCovered, if_pos ⟨hlt, hn⟩, he]
  rfl

theorem lastCovered_of_filled (h : text.lines = above ++ l :: below) (hl : l.start < l.stop) (he : e.stop = l.stop) :
    e.lastCovered text = l.stop := by
  rw [lastCovered, if_neg, he]
  rintro ⟨-, hn⟩
  obtain ⟨c, hc, hi⟩ := Text.getElem?_body (i := e.stop - 1) h (by omega) (by omega)
  rw [hi] at hn
  exact Text.newline_not_mem_body (n := 0) h (by simp) (Option.some.inj hn ▸ hc)

theorem eq_iff {e f : Extent} : e = f ↔ e.start = f.start ∧ e.stop = f.stop := by
  cases e
  cases f
  exact iff_of_eq (mk.injEq ..)

theorem ofRange_ordered (text : Text) (start stop : Int) :
    (ofRange text start stop).start ≤ (ofRange text start stop).stop :=
  Nat.le_max_left _ _

theorem ofRange_stop_le (text : Text) (start stop : Int) : (ofRange text start stop).stop ≤ text.length :=
  Nat.max_le.mpr ⟨Text.clamp_le _ _, Text.clamp_le _ _⟩

theorem ofRange_of_le (h : e.start ≤ e.stop) (hlen : e.stop ≤ text.length) : ofRange text e.start e.stop = e := by
  rw [ofRange, Text.clamp_of_le (h.trans hlen), Text.clamp_of_le hlen, Nat.max_eq_right h]

end Extent

namespace Grammar

variable {g : Grammar} {text : Text} {styles : List Char}

theorem widenRounds_eq_iterate (g : Grammar) (text : Text) (n : Nat) (e : Extent) :
    g.widenRounds text n e = (g.widen text)^[n] e := by
  induction n generalizing e with
  | zero => rfl
  | succ n ih =>
    rw [widenRounds, Function.iterate_succ_apply]
    split
    · rename_i h
      rw [h, Function.iterate_fixed h]
    · exact ih _

theorem iterate_widen_start (g : Grammar) (text : Text) (n : Nat) (e : Extent) :
    ((g.widen text)^[n] e).start = (g.extentStart text)^[n] e.start := by
  induction n generalizing e with
  | zero => rfl
  | succ n ih => exact ih _

section Start

variable {above : List Line} {l : Line} {below : List Line}

theorem extentStart_of_pairs (hg : g.WithinLine) {k : Line} {pos : Nat}
    (h : text.lines = (k :: above).reverse ++ l :: below) (hs : l.start ≤ pos) (ht : pos ≤ l.stop)
    (hk : g.pairs k l = true) : g.extentStart text pos = k.start := by
  have h' : text.lines = above.reverse ++ k :: l :: below := by rw [h]; simp
  rw [← blockOn_isSome_eq false k l below] at hk
  obtain ⟨b, hb⟩ := Option.isSome_iff_exists.mp hk
  rw [extentStart_eq hg h hs ht, List.getLast?_reverse, List.head?_cons, Option.bind_some, hb]
  exact (blockOn_spans h' hb).start

theorem extentStart_of_stackUp (hg : g.WithinLine) {pos : Nat} (h : text.lines = above.reverse ++ l :: below)
    (hs : l.start ≤ pos) (ht : pos ≤ l.stop) (hl : g.stackUp l above = 0) : g.extentStart text pos = l.start := by
  rw [extentStart_eq hg h hs ht, List.getLast?_reverse]
  cases above with
  | nil => rfl
  | cons k above =>
    rw [List.head?_cons, Option.bind_some]
    cases hb : g.blockOn false k (l :: below) with
    | none => rfl
    | some b => simp [stackUp, pairs_of_blockOn hb] at hl

theorem start_lt_of_above {k : Line} (h : text.lines = (k :: above).reverse ++ l :: below) : k.start < l.start := by
  have h' : text.lines = above.reverse ++ k :: l :: below := by rw [h]; simp
  have hnext := Text.next_start (n := 0) h'
  have hle := k.start_le_stop
  omega

theorem iterate_extentStart_line (hg : g.WithinLine) (n : Nat) (h : text.lines = above.reverse ++ l :: below) :
    (g.extentStart text)^[n + 1] l.start = (g.extentStart text)^[n] l.start ↔ g.stackUp l above ≤ n := by
  induction n generalizing above l below with
  | zero =>
    have hle := l.start_le_stop
    rw [Function.iterate_one, Function.iterate_zero, id_eq]
    rcases g.stackUp_cases l above with hup | ⟨k, rest, rfl, hk, hup⟩
    · rw [extentStart_of_stackUp hg h (Nat.le_refl _) hle hup, hup]
      simp
    · have hlt := start_lt_of_above h
      rw [extentStart_of_pairs hg h (Nat.le_refl _) hle hk, hup]
      omega
  | succ n ih =>
    have hle := l.start_le_stop
    rw [Function.iterate_succ_apply (g.extentStart text) (n + 1) l.start,
      Function.iterate_succ_apply (g.extentStart text) n l.start]
    rcases g.stackUp_cases l above with hup | ⟨k, rest, rfl, hk, hup⟩
    · rw [extentStart_of_stackUp hg h (Nat.le_refl _) hle hup, ih h, hup]
      simp
    · have h' : text.lines = rest.reverse ++ k :: l :: below := by rw [h]; simp
      rw [extentStart_of_pairs hg h (Nat.le_refl _) hle hk, ih h', hup]
      exact Nat.succ_le_succ_iff.symm

theorem iterate_extentStart_iff (hg : g.WithinLine) (n : Nat) (h : text.lines = above.reverse ++ l :: below) {pos : Nat}
    (hs : l.start ≤ pos) (ht : pos ≤ l.stop) :
    (g.extentStart text)^[n + 2] pos = (g.extentStart text)^[n + 1] pos ↔ g.stackUp l above ≤ n + 1 := by
  have hle := l.start_le_stop
  have hsame : g.extentStart text pos = g.extentStart text l.start := by
    rw [extentStart_eq hg h hs ht, extentStart_eq hg h (Nat.le_refl _) hle]
  rw [← iterate_extentStart_line hg (n + 1) h, Function.iterate_succ_apply (g.extentStart text) (n + 1) pos,
    Function.iterate_succ_apply (g.extentStart text) n pos, hsame]
  rfl

end Start

section Stop

variable {above : List Line} {l m : Line} {below : List Line} {e : Extent}

theorem stackDown_eq_zero_iff : g.stackDown l below = 0 ↔ g.blockOn false l below = none := by
  cases below with
  | nil => exact ⟨fun _ => rfl, fun _ => rfl⟩
  | cons m below =>
    rw [stackDown, ← Option.not_isSome_iff_eq_none, blockOn_isSome_eq]
    split <;> simp [*]

structure Rests (g : Grammar) (text : Text) (e : Extent) (l : Line) (below : List Line) : Prop where
  on : e.EndsOn text l
  stop : g.blockOn false l below = none → (g.widen text e).stop = e.stop

theorem EndsOn_start_le (he : e.EndsOn text l) : e.start ≤ l.stop :=
  (Extent.start_le_lastCovered text he.ordered).trans he.to_stop

theorem widen_start_le (hg : g.WithinLine) (h : text.lines = above ++ l :: below) (he : e.EndsOn text l) :
    (g.widen text e).start ≤ e.start := by
  have hlen := Text.stop_le_length h
  have hle := EndsOn_start_le he
  exact extentStart_le hg (by omega)

theorem widen_stop (g : Grammar) (text : Text) (e : Extent) :
    (g.widen text e).stop = max e.stop (g.extentStop text (e.lastCovered text)) := rfl

theorem le_lastCovered_succ (text : Text) (e : Extent) : e.stop ≤ e.lastCovered text + 1 := by
  rw [Extent.lastCovered]
  split <;> omega

theorem rests_of_pairs (hg : g.WithinLine) (h : text.lines = above ++ l :: m :: below) (he : e.EndsOn text l)
    (hm : g.pairs l m = true) : g.Rests text (g.widen text e) m below := by
  rw [← blockOn_isSome_eq false l m below] at hm
  obtain ⟨b, hb⟩ := Option.isSome_iff_exists.mp hm
  have hsp := blockOn_spans h hb
  have hnext := hsp.next
  have hlower := hsp.lower
  have hbstop := hsp.stop_eq
  have hle := hsp.le_stop
  have hstart : (g.widen text e).start < m.start := by
    have := widen_start_le hg h he
    have := EndsOn_start_le he
    omega
  have hstop : (g.widen text e).stop = b.stop := by
    have := le_lastCovered_succ text e
    have := he.to_stop
    rw [widen_stop, extentStop_eq hg h he.from_start he.to_stop, hb, Option.some_or, Option.map_some,
      Option.getD_some]
    omega
  have h' : text.lines = (above ++ [l]) ++ m :: below := by rw [h]; simp
  have hlast : (g.widen text e).lastCovered text = m.stop := by
    cases below with
    | nil => exact Extent.lastCovered_of_filled h' hlower (by simpa using hstop.trans hbstop)
    | cons k below => exact Extent.lastCovered_of_newline h' (by omega) (by simpa using hstop.trans hbstop)
  refine ⟨⟨by omega, by omega, by omega⟩, fun hnone => ?_⟩
  rw [widen_stop, hlast, extentStop_eq hg h' hlower.le (Nat.le_refl _), hnone, Option.none_or, List.getLast?_concat,
    Option.bind_some, hb, Option.map_some, Option.getD_some, ← hstop, Nat.max_self]

theorem lastCovered_widen_of_empty (hg : g.WithinLine) (h : text.lines = above ++ l :: below) (he : e.EndsOn text l)
    (hl : l.start = l.stop) (hstop : (g.widen text e).stop = l.stop) :
    (g.widen text e).lastCovered text = l.stop := by
  have hlast : e.stop = l.stop := by
    have := Extent.lastCovered_le text e
    have := he.from_start
    have : e.stop ≤ (g.widen text e).stop := Nat.le_max_left _ _
    omega
  rw [Extent.lastCovered, if_neg, hstop]
  rintro ⟨hlt, hn⟩
  rw [hstop] at hlt hn
  have hcovered := he.from_start
  -- the end covers no newline, so the extent is empty, and an empty line is no underline
  rw [Extent.lastCovered] at hcovered
  split at hcovered
  · omega
  · rename_i hc
    have hstart : e.start = l.start := by
      have := he.ordered
      by_contra hne
      exact hc ⟨by omega, hlast ▸ hn⟩
    have hextent : (g.widen text e).start = g.extentStart text e.start := rfl
    rw [hextent, hstart, extentStart_eq hg h (Nat.le_refl _) hl.le] at hlt
    cases hb : above.getLast?.bind fun k => g.blockOn false k (l :: below) with
    | none =>
      rw [hb] at hlt
      exact absurd hlt (by simp [hl])
    | some b =>
      obtain ⟨front, k, rfl, hk, hkb⟩ := exists_of_blockAbove h hb
      exact absurd (blockOn_spans hk hkb).lower (by omega)

theorem rests_of_none (hg : g.WithinLine) (h : text.lines = above ++ l :: below) (he : e.EndsOn text l)
    (hl : g.blockOn false l below = none) : g.Rests text (g.widen text e) l below := by
  have hend := extentStop_eq hg h he.from_start he.to_stop
  rw [hl, Option.none_or] at hend
  have hle := le_extentStop_line hg h he.from_start he.to_stop
  have hstop : (g.widen text e).stop = l.stop ∨ ((g.widen text e).stop = l.stop + 1 ∧ below ≠ []) := by
    rw [widen_stop]
    have hcovered : e.stop ≤ l.stop ∨ (e.stop = l.stop + 1 ∧ below ≠ []) := by
      have := he.to_stop
      exact (Extent.stop_of_lastCovered h he.from_start he.to_stop).imp_left fun hs => by omega
    have hblock : g.extentStop text (e.lastCovered text) = l.stop ∨
        (g.extentStop text (e.lastCovered text) = l.stop + 1 ∧ below ≠ []) := by
      rw [hend]
      cases hb : above.getLast?.bind fun k => g.blockOn false k (l :: below) with
      | none => exact .inl rfl
      | some b =>
        obtain ⟨front, k, rfl, hk, hkb⟩ := exists_of_blockAbove h hb
        have hsp := (blockOn_spans hk hkb).stop_eq
        rw [Option.map_some, Option.getD_some]
        cases below with
        | nil => exact .inl (by simpa using hsp)
        | cons m below => exact .inr ⟨by simpa using hsp, by simp⟩
    rcases hcovered with hc | ⟨hc, hn⟩ <;> rcases hblock with hb | ⟨hb, hn⟩
    · exact .inl (by omega)
    · exact .inr ⟨by omega, hn⟩
    · exact .inr ⟨by omega, hn⟩
    · exact .inr ⟨by omega, hn⟩
  have hstart : (g.widen text e).start ≤ l.stop := (widen_start_le hg h he).trans (EndsOn_start_le he)
  have hlast : (g.widen text e).lastCovered text = l.stop := by
    rcases hstop with hstop | ⟨hstop, hn⟩
    · have hline := l.start_le_stop
      rcases hline.eq_or_lt with hempty | hfilled
      · exact lastCovered_widen_of_empty hg h he hempty hstop
      · exact Extent.lastCovered_of_filled h hfilled hstop
    · obtain ⟨m, below, rfl⟩ := List.exists_cons_of_ne_nil hn
      exact Extent.lastCovered_of_newline h (by omega) hstop
  have hline := l.start_le_stop
  refine ⟨⟨?_, by omega, by omega⟩, fun _ => ?_⟩
  · rcases hstop with hstop | ⟨hstop, -⟩ <;> omega
  · -- every position of the line has the same end
    have hsame : g.extentStop text l.stop = g.extentStop text (e.lastCovered text) := by
      rw [hend, extentStop_eq hg h hline (Nat.le_refl _), hl, Option.none_or]
    have : g.extentStop text (e.lastCovered text) ≤ (g.widen text e).stop := Nat.le_max_right _ _
    rw [widen_stop g text (g.widen text e), hlast, hsame]
    omega

theorem Rests.stop_iff (hg : g.WithinLine) (h : text.lines = above ++ l :: below) (he : g.Rests text e l below) :
    (g.widen text e).stop = e.stop ↔ g.stackDown l below = 0 := by
  rw [stackDown_eq_zero_iff]
  refine ⟨fun hstop => ?_, he.stop⟩
  have hle : g.extentStop text (e.lastCovered text) ≤ (g.widen text e).stop := Nat.le_max_right _ _
  exact (lower_of_extentStop hg h he.on.from_start he.on.to_stop (hstop ▸ hle)).1

theorem iterate_widen_stop_iff (hg : g.WithinLine) (n : Nat) (h : text.lines = above ++ l :: below)
    (he : e.EndsOn text l) :
    ((g.widen text)^[n + 2] e).stop = ((g.widen text)^[n + 1] e).stop ↔ g.stackDown l below ≤ n + 1 := by
  induction n generalizing above l below e with
  | zero =>
    change (g.widen text (g.widen text e)).stop = (g.widen text e).stop ↔ _
    rcases g.stackDown_cases l below with hdown | ⟨m, rest, rfl, hm, hdown⟩
    · rw [(rests_of_none hg h he (stackDown_eq_zero_iff.mp hdown)).stop_iff hg h, hdown]
      simp
    · have h' : text.lines = (above ++ [l]) ++ m :: rest := by rw [h]; simp
      rw [(rests_of_pairs hg h he hm).stop_iff hg h', hdown]
      omega
  | succ n ih =>
    rw [Function.iterate_succ_apply (g.widen text) (n + 2) e, Function.iterate_succ_apply (g.widen text) (n + 1) e]
    rcases g.stackDown_cases l below with hdown | ⟨m, rest, rfl, hm, hdown⟩
    · rw [ih h (rests_of_none hg h he (stackDown_eq_zero_iff.mp hdown)).on, hdown]
      simp
    · have h' : text.lines = (above ++ [l]) ++ m :: rest := by rw [h]; simp
      rw [ih h' (rests_of_pairs hg h he hm).on, hdown]
      exact Nat.succ_le_succ_iff.symm

end Stop

theorem widen_eq_iff (hg : g.WithinLine) (n : Nat) {e : Extent} (he : e.start ≤ e.stop) (hlen : e.stop ≤ text.length) :
    g.widen text (g.widenRounds text (n + 1) e) = g.widenRounds text (n + 1) e ↔
      g.stackUp (text.focus e.start).line (text.focus e.start).above ≤ n + 1 ∧
        g.stackDown (text.focus (e.lastCovered text)).line (text.focus (e.lastCovered text)).below ≤ n + 1 := by
  have hlast := Extent.lastCovered_le text e
  obtain ⟨above, k, rest, hk, hks, hkt, hkf⟩ := Text.exists_focus text e.start
  obtain ⟨front, l, below, hl, hls, hlt, hlf⟩ := Text.exists_focus text (e.lastCovered text)
  rw [Text.clamp_of_le (by omega)] at hks hkt hls hlt
  have hk' : text.lines = above.reverse.reverse ++ k :: rest := by rw [List.reverse_reverse]; exact hk
  have hstart := iterate_extentStart_iff hg n hk' hks hkt
  have hstop := iterate_widen_stop_iff hg n hl ⟨he, hls, hlt⟩
  rw [widenRounds_eq_iterate, ← Function.iterate_succ_apply' (g.widen text), hkf, hlf, ← hstart, ← hstop,
    ← iterate_widen_start, ← iterate_widen_start]
  exact Extent.eq_iff

theorem stackUp_focus_le (hu : g.Unstacked false text.lines) (pos : Int) :
    g.stackUp (text.focus pos).line (text.focus pos).above ≤ 1 := by
  obtain ⟨above, l, below, h, -, -, hf⟩ := Text.exists_focus text pos
  rw [hf]
  exact stackUp_le_one hu (by rw [List.reverse_reverse]; exact h)

theorem stackDown_focus_le (hu : g.Unstacked false text.lines) (pos : Int) :
    g.stackDown (text.focus pos).line (text.focus pos).below ≤ 1 := by
  obtain ⟨above, l, below, h, -, -, hf⟩ := Text.exists_focus text pos
  rw [hf]
  exact stackDown_le_one hu h

theorem widen_fixed_of_unstacked (hg : g.WithinLine) (hu : g.Unstacked false text.lines) (he : e.start ≤ e.stop)
    (hlen : e.stop ≤ text.length) : g.widen text (g.widen text e) = g.widen text e := by
  have hfixed := (widen_eq_iff hg 0 he hlen).mpr ⟨stackUp_focus_le hu _, stackDown_focus_le hu _⟩
  rwa [widenRounds_eq_iterate, Function.iterate_one] at hfixed

theorem widenFully_of_unstacked (hg : g.WithinLine) (hu : g.Unstacked false text.lines) (start stop : Int) :
    g.widenFully text start stop = g.widen text (.ofRange text start stop) := by
  have hfixed := widen_fixed_of_unstacked hg hu (Extent.ofRange_ordered text start stop)
    (Extent.ofRange_stop_le text start stop)
  have hrounds : max 1 (8 : Int).toNat = 7 + 1 := rfl
  rw [widenFully, hrounds, widenRounds_eq_iterate, Function.iterate_succ_apply, Function.iterate_fixed hfixed]

theorem extentStop_le (hg : g.WithinLine) {pos : Nat} (hpos : pos ≤ text.length) :
    g.extentStop text pos ≤ text.length := by
  obtain ⟨above, l, below, h, hs, ht⟩ := Text.exists_line (n := 0) (Nat.zero_le pos) (by rw [Nat.zero_add]; exact hpos)
  have hlen := Text.stop_le_length h
  rw [extentStop_eq hg h hs ht]
  cases hb : (g.blockOn false l below).or (above.getLast?.bind fun k => g.blockOn false k (l :: below)) with
  | none => exact hlen
  | some b =>
    rcases Option.or_eq_some_iff.mp hb with hb | ⟨-, hb⟩
    · cases below with
      | nil => simp [blockOn] at hb
      | cons m below => exact stop_le_length h hb
    · obtain ⟨front, k, rfl, hk, hkb⟩ := exists_of_blockAbove h hb
      exact stop_le_length hk hkb

theorem widenRounds_within (hg : g.WithinLine) (n : Nat) {e : Extent} (he : e.start ≤ e.stop)
    (hlen : e.stop ≤ text.length) : (g.widenRounds text n e).start ≤ (g.widenRounds text n e).stop ∧
      (g.widenRounds text n e).stop ≤ text.length := by
  induction n generalizing e with
  | zero => exact ⟨he, hlen⟩
  | succ n ih =>
    rw [widenRounds]
    split
    · exact ⟨he, hlen⟩
    · have hstart : (g.widen text e).start ≤ e.start := extentStart_le hg (by omega)
      have hlast := Extent.lastCovered_le text e
      have hend : g.extentStop text (e.lastCovered text) ≤ text.length := extentStop_le hg (hlast.trans hlen)
      have hstop := widen_stop g text e
      exact ih (by omega) (by omega)

/-- Widening comes to rest if and only if neither the blocks stacked up from the first line of a range nor those
stacked down from its last one outnumber the rounds. One round is enough unless a loud run stands between a title and
an underline. -/
theorem widenFully_fixed_iff (h : Accepted styles) (text : Text) (start stop rounds : Int) :
    let g := ofStyles styles
    let asked := Extent.ofRange text start stop
    let wide := g.widenFully text start stop rounds
    let first := text.focus asked.start
    let last := text.focus (asked.lastCovered text)
    (g.widen text (.ofRange text wide.start wide.stop) = wide ↔
        g.stackUp first.line first.above ≤ max 1 rounds.toNat ∧
          g.stackDown last.line last.below ≤ max 1 rounds.toNat) ∧
      ((¬∃ above k l m below, text.lines = above ++ k :: l :: m :: below ∧ (g.titleLine? k.body).isSome = true ∧
          LoudRun styles l.body ∧ (g.underline? m.body).isSome = true) →
        g.widen text (.ofRange text wide.start wide.stop) = wide) := by
  intro g asked wide first last
  have hordered : asked.start ≤ asked.stop := Nat.le_max_left _ _
  have hlen : asked.stop ≤ text.length := Nat.max_le.mpr ⟨Text.clamp_le _ _, Text.clamp_le _ _⟩
  obtain ⟨n, hn⟩ : ∃ n, max 1 rounds.toNat = n + 1 := ⟨max 1 rounds.toNat - 1, by omega⟩
  have hwide : wide = g.widenRounds text (n + 1) asked := congrArg (g.widenRounds text · asked) hn
  have hrange : Extent.ofRange text wide.start wide.stop = wide := by
    obtain ⟨hle, hto⟩ := widenRounds_within h.withinLine (n + 1) hordered hlen
    rw [← hwide] at hle hto
    exact Extent.ofRange_of_le hle hto
  have hiff := widen_eq_iff h.withinLine n hordered hlen
  rw [hrange, hn, hwide]
  refine ⟨hiff, fun hquiet => hiff.mpr ?_⟩
  have hu : g.Unstacked false text.lines := (unstacked_iff h text).mpr hquiet
  exact ⟨(stackUp_focus_le hu _).trans (by omega), (stackDown_focus_le hu _).trans (by omega)⟩

theorem widenFully_not_fixed_stack : Accepted ['='] ∧
    let text := "A\n#! =\n#! =\n#! =\n#! =\n#! =\n#! =\n#! =\n#! =\n#! =".toList
    let wide := (ofStyles ['=']).widenFully text 45 45
    ¬(ofStyles ['=']).widen text (.ofRange text wide.start wide.stop) = wide := by
  refine ⟨by decide, fun hfixed => ?_⟩
  have hstack := ((widenFully_fixed_iff (by decide) _ 45 45 8).1.mp hfixed).1
  exact absurd hstack (by decide +kernel)

end Grammar

end Literate
