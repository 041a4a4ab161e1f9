import Literate.Proofs.Editor.Pending
import Literate.Proofs.Session.Redraw

/-!
What an editor need not paint again. The lines that it leaves alone after an edit are at least two lines in front of the
edit or two lines behind it, so they and the lines next to them are lines of the text before.
-/

namespace Literate

variable {π : Type}

structure Alike (above : List Line) (l : Line) (below above' : List Line) (l' : Line) (below' : List Line) : Prop where
  body : l'.body = l.body
  previous : above'.getLast?.map Line.body = above.getLast?.map Line.body
  next : below'.head?.map Line.body = below.head?.map Line.body
  place : above'.length = above.length ∨ below'.length = below.length

namespace Render

theorem lineDirectives_bodies (a : Annotator π) (s : Settings) (previous : Option Line) (line : Line)
    (next : Option Line) : lineDirectives a s none previous line next =
      lineDirectives a s none ((previous.map Line.body).map (Line.mk 0)) ⟨0, line.body⟩
        ((next.map Line.body).map (Line.mk 0)) := by
  cases previous <;> cases next <;> rfl

theorem lineDirectives_of_alike {above below above' below' : List Line} {l l' : Line}
    (h : Alike above l below above' l' below') (a : Annotator π) (s : Settings) :
    lineDirectives a s none above'.getLast? l' below'.head? = lineDirectives a s none above.getLast? l below.head? := by
  rw [lineDirectives_bodies, h.previous, h.body, h.next, ← lineDirectives_bodies]

end Render

namespace Text

variable {front new back : Text} {above below : List Line} {l k m : Line}

theorem exists_alike_front (h : lines (front ++ (new ++ back)) = above ++ l :: m :: below)
    (hm : m.stop < front.length) (old : Text) :
    ∃ below', lines (front ++ (old ++ back)) = above ++ l :: below' ∧ Alike above l (m :: below) above l below' := by
  obtain ⟨ls, hls⟩ := pair_front h hm old
  exact ⟨m :: ls, hls, rfl, rfl, rfl, .inl rfl⟩

theorem exists_alike_back (h : lines (front ++ (new ++ back)) = above ++ k :: l :: below)
    (hk : front.length + new.length < k.start) (old : Text) : ∃ above' l' below',
      lines (front ++ (old ++ back)) = above' ++ l' :: below' ∧ Alike (above ++ [k]) l below above' l' below' := by
  obtain ⟨up, k', l', ls, hls, hkb, hlb, hbodies, -, -⟩ := pair_back h hk old
  refine ⟨up ++ [k'], l', ls, by rw [hls]; simp, hlb, ?_, ?_, .inr ?_⟩
  · rw [List.getLast?_concat, List.getLast?_concat, Option.map_some, Option.map_some, hkb]
  · rw [← List.head?_map, ← List.head?_map, hbodies]
  · rw [← List.length_map Line.body, hbodies, List.length_map]

end Text

namespace Repaint

def Paints (painted : List Repaint) (index : Nat) : Prop := .all ∈ painted ∨ .line index ∈ painted

theorem line_mem_between {first last i : Nat} : .line i ∈ between first last ↔ first ≤ i ∧ i ≤ last := by
  simp only [between, List.mem_map, List.mem_range, line.injEq]
  constructor
  · rintro ⟨j, hj, rfl⟩
    omega
  · rintro ⟨hfirst, hlast⟩
    exact ⟨i - first, by omega, by omega⟩

section Apart

variable {text : Text} {above below : List Line} {l : Line}

theorem lines_between {front back up down : List Line} {x y : Line} (h : front ++ x :: back = up ++ y :: down)
    (hlt : front.length < up.length) : ∃ mid, up = front ++ x :: mid ∧ back = mid ++ y :: down := by
  rcases List.append_eq_append_iff.mp h with ⟨mid, rfl, hback⟩ | ⟨mid, rfl, -⟩
  · cases mid with
    | nil => simp at hlt
    | cons z mid =>
      obtain ⟨rfl, rfl⟩ := List.cons.inj hback
      exact ⟨mid, rfl, rfl⟩
  · rw [List.length_append] at hlt
    omega

theorem index_of_unpainted {start stop : Int} {i : Nat} (hi : i < text.lineCount)
    (hunpainted : ¬Paints (ofRange text start stop) i) : i + 1 < text.lineIndex (text.clamp start) ∨
      text.lineIndex (max (text.clamp start) (text.clamp stop) : Nat) + 1 < i := by
  rw [ofRange] at hunpainted
  split at hunpainted
  · exact absurd (.inl List.mem_cons_self) hunpainted
  · have hline := mt Or.inr hunpainted
    rw [line_mem_between] at hline
    omega

theorem exists_apart (h : text.lines = above ++ l :: below) {start stop : Int}
    (hunpainted : ¬Paints (ofRange text start stop) above.length) :
    (∃ m rest, below = m :: rest ∧ m.stop < text.clamp start) ∨
      ∃ up k, above = up ++ [k] ∧ max (text.clamp start) (text.clamp stop) < k.start := by
  have hp := Text.linesFrom_pairwise 0 text
  rw [← Text.lines_eq_linesFrom] at hp
  have hcount : above.length < text.lineCount := by
    rw [Text.lineCount, h, List.length_append, List.length_cons]
    omega
  rcases index_of_unpainted hcount hunpainted with hfront | hback
  · obtain ⟨up, x, down, hx, hs, -, hfocus⟩ := Text.exists_focus text (text.clamp start)
    rw [Text.lineIndex, hfocus, List.length_reverse] at hfront
    rw [Text.clamp_of_le (Text.clamp_le _ _)] at hs
    obtain ⟨mid, rfl, rfl⟩ := lines_between (h.symm.trans hx) (by omega)
    cases mid with
    | nil => simp at hfront
    | cons m rest =>
      refine .inl ⟨m, rest ++ x :: down, rfl, ?_⟩
      rw [hx] at hp
      exact Nat.lt_of_lt_of_le ((List.pairwise_append.mp hp).2.2 m (by simp) x (by simp)) hs
  · obtain ⟨up, x, down, hx, -, ht, hfocus⟩ :=
      Text.exists_focus text (max (text.clamp start) (text.clamp stop) : Nat)
    rw [Text.lineIndex, hfocus, List.length_reverse] at hback
    rw [Text.clamp_of_le (Nat.max_le.mpr ⟨Text.clamp_le _ _, Text.clamp_le _ _⟩)] at ht
    obtain ⟨mid, rfl, rfl⟩ := lines_between (hx.symm.trans h) (by omega)
    rcases List.eq_nil_or_concat' mid with rfl | ⟨mid, k, rfl⟩
    · simp at hback
    · refine .inr ⟨up ++ x :: mid, k, by simp, ?_⟩
      rw [hx] at hp
      exact Nat.lt_of_le_of_lt ht (List.rel_of_pairwise_cons (List.pairwise_append.mp hp).2.1 (by simp))

end Apart

end Repaint

namespace Editor

variable {e : Editor} {edit : TextEdit}

theorem setCursor_of_hidden (h : e.window = none) (pos : Nat) : (e.setCursor pos).closed = e.closed ∧
    (e.setCursor pos).store = e.store ∧ (e.setCursor pos).repaints = e.repaints := by
  rw [setCursor]
  split
  · exact ⟨rfl, rfl, rfl⟩
  · rw [cursorMoved]
    split
    · exact ⟨rfl, rfl, rfl⟩
    · simp only [h]
      exact ⟨rfl, rfl, rfl⟩

theorem flush_repaints {p : Pending} (hp : e.pending = some p) (hopen : e.closed = false)
    (hin : p.start ≤ e.text.length) (hresize : e.grammar.resizeUnderline e.text p.start = none) :
    e.flush.text = e.text ∧ e.flush.repaints = e.repaints ++
      Repaint.ofRange e.text (e.grammar.widenFully e.text p.start (p.start + p.added)).start
        (e.grammar.widenFully e.text p.start (p.start + p.added)).stop := by
  have hmax : max 0 (p.added : Int) = p.added := Int.max_eq_right (Int.natCast_nonneg _)
  rw [flush_of_pending hp hopen hin, Plan.changed, hresize, hmax]
  exact ⟨rfl, rfl⟩

theorem replace_flush (hedit : isNothing edit = false) (hopen : e.closed = false) (hpending : e.pending = none)
    (hwindow : e.window = none) (hfit : edit.Fits e.text)
    (hresize : e.grammar.resizeUnderline (edit.apply e.text) edit.start = none) :
    (e.replace edit).flush.text = edit.apply e.text ∧ (e.replace edit).flush.repaints = e.repaints ++
      Repaint.ofRange (edit.apply e.text)
        (e.grammar.widenFully (edit.apply e.text) edit.start (edit.start + edit.text.length)).start
        (e.grammar.widenFully (edit.apply e.text) edit.start (edit.start + edit.text.length)).stop := by
  obtain ⟨htext, hgathered⟩ := replace_keeps hedit hfit
  rw [hpending, Pending.join] at hgathered
  obtain ⟨hclosed, hstore, hrepaints⟩ : (e.replace edit).closed = e.closed ∧ (e.replace edit).store = e.store ∧
      (e.replace edit).repaints = e.repaints := by
    rw [replace_eq hedit hfit]
    refine setCursor_of_hidden ?_ _
    exact hwindow
  have hgrammar : (e.replace edit).grammar = e.grammar := by rw [grammar, settings, hstore, ← settings, ← grammar]
  have hstart : (edit.start.toNat : Int) = edit.start := Int.toNat_of_nonneg hfit.start
  have hlen := TextEdit.length_apply hfit.start hfit.ordered hfit.stop
  have hstop := hfit.stop
  simp only [TextEdit.growth] at hlen
  have hin : edit.start.toNat ≤ (e.replace edit).text.length := by
    rw [htext]
    omega
  have hflush := flush_repaints hgathered (hclosed.trans hopen) hin (by rw [hgrammar, htext, hstart, hresize])
  rwa [hgrammar, htext, hrepaints, hstart] at hflush

theorem exists_alike_of_unpainted {g : Grammar} (hg : g.WithinLine) {source : Text} (hfit : edit.Fits source)
    {above : List Line} {l : Line} {below : List Line} (h : (edit.apply source).lines = above ++ l :: below)
    (hunpainted : ¬Repaint.Paints (Repaint.ofRange (edit.apply source)
      (g.widenFully (edit.apply source) edit.start (edit.start + edit.text.length)).start
      (g.widenFully (edit.apply source) edit.start (edit.start + edit.text.length)).stop) above.length) :
    ∃ above' l' below', source.lines = above' ++ l' :: below' ∧ Alike above l below above' l' below' := by
  obtain ⟨front, old, back, hsource, happly, hfront, -⟩ := TextEdit.exists_parts hfit.start hfit.ordered hfit.stop
  obtain ⟨hstart, hstop⟩ :=
    Grammar.widenFully_takes_in hg (edit.apply source) edit.start (edit.start + edit.text.length)
  have hlen : (edit.apply source).length = front.length + (edit.text.length + back.length) := by
    rw [happly, List.length_append, List.length_append]
  have hfrom : (edit.apply source).clamp edit.start = front.length := by
    rw [hfront, Text.clamp_of_le (by omega)]
  have hto : (edit.apply source).clamp (edit.start + edit.text.length) = front.length + edit.text.length := by
    rw [hfront, ← Int.natCast_add, Text.clamp_of_le (by omega)]
  rw [hfrom] at hstart
  rw [hto] at hstop
  rcases Repaint.exists_apart h hunpainted with ⟨m, rest, rfl, hm⟩ | ⟨up, k, rfl, hk⟩
  · have hm : m.stop < front.length := by
      rw [Text.clamp] at hm
      omega
    rw [happly] at h
    obtain ⟨below', hbelow, halike⟩ := Text.exists_alike_front h hm old
    exact ⟨above, l, below', hsource ▸ hbelow, halike⟩
  · have hk : front.length + edit.text.length < k.start := by
      rw [Text.clamp, Text.clamp] at hk
      omega
    rw [happly, List.append_assoc, List.singleton_append] at h
    obtain ⟨above', l', below', hbelow, halike⟩ := Text.exists_alike_back h hk old
    exact ⟨above', l', below', hsource ▸ hbelow, halike⟩

/-- After a single edit that resizes no underline, every line that is not painted again has the text and the neighbours
of a line of the text before, and so the same directives. -/
theorem replace_flush_paints (a : Annotator π) (haccepted : Grammar.Accepted e.settings.titleStyles)
    (hopen : e.closed = false) (hpending : e.pending = none) (hwindow : e.window = none) (hfit : edit.Fits e.text)
    (hresize : e.grammar.resizeUnderline (edit.apply e.text) edit.start = none) :
    ∃ painted, (e.replace edit).flush.text = edit.apply e.text ∧
      (e.replace edit).flush.repaints = e.repaints ++ painted ∧
      ∀ above l below, (edit.apply e.text).lines = above ++ l :: below → ¬Repaint.Paints painted above.length →
        ∃ above' l' below', e.text.lines = above' ++ l' :: below' ∧ Alike above l below above' l' below' ∧
          Render.lineDirectives a e.settings none above'.getLast? l' below'.head? =
            Render.lineDirectives a e.settings none above.getLast? l below.head? := by
  have hg : e.grammar.WithinLine := haccepted.withinLine
  cases hedit : isNothing edit with
  | true =>
    rw [replace_of_nothing hedit, flush, hpending, apply_of_nothing hedit]
    exact ⟨[], rfl, by simp, fun above l below h _ => ⟨above, l, below, h, ⟨rfl, rfl, rfl, .inl rfl⟩, rfl⟩⟩
  | false =>
    obtain ⟨htext, hrepaints⟩ := replace_flush hedit hopen hpending hwindow hfit hresize
    refine ⟨_, htext, hrepaints, fun above l below h hunpainted => ?_⟩
    obtain ⟨above', l', below', hlines, halike⟩ := exists_alike_of_unpainted hg hfit h hunpainted
    exact ⟨above', l', below', hlines, halike, Render.lineDirectives_of_alike halike a e.settings⟩

theorem replace_flush_paints_first :
    let e := (ofSettings {} none []).load "a\nb\nc\nd".toList
    let edit : TextEdit := ⟨0, 1, "x\ny".toList⟩
    Grammar.Accepted e.settings.titleStyles ∧ e.closed = false ∧ e.pending = none ∧ e.window = none ∧
      edit.Fits e.text ∧ e.grammar.resizeUnderline (edit.apply e.text) edit.start = none ∧
      (e.replace edit).flush.repaints = e.repaints ++ [.line 0, .line 1, .line 2] ∧
      ∃ above' l' below', e.text.lines = above' ++ l' :: below' ∧
        Alike [⟨0, ['x']⟩, ⟨2, ['y']⟩, ⟨4, ['b']⟩] ⟨6, ['c']⟩ [⟨8, ['d']⟩] above' l' below' := by
  intro e edit
  have haccepted : Grammar.Accepted e.settings.titleStyles := by decide
  have hfit : edit.Fits e.text := by constructor <;> decide +kernel
  have hresize : e.grammar.resizeUnderline (edit.apply e.text) edit.start = none := by decide +kernel
  have hrepaints : (e.replace edit).flush.repaints = e.repaints ++ [.line 0, .line 1, .line 2] := by decide +kernel
  refine ⟨haccepted, rfl, rfl, rfl, hfit, hresize, hrepaints, ?_⟩
  obtain ⟨painted, -, hpainted, hlines⟩ :=
    replace_flush_paints (⟨none, []⟩ : Annotator Unit) haccepted rfl rfl rfl hfit hresize
  obtain rfl := List.append_cancel_left (hrepaints.symm.trans hpainted)
  obtain ⟨above', l', below', hsplit, halike, -⟩ :=
    hlines [⟨0, ['x']⟩, ⟨2, ['y']⟩, ⟨4, ['b']⟩] ⟨6, ['c']⟩ [⟨8, ['d']⟩] (by decide +kernel) (by simp [Repaint.Paints])
  exact ⟨above', l', below', hsplit, halike⟩

end Editor

end Literate
