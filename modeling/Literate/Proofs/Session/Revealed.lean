import Literate.Proofs.Reveal
import Literate.Proofs.Session.Steps
import Literate.Proofs.Title.Ownership

namespace Literate

namespace Document

variable {d d' : Document} {g : Grammar}

def Reveals (d : Document) (g : Grammar) : Prop :=
  d.window = none ∨ ∃ b, g.Owner d.text d.cursor b ∧ d.window = some b.span

inductive WindowAfter (g : Grammar) (d d' : Document) : Prop
  | gone (window : d'.window = none)
  | kept (window : d'.window = d.window)
      (cursor : ∀ s, d.window = some s → s.contains d.cursor = true → s.contains d'.cursor = true)
  | found (b : TitleBlock) (block : g.titleBlockAt d.text d.cursor = some b)
      (inside : b.span.contains d.cursor = true) (window : d'.window = some b.span) (cursor : d'.cursor = d.cursor)

theorem WindowAfter.of_eq (hw : d'.window = d.window) (hc : d'.cursor = d.cursor) : WindowAfter g d d' :=
  .kept hw fun _ _ h => by rw [hc]; exact h

theorem WindowAfter.of_text {text : Text} {overlays : List Result}
    (h : d'.forget = { d.forget with text := text, overlays := overlays }) : WindowAfter g d d' :=
  .of_eq (by rw [← forget_window, h, forget_window]) (by rw [← forget_cursor, h, forget_cursor])

theorem fire_window (s : Settings) (hp : d.pending = true) (hs : s.revealAtPoint = true) : (d.fire s).window =
    ((s.grammar.titleSpanAt d.text d.cursor).filter (·.contains d.cursor)).or d.window := by
  rw [← forget_window, fire_forget, if_pos hp, ← Reveal.enter_fst, Reveal.rested, if_pos hs]

theorem fire_text (d : Document) (s : Settings) : (d.fire s).text = d.text := by
  rw [← forget_text, fire_forget]
  split <;> rfl

theorem fire_cursor (d : Document) (s : Settings) : (d.fire s).cursor = d.cursor := by
  rw [← forget_cursor, fire_forget]
  split <;> rfl

theorem move_window (d : Document) (pos : Int) : (d.move pos).window = d.window.filter (·.contains pos) := by
  rw [← forget_window, move_forget, ← Reveal.leave_fst]

theorem windowAfter_move (g : Grammar) (d : Document) (pos : Int) : WindowAfter g d (d.move pos) := by
  have hwindow := move_window d pos
  have hcursor : (d.move pos).cursor = pos := by rw [← forget_cursor, move_forget]
  cases hw : d.window with
  | none => exact .gone (by rw [hwindow, hw]; rfl)
  | some s =>
    rw [hw, Option.filter_some] at hwindow
    split at hwindow
    · refine .kept (hwindow.trans hw.symm) fun t ht _ => ?_
      obtain rfl : s = t := Option.some.inj (hw.symm.trans ht)
      rw [hcursor]
      assumption
    · exact .gone hwindow

theorem windowAfter_fire (d : Document) (s : Settings) : WindowAfter s.grammar d (d.fire s) := by
  by_cases h : d.pending = true ∧ s.revealAtPoint = true
  · have hwindow := fire_window s h.1 h.2
    cases hf : (s.grammar.titleSpanAt d.text d.cursor).filter (·.contains d.cursor) with
    | none => exact .of_eq (by rw [hwindow, hf]; rfl) (fire_cursor d s)
    | some w =>
      obtain ⟨hfound, hin⟩ := Option.filter_eq_some_iff.mp hf
      obtain ⟨b, hb, rfl⟩ := Option.map_eq_some_iff.mp hfound
      exact .found b hb hin (by rw [hwindow, hf]; rfl) (fire_cursor d s)
  · refine .of_eq ?_ (fire_cursor d s)
    rw [← forget_window, fire_forget]
    split
    · rw [Reveal.rested, if_neg (fun hs => h ⟨by assumption, hs⟩)]
    · rfl

theorem windowAfter_close (g : Grammar) (d : Document) : WindowAfter g d d.close := by
  have h := close_forget d
  split at h
  · exact .of_eq (window_of_forget h) (cursor_of_forget h)
  · exact .gone (by rw [← forget_window, h])

theorem respond_window (backend : Backend) (st : Settings) (d : Document) {s : Step} (hs : ∀ pos, s ≠ .put pos) :
    WindowAfter st.grammar d (d.respond backend st s) := by
  cases s with
  | put pos => exact absurd rfl (hs pos)
  | move pos => exact windowAfter_move _ d pos
  | fire => exact windowAfter_fire d st
  | edit e => exact .of_text (edited_forget d _ e)
  | changed pos added => exact .of_text (changed_forget d _ pos added)
  | evaluate wholeRun =>
    rw [respond]
    cases (st.grammar.evaluate backend d.text d.cursor wholeRun).2 <;> exact .of_eq rfl rfl
  | copySnippet =>
    rw [respond]
    cases (st.grammar.execute backend d.text d.cursor).2 with
    | error e => exact .of_eq rfl rfl
    | ok r => exact .of_eq (window_of_forget (sent_forget d r.1 r.2)) (cursor_of_forget (sent_forget d r.1 r.2))
  | close => exact windowAfter_close _ d
  | _ => exact .of_eq rfl rfl

def Inside (d : Document) : Prop := ∀ s, d.window = some s → s.contains d.cursor = true

theorem WindowAfter.inside (h : WindowAfter g d d') (hd : d.Inside) : d'.Inside := by
  intro s hs
  cases h with
  | gone hw => simp [hw] at hs
  | kept hw hin =>
    rw [hw] at hs
    exact hin s hs (hd s hs)
  | found b hb hin hw hcur =>
    obtain rfl : b.span = s := Option.some.inj (hw.symm.trans hs)
    rwa [hcur]

theorem Inside.of_forget (hd : d.Inside) (h : d'.forget = d.forget) : d'.Inside := by
  rw [Inside, window_of_forget h, cursor_of_forget h]
  exact hd

theorem reveals_congr (h : d'.forget = d.forget) : d'.Reveals g ↔ d.Reveals g := by
  rw [Reveals, Reveals, text_of_forget h, window_of_forget h, cursor_of_forget h]

theorem WindowAfter.reveals (hg : g.WithinLine) (h : WindowAfter g d d') (htext : d'.text = d.text) (hin : d.Inside)
    (hd : d.Reveals g) : d'.Reveals g := by
  cases h with
  | gone hw => exact .inl hw
  | kept hw hcur =>
    rcases hd with hnone | ⟨b, hb, hs⟩
    · exact .inl (hw.trans hnone)
    · have howner := Grammar.owner_of_contains hg hb (hcur _ hs (hin _ hs))
      exact .inr ⟨b, htext ▸ howner, hw.trans hs⟩
  | found b hb _ hw hcur =>
    rw [← htext, ← hcur] at hb
    exact .inr ⟨b, Grammar.owner_of_titleBlockAt hb, hw⟩

theorem fire_reveals_iff {s : Settings} (hg : s.grammar.WithinLine) (hp : d.pending = true)
    (hs : s.revealAtPoint = true) (hin : d.Inside) : (d.fire s).Reveals s.grammar ↔
      d.window = none ∨ ∃ b, s.grammar.Owner d.text d.cursor b ∧ b.span.contains d.cursor = true := by
  have hwindow := fire_window s hp hs
  rw [Reveals, fire_text, fire_cursor]
  constructor
  · rintro (hnone | ⟨b, hb, hw⟩)
    · rw [hwindow, Option.or_eq_none_iff] at hnone
      exact .inl hnone.2
    · have hafter := (windowAfter_fire d s).inside hin _ hw
      rw [fire_cursor] at hafter
      exact .inr ⟨b, hb, hafter⟩
  · intro h
    cases hfound : (s.grammar.titleSpanAt d.text d.cursor).filter (·.contains d.cursor) with
    | none =>
      rcases h with hnone | ⟨b, hb, hc⟩
      · exact .inl (by rw [hwindow, hfound, hnone]; rfl)
      · obtain ⟨c, hat, hcin⟩ := Grammar.exists_titleBlockAt hg hb hc
        simp [Grammar.titleSpanAt, hat, hcin] at hfound
    | some w =>
      obtain ⟨hspan, -⟩ := Option.filter_eq_some_iff.mp hfound
      obtain ⟨b, hb, rfl⟩ := Option.map_eq_some_iff.mp hspan
      exact .inr ⟨b, Grammar.owner_of_titleBlockAt hb, by rw [hwindow, hfound]; rfl⟩

theorem fire_move_window {s : Settings} {pos : Int} (hs : s.revealAtPoint = true) (hhidden : d.window = none) :
    ((d.move pos).fire s).window = (s.grammar.titleSpanAt d.text pos).filter (·.contains pos) := by
  have hmove := move_forget d pos
  have hpending : (d.move pos).pending = true := by rw [← forget_pending, hmove]
  have htext : (d.move pos).text = d.text := by rw [← forget_text, hmove, forget_text]
  have hcursor : (d.move pos).cursor = pos := by rw [← forget_cursor, hmove]
  rw [fire_window s hpending hs, htext, hcursor, move_window, hhidden]
  exact Option.or_none

/-- From the hidden state the title at the cursor is revealed wherever the cursor stands in front of the end of the
text. At the end nothing is revealed, although the last line may be an underline. -/
theorem fire_move_window_eq_iff {s : Settings} {pos : Int} (h : Grammar.Accepted s.titleStyles)
    (hs : s.revealAtPoint = true) (hhidden : d.window = none) (hpos : 0 ≤ pos) (hin : pos ≤ d.text.length) :
    (((d.move pos).fire s).window = if pos < d.text.length then s.grammar.titleSpanAt d.text pos else none) ∧
      (((d.move pos).fire s).window = s.grammar.titleSpanAt d.text pos ↔
        pos < d.text.length ∨ ∀ b, ¬s.grammar.Owner d.text pos b) := by
  have hg : s.grammar.WithinLine := h.withinLine
  obtain ⟨n, rfl⟩ := Int.eq_ofNat_of_zero_le hpos
  have hn : n ≤ d.text.length := by omega
  have hwindow : ((d.move n).fire s).window = _ := fire_move_window hs hhidden
  cases hb : s.grammar.titleBlockAt d.text n with
  | none =>
    have hspan : s.grammar.titleSpanAt d.text n = none := by rw [Grammar.titleSpanAt, hb, Option.map_none]
    have hnone : ∀ b, ¬s.grammar.Owner d.text n b := by
      obtain ⟨htitle, habove⟩ := Option.or_eq_none_iff.mp hb
      rintro b (hb | hb)
      · simp [htitle] at hb
      · simp [habove] at hb
    rw [hwindow, hspan, ite_self, Option.filter_none]
    exact ⟨rfl, iff_of_true rfl (.inr hnone)⟩
  | some b =>
    have hspan : s.grammar.titleSpanAt d.text n = some b.span := by rw [Grammar.titleSpanAt, hb, Option.map_some]
    have howner : ¬∀ b, ¬s.grammar.Owner d.text n b := fun hnone => hnone b (Grammar.owner_of_titleBlockAt hb)
    have hcontains := Grammar.titleBlockAt_contains_iff hg hn hb
    rw [hwindow, hspan, Option.filter_some, or_iff_left howner]
    by_cases hlt : n < d.text.length
    · rw [if_pos (hcontains.mpr hlt), if_pos (by omega)]
      exact ⟨rfl, iff_of_true rfl (by omega)⟩
    · rw [if_neg (mt hcontains.mp hlt), if_neg (by omega)]
      exact ⟨rfl, iff_of_false (by simp) (by omega)⟩

theorem fire_move_window_on_underline :
    let d := ofText "Title\n=====\n".toList 0 false
    let s : Settings := { revealAtPoint := true }
    Grammar.Accepted s.titleStyles ∧ d.window = none ∧ 11 ≤ d.text.length ∧
      ((d.move 11).fire s).window = some ⟨0, 12⟩ := by
  intro d s
  have h : Grammar.Accepted s.titleStyles := by decide
  have hwindow : ((d.move 11).fire s).window = s.grammar.titleSpanAt d.text 11 :=
    (fire_move_window_eq_iff h rfl rfl (by decide) (by decide)).1
  exact ⟨h, rfl, by decide, hwindow.trans (by decide)⟩

theorem fire_move_window_at_end : Grammar.Accepted ({ revealAtPoint := true } : Settings).titleStyles ∧
    let d := ofText "Title\n=====".toList 0 false
    let s : Settings := { revealAtPoint := true }
    ((d.move 11).fire s).window = none ∧ s.grammar.titleSpanAt d.text 11 = some ⟨0, 11⟩ ∧
      ((d.move 10).fire s).window = some ⟨0, 11⟩ := by decide

end Document

namespace Workspace

open Document

variable {w : Workspace} {backend : Backend} {i : Nat} {steps : List (Nat × Step)} {d : Document}

theorem run_inside (hstart : ∀ d, w.documents[i]? = some d → d.window = none) (hput : ∀ pos, (i, .put pos) ∉ steps)
    (hd : (w.run backend steps).documents[i]? = some d) : d.Inside := by
  refine run_keeps (fun c c' h hc => hc.of_forget h) ?_ ?_ hd
  · rintro done s more rfl c - hc
    exact (respond_window backend _ c fun pos hs => hput pos (by simp [hs])).inside hc
  · intro c hc s hs
    simp [hstart c hc] at hs

theorem run_still {g : Grammar} (hg : g.WithinLine) (hput : ∀ pos, (i, .put pos) ∉ steps)
    (hstill : ∀ done more, steps = done ++ more → ∀ c, (w.run backend done).documents[i]? = some c →
      c.text = d.text ∧ (w.run backend done).grammar = g)
    (hstart : ∀ c, w.documents[i]? = some c → c.Inside ∧ c.Reveals g)
    (hd : (w.run backend steps).documents[i]? = some d) : d.Reveals g := by
  refine (run_keeps (motive := fun c => c.Inside ∧ c.Reveals g) ?_ ?_ hstart hd).2
  · exact fun c c' h hc => ⟨hc.1.of_forget h, (reveals_congr h).mpr hc.2⟩
  · rintro done s more rfl c hc ⟨hin, hreveals⟩
    have hafter := respond_window backend (w.run backend done).settings c (s := s) fun pos hs => hput pos (by simp [hs])
    obtain ⟨htext, hgrammar⟩ := hstill done _ rfl c hc
    rw [← grammar, hgrammar] at hafter
    obtain ⟨c', hc', hforget⟩ := exists_step backend hc s
    have hnext := (hstill (done ++ [(i, s)]) more (by simp) c' (by rwa [run_snoc])).1
    rw [text_of_forget hforget] at hnext
    exact ⟨hafter.inside hin, hafter.reveals hg (hnext.trans htext.symm) hin hreveals⟩

/-- Along every run the window holds the cursor. When the timer has fired it is given up or a title at the cursor if
and only if there was none before or the cursor is inside of a title then; and a window that is a title at the cursor
remains one until the text or the styles change. -/
theorem run_reveals (hw : Grammar.Accepted w.settings.titleStyles)
    (hstart : ∀ d, w.documents[i]? = some d → d.window = none) (hput : ∀ pos, (i, .put pos) ∉ steps)
    (hd : (w.run backend steps).documents[i]? = some d) :
    (∀ s, d.window = some s → s.contains d.cursor = true) ∧
      (d.pending = true → (w.run backend steps).settings.revealAtPoint = true →
        ∃ d', (w.run backend (steps ++ [(i, .fire)])).documents[i]? = some d' ∧
          (d'.Reveals (w.run backend (steps ++ [(i, .fire)])).grammar ↔ d.window = none ∨
            ∃ b, (w.run backend steps).grammar.Owner d.text d.cursor b ∧ b.span.contains d.cursor = true)) ∧
      ∀ done more, steps = done ++ more →
        (∀ c, (w.run backend done).documents[i]? = some c → c.Reveals (w.run backend done).grammar) →
        (∀ mid rest, more = mid ++ rest → ∀ c, (w.run backend (done ++ mid)).documents[i]? = some c →
          c.text = d.text ∧ (w.run backend (done ++ mid)).grammar = (w.run backend steps).grammar) →
        d.Reveals (w.run backend steps).grammar := by
  have hg : (w.run backend steps).grammar.WithinLine := (run_accepted hw steps).withinLine
  have hinside := run_inside hstart hput hd
  refine ⟨hinside, fun hp hr => ?_, ?_⟩
  · obtain ⟨d', hd', hforget⟩ := exists_step backend hd .fire
    have hgrammar : ((w.run backend steps).step backend i .fire).1.grammar = (w.run backend steps).grammar := by
      rw [step, hd]
      rfl
    rw [run_snoc, hgrammar]
    exact ⟨d', hd', (reveals_congr hforget).trans (fire_reveals_iff hg hp hr hinside)⟩
  · rintro done more rfl hreveals hstill
    rw [run_append] at hd
    refine run_still hg (fun pos hm => hput pos (List.mem_append_right _ hm)) ?_ ?_ hd
    · intro mid rest hmore c hc
      rw [← run_append] at hc ⊢
      exact hstill mid rest hmore c hc
    · intro c hc
      have hgrammar := (hstill [] more rfl c (by rwa [List.append_nil])).2
      rw [List.append_nil] at hgrammar
      rw [← hgrammar]
      exact ⟨run_inside hstart (fun pos hm => hput pos (List.mem_append_left _ hm)) hc, hreveals c hc⟩

theorem run_reveals_past :
    let w := ofDocuments { revealAtPoint := true } [Document.ofText "A\n=\nb".toList 0 false]
    let steps : List (Nat × Step) := [(0, .move 0), (0, .fire), (0, .edit ⟨2, 3, ['x']⟩), (0, .move 0)]
    Grammar.Accepted w.settings.titleStyles ∧
      ∃ d, (w.run (fun _ => .failure []) (steps ++ [(0, .fire)])).documents[0]? = some d ∧
        ¬d.Reveals (w.run (fun _ => .failure []) (steps ++ [(0, .fire)])).grammar := by
  intro w steps
  have hw : Grammar.Accepted w.settings.titleStyles := by decide
  have hforget : (w.run (fun _ => .failure []) steps).documents[0]?.map Document.forget =
      some ⟨"A\nx\nb".toList, 0, false, [], some ⟨0, 4⟩, true, false, []⟩ := by decide
  obtain ⟨d, hd, hf⟩ := Option.map_eq_some_iff.mp hforget
  have hstart : ∀ d, w.documents[0]? = some d → d.window = none := by
    intro d hd
    obtain rfl := Option.some.inj hd
    rfl
  have hreveals := run_reveals hw hstart (by simp [steps]) hd
  obtain ⟨d', hd', hiff⟩ := hreveals.2.1 (by rw [← forget_pending, hf]) (by decide)
  refine ⟨hw, d', hd', fun h => ?_⟩
  rcases hiff.mp h with hnone | ⟨b, hb, -⟩
  · rw [← forget_window, hf] at hnone
    simp at hnone
  · rw [← forget_text, ← forget_cursor, hf] at hb
    have hlost : (w.run (fun _ => .failure []) steps).grammar.titleBlock? "A\nx\nb".toList 0 = none ∧
        (w.run (fun _ => .failure []) steps).grammar.titleBlockAbove "A\nx\nb".toList 0 = none := by decide
    rcases hb with hb | hb
    · exact absurd (hlost.1.symm.trans hb) (by simp)
    · exact absurd (hlost.2.symm.trans hb) (by simp)

end Workspace

end Literate
