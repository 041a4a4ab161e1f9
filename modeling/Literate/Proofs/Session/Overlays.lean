import Literate.Proofs.Session.Steps
import Literate.Proofs.Title.Cycle

/-!
Results on show along a run. An evaluation puts its result at the start of a doctest line, and an edit that is reported
takes all results away. Cycling a title does not, and moves the text below them.
-/

namespace Literate

theorem Snippet.last_mem_lines (s : Snippet) : s.last ∈ s.lines := List.getLastD_mem_cons

namespace Grammar

variable {g : Grammar} {text : Text} {pos : Int}

theorem MaximalRun.mem_doctestLines (hg : g.WithinLine) {above run below : List Line} {docs : List DoctestLine}
    (hrun : g.MaximalRun text above run below) (hdocs : run.map g.doctest? = docs.map some) {d : DoctestLine}
    (hd : d ∈ docs) : d ∈ g.doctestLines text 0 text.length := by
  obtain ⟨front, l, back, hlines, -, hld⟩ := hrun.exists_line hdocs hd
  exact (mem_doctestLines_iff hg).mpr ⟨l, by rw [hlines]; simp, hld⟩

theorem commandsAt_anchor (hg : g.WithinLine) {wholeRun : Bool} {commands : List Text} {anchor : Nat}
    (h : g.commandsAt text pos wholeRun = .ok (commands, anchor)) :
    ∃ d ∈ g.doctestLines text 0 text.length, d.start = anchor := by
  cases hd : g.doctestAt text pos with
  | none =>
    rw [commandsAt, readRun_eq_error_iff.mpr hd, readSnippet_eq_error_iff.mpr hd] at h
    cases wholeRun <;> simp [Except.map] at h
  | some d =>
    obtain ⟨above, run, below, hrun, hmem⟩ := exists_maximalRun hd
    obtain ⟨first, rest, hdocs⟩ := hrun.exists_docs hmem
    have hline : ∀ s ∈ (SnippetRun.group first rest).snippets, s.last ∈ g.doctestLines text 0 text.length := by
      intro s hs
      refine hrun.mem_doctestLines hg hdocs ?_
      rw [← SnippetRun.flatMap_lines_group first rest]
      exact List.mem_flatMap_of_mem hs s.last_mem_lines
    rw [commandsAt] at h
    split at h
    · rw [hrun.readRun_eq hmem hdocs] at h
      obtain ⟨-, rfl⟩ := Prod.mk.inj (Except.ok.inj h)
      exact ⟨_, hline _ List.getLastD_mem_cons, rfl⟩
    · obtain ⟨s, e, hs, -, hsr, -⟩ := hrun.readSnippet_eq hmem hdocs
      rw [hs] at h
      obtain ⟨-, rfl⟩ := Prod.mk.inj (Except.ok.inj h)
      exact ⟨_, hline s hsr, rfl⟩

theorem evaluate_anchor (hg : g.WithinLine) {backend : Backend} {wholeRun : Bool} {r : Result}
    (h : (g.evaluate backend text pos wholeRun).2 = .ok r) :
    ∃ d ∈ g.doctestLines text 0 text.length, (d.start : Int) = r.anchor := by
  rw [evaluate] at h
  cases hc : g.commandsAt text pos wholeRun with
  | error e => simp [hc] at h
  | ok p =>
    rw [hc] at h
    obtain ⟨outputs, -, rfl⟩ := exists_of_map_eq_ok h
    obtain ⟨d, hd, hstart⟩ := commandsAt_anchor hg hc
    exact ⟨d, hd, congrArg _ hstart⟩

end Grammar

namespace Document

variable {d d' : Document} {g : Grammar} {styles : List Char}

theorem mem_putOverlay {r s : Result} {overlays : List Result} (h : s ∈ putOverlay r overlays) :
    s = r ∨ s ∈ overlays := by
  induction overlays with
  | nil => exact .inl (List.mem_singleton.mp h)
  | cons o overlays ih =>
    rw [putOverlay] at h
    split at h
    · exact List.mem_cons.mp h
    · split at h
      · exact (List.mem_cons.mp h).imp_right (List.mem_cons_of_mem o)
      · rcases List.mem_cons.mp h with rfl | h
        · exact .inr List.mem_cons_self
        · exact (ih h).imp_right (List.mem_cons_of_mem o)

def Anchored (d : Document) (g : Grammar) : Prop :=
  ∀ r ∈ d.overlays, ∃ q ∈ g.doctestLines d.text 0 d.text.length, (q.start : Int) = r.anchor

theorem Anchored.of_styles (h : d.Anchored (.ofStyles styles)) (other : List Char) : d.Anchored (.ofStyles other) := h

theorem anchored_congr (htext : d'.text = d.text) (hoverlays : d'.overlays = d.overlays) :
    d'.Anchored g ↔ d.Anchored g := by
  rw [Anchored, Anchored, htext, hoverlays]

theorem anchored_forget : d.forget.Anchored g ↔ d.Anchored g := Iff.rfl

theorem anchored_of_empty (h : d.overlays = []) : d.Anchored g := by
  intro r hr
  simp [h] at hr

theorem respond_anchored (backend : Backend) {st : Settings} (hg : st.grammar.WithinLine) {s : Step}
    (hset : ∀ text, s ≠ .setText text) (hcycle : s ≠ .cycleTitle) (h : d.Anchored st.grammar) :
    (d.respond backend st s).Anchored st.grammar := by
  cases s with
  | setText text => exact absurd rfl (hset text)
  | cycleTitle => exact absurd rfl hcycle
  | move pos =>
    rw [respond, ← anchored_forget, move_forget]
    exact h
  | fire =>
    rw [respond, ← anchored_forget, fire_forget]
    split <;> exact h
  | close =>
    rw [respond, ← anchored_forget, close_forget]
    split <;> exact h
  | edit e =>
    rw [respond, ← anchored_forget, edited_forget]
    exact anchored_of_empty rfl
  | changed pos added =>
    rw [respond, ← anchored_forget, changed_forget]
    exact anchored_of_empty rfl
  | evaluate wholeRun =>
    rw [respond]
    cases hr : (st.grammar.evaluate backend d.text d.cursor wholeRun).2 with
    | error e => exact h
    | ok r =>
      intro s hs
      rcases mem_putOverlay hs with rfl | hs
      · exact Grammar.evaluate_anchor hg hr
      · exact h s hs
  | copySnippet =>
    rw [respond]
    cases (st.grammar.execute backend d.text d.cursor).2 with
    | error e => exact h
    | ok r =>
      rw [← anchored_forget, sent_forget]
      exact h
  | _ => exact h

theorem cycleTitle_anchored_iff (h : Grammar.Accepted styles) (d : Document) :
    (d.cycleTitle (.ofStyles styles)).1.Anchored (.ofStyles styles) ↔
      ∀ r ∈ d.overlays, ∃ q ∈ (Grammar.ofStyles styles).doctestLines d.text 0 d.text.length,
        ((Grammar.ofStyles styles).cycleTitle d.text d.cursor).Leaves d.text q r.anchor := by
  obtain ⟨hle, hno⟩ := Grammar.cycleTitle_makesNoPrompt h d.text d.cursor
  exact forall₂_congr fun r _ => TextEdit.exists_doctest_apply_iff h hle hno r.anchor

end Document

namespace Workspace

open Document

variable {w : Workspace} {backend : Backend} {i : Nat} {steps : List (Nat × Step)}

/-- Results stay at doctest lines along a run whose text changes are reported or made by commands, if and only if each
time a title is cycled the edit leaves the doctest lines of all results where the results are. -/
theorem run_anchored_iff (hw : Grammar.Accepted w.settings.titleStyles)
    (hstart : ∀ d, w.documents[i]? = some d → d.overlays = []) (hset : ∀ text, (i, .setText text) ∉ steps) :
    (∀ done more, steps = done ++ more → ∀ d, (w.run backend done).documents[i]? = some d →
        d.Anchored (w.run backend done).grammar) ↔
      ∀ done more, steps = done ++ (i, .cycleTitle) :: more → ∀ d, (w.run backend done).documents[i]? = some d →
        ∀ r ∈ d.overlays, ∃ q ∈ (w.run backend done).grammar.doctestLines d.text 0 d.text.length,
          ((w.run backend done).grammar.cycleTitle d.text d.cursor).Leaves d.text q r.anchor := by
  constructor
  · rintro hall done more rfl d hd
    obtain ⟨d', hd', hforget⟩ := exists_step backend hd .cycleTitle
    have hanchored := hall (done ++ [(i, .cycleTitle)]) more (by simp) d' (by rwa [run_snoc])
    rw [anchored_congr (text_of_forget hforget) (overlays_of_forget hforget)] at hanchored
    exact (cycleTitle_anchored_iff (run_accepted hw done) d).mp (hanchored.of_styles _)
  · rintro hcycle done more rfl d hd
    refine run_keeps (motive := fun d => d.Anchored (w.run backend done).grammar) ?_ ?_ ?_ hd
    · exact fun c c' h => (anchored_congr (text_of_forget h) (overlays_of_forget h)).mpr
    · rintro front s back rfl c hc hanchored
      have haccepted : Grammar.Accepted (w.run backend front).settings.titleStyles := run_accepted hw front
      by_cases hs : s = .cycleTitle
      · subst hs
        have hleaves := hcycle front (back ++ more) (by simp) c hc
        exact ((cycleTitle_anchored_iff haccepted c).mpr hleaves).of_styles _
      · have hkeeps := respond_anchored backend haccepted.withinLine
          (fun text ht => hset text (by simp [ht])) hs (hanchored.of_styles _)
        exact hkeeps.of_styles _
    · exact fun c hc => anchored_of_empty (hstart c hc)

theorem run_not_anchored :
    let w := ofDocuments {} [Document.ofText "Title\n>>> 1".toList 8 false]
    let steps : List (Nat × Step) := [(0, .evaluate false), (0, .move 0), (0, .cycleTitle)]
    Grammar.Accepted w.settings.titleStyles ∧
      ¬∀ done more, steps = done ++ more → ∀ d, (w.run (fun _ => .value (.text ['1'])) done).documents[0]? = some d →
        d.Anchored (w.run (fun _ => .value (.text ['1'])) done).grammar := by
  intro w steps
  have hw : Grammar.Accepted w.settings.titleStyles := by decide
  have hstart : ∀ d, w.documents[0]? = some d → d.overlays = [] := by
    intro d hd
    obtain rfl := Option.some.inj hd
    rfl
  refine ⟨hw, fun hall => ?_⟩
  have hleaves := (run_anchored_iff hw hstart (by simp [steps])).mp hall [(0, .evaluate false), (0, .move 0)] [] rfl
  have hforget : (w.run (fun _ => .value (.text ['1'])) [(0, .evaluate false), (0, .move 0)]).documents[0]?.map
      Document.forget = some ⟨"Title\n>>> 1".toList, 0, false, [⟨6, ['1']⟩], none, true, false, []⟩ := by decide
  obtain ⟨d, hd, hf⟩ := Option.map_eq_some_iff.mp hforget
  have hmoved := hleaves d hd ⟨6, ['1']⟩ (by rw [← forget_overlays, hf]; exact List.mem_cons_self)
  rw [← forget_text, ← forget_cursor, hf] at hmoved
  exact absurd hmoved (by decide)

end Workspace

end Literate
