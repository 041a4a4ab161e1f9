import Literate.Editor.Command
import Literate.Proofs.Editor.Pending

namespace Literate.Editor

structure Rests (e : Editor) (text : Text) : Prop where
  text : e.text = text
  pending : e.pending = none

def Step.isEdit : Step → Bool
  | .load _ => true
  | .replace _ => true
  | .command c => c = .cycleTitle
  | .trigger c => c = .cycleTitle
  | _ => false

namespace Rests

variable {e after : Editor} {text : Text}

theorem of_same (h : e.Rests text) (hkeeps : after.text = e.text ∧ after.pending = e.pending) : after.Rests text :=
  ⟨hkeeps.1.trans h.text, hkeeps.2.trans h.pending⟩

theorem load (e : Editor) (text : Text) : (e.load text).Rests text :=
  have hkeeps := setCursor_keeps { e with text := text, pending := none } 0
  ⟨hkeeps.1, hkeeps.2⟩

theorem move (h : e.Rests text) (pos : Int) : (e.move pos).Rests text := by
  rw [Editor.move]
  split
  · exact h.of_same (setCursor_keeps e _)
  · exact h

theorem reveal (h : e.Rests text) (o : Reveal.Outcome) : (e.reveal o).Rests text :=
  h.of_same (foldl_request_keeps o.2 { e with window := o.1 })

theorem flush (h : e.Rests text) : e.flush.Rests text := by
  rw [Editor.flush, h.pending]
  exact h

theorem idleNow (h : e.Rests text) : e.idleNow.Rests text := by
  rw [Editor.idleNow]
  split
  · exact flush ⟨h.text, h.pending⟩
  · exact h

theorem rested (h : e.Rests text) : e.rested.Rests text := by
  rw [Editor.rested]
  split
  · have hstopped : Editor.Rests { e with resting := false } text := ⟨h.text, h.pending⟩
    exact hstopped.reveal _
  · exact h

theorem shutdown (h : e.Rests text) : e.shutdown.Rests text := by
  rw [Editor.shutdown]
  dsimp only
  split
  · exact ⟨h.text, rfl⟩
  · have hclosed : Editor.Rests
        { e with idle := false, pending := none, closed := true, store := e.store.unsubscribe () } text := ⟨h.text, rfl⟩
    exact hclosed.reveal _

theorem install (h : e.Rests text) (c : Change Unit) : (e.install c).Rests text := by
  have hstore : Editor.Rests { e with store := c.store } text := ⟨h.text, h.pending⟩
  rw [Editor.install]
  generalize { e with store := c.store } = e' at hstore
  generalize c.audience = listeners
  induction listeners generalizing e' with
  | nil => exact hstore
  | cons _ listeners ih => exact ih _ ⟨hstore.text, hstore.pending⟩

theorem finish {α : Type} (h : e.Rests text) (r : Evaluated α) {f : α → Editor × Answer}
    (hf : ∀ a, (f a).1.Rests text) : (e.finish r f).1.Rests text := by
  rw [Editor.finish]
  split
  · exact hf _
  · exact ⟨h.text, h.pending⟩
  · exact h

theorem evaluate (h : e.Rests text) (backend : Backend) (wholeRun : Bool) :
    (e.evaluate backend wholeRun).1.Rests text := h.finish _ fun _ => ⟨h.text, h.pending⟩

theorem copySnippet (h : e.Rests text) (backend : Backend) : (e.copySnippet backend).1.Rests text := by
  apply h.finish
  intro r
  rw [Plan.sent]
  split
  · exact ⟨h.text, h.pending⟩
  · exact h

theorem toggle (h : e.Rests text) (setting : Setting) : (e.toggle setting).1.Rests text := by
  unfold Editor.toggle
  split
  · exact h
  · exact h.install _

theorem hideAll (h : e.Rests text) : e.hideAll.1.Rests text := by
  unfold Editor.hideAll
  split
  · exact h
  · split
    · exact h.install _
    · exact ⟨h.text, h.pending⟩

theorem set (h : e.Rests text) (key value : Value) : (e.set key value).1.Rests text := by
  unfold Editor.set
  split
  · exact h
  · exact h.install _

theorem command (h : e.Rests text) (backend : Backend) {c : Command} (hc : c ≠ .cycleTitle) :
    (e.command backend c).1.Rests text := by
  cases c with
  | cycleTitle => exact absurd rfl hc
  | copySnippet => exact h.copySnippet backend
  | evalSnippet => exact h.evaluate backend false
  | evalBlock => exact h.evaluate backend true
  | toggleQuotes => exact h.toggle .hideQuotes
  | toggleTitles => exact h.toggle .hideTitleMarkup
  | hideAll => exact h.hideAll

theorem step (h : e.Rests text) (backend : Backend) {s : Step} (hs : s.isEdit = false) :
    (e.step backend s).1.Rests text := by
  cases s with
  | load _ => cases hs
  | replace _ => cases hs
  | move pos => exact h.move pos
  | idle => exact h.idleNow
  | rested => exact h.rested
  | flush => exact h.flush
  | command c => exact h.command backend (of_decide_eq_false hs)
  | trigger c => exact h.command backend (of_decide_eq_false hs)
  | clearOverlays => exact ⟨h.text, h.pending⟩
  | shutdown => exact h.shutdown
  | redraw _ => exact ⟨h.text, h.pending⟩
  | showOverlay _ => exact ⟨h.text, h.pending⟩
  | set key value => exact h.set key value

end Rests

end Literate.Editor
