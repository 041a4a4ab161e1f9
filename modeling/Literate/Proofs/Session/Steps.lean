import Mathlib.Data.List.Induction
import Literate.Proofs.Settings.Accepted
import Literate.Session.Workspace

namespace Literate

namespace Document

@[simp] theorem forget_text (d : Document) : d.forget.text = d.text := rfl

@[simp] theorem forget_cursor (d : Document) : d.forget.cursor = d.cursor := rfl

@[simp] theorem forget_overlays (d : Document) : d.forget.overlays = d.overlays := rfl

@[simp] theorem forget_window (d : Document) : d.forget.window = d.window := rfl

@[simp] theorem forget_pending (d : Document) : d.forget.pending = d.pending := rfl

section Alike

variable {c d : Document}

theorem text_of_forget (h : c.forget = d.forget) : c.text = d.text := by rw [← forget_text, h, forget_text]

theorem cursor_of_forget (h : c.forget = d.forget) : c.cursor = d.cursor := by rw [← forget_cursor, h, forget_cursor]

theorem overlays_of_forget (h : c.forget = d.forget) : c.overlays = d.overlays := by
  rw [← forget_overlays, h, forget_overlays]

theorem window_of_forget (h : c.forget = d.forget) : c.window = d.window := by rw [← forget_window, h, forget_window]

end Alike

theorem refresh_forget (d : Document) : d.refresh.forget = d.forget := rfl

theorem move_forget (d : Document) (pos : Int) : (d.move pos).forget =
    { d.forget with cursor := pos, window := (Reveal.leave pos d.window).1, pending := true } := by
  rw [move, cursorMoved, reveal, Reveal.cursorMoved]
  dsimp only
  cases hw : d.window with
  | none => rfl
  | some w =>
    rw [Reveal.leave]
    split <;> rfl

theorem fire_forget (d : Document) (s : Settings) : (d.fire s).forget =
    if d.pending then { d.forget with
      window := (Reveal.rested s.revealAtPoint d.cursor (s.grammar.titleSpanAt d.text d.cursor) d.window).1
      pending := false }
    else d.forget := by
  rw [fire]
  split
  · rw [reveal, Reveal.rested]
    split
    · cases s.grammar.titleSpanAt d.text d.cursor with
      | none => rfl
      | some w =>
        dsimp only [Reveal.enter]
        split
        · rfl
        · cases d.window <;> rfl
    · rfl
  · rfl

theorem close_forget (d : Document) : d.close.forget =
    if d.closed then d.forget else { d.forget with window := none, pending := false, closed := true } := by
  rw [close]
  split
  · rfl
  · rw [reveal, Reveal.reset]
    cases d.window <;> rfl

theorem changed_forget (d : Document) (g : Grammar) (pos added : Int) : (d.changed g pos added).1.forget =
    { d.forget with
      text := (g.resizeUnderline d.text pos).elim d.text fun r => r.apply d.text
      overlays := [] } := by
  rw [changed, Plan.changed]
  cases g.resizeUnderline d.text pos <;> rfl

theorem edited_forget (d : Document) (g : Grammar) (e : TextEdit) : (d.edited g e).1.forget =
    { d.forget with
      text := (g.resizeUnderline (e.apply d.text) e.start).elim (e.apply d.text) fun r => r.apply (e.apply d.text)
      overlays := [] } :=
  changed_forget { d with text := e.apply d.text } g e.start e.text.length

theorem sent_forget (d : Document) (command output : Text) : (d.sent command output).forget = d.forget := by
  rw [sent, Plan.sent]
  split <;> rfl

def respond (backend : Backend) (s : Settings) (d : Document) : Step → Document
  | .setText text => { d with text := text }
  | .put pos => { d with cursor := pos }
  | .move pos => d.move pos
  | .fire => d.fire s
  | .edit e => (d.edited s.grammar e).1
  | .changed pos added => (d.changed s.grammar pos added).1
  | .evaluate wholeRun =>
    match (s.grammar.evaluate backend d.text d.cursor wholeRun).2 with
    | .ok r => d.showResult r
    | .error _ => d
  | .cycleTitle => (d.cycleTitle s.grammar).1
  | .copySnippet =>
    match (s.grammar.execute backend d.text d.cursor).2 with
    | .ok r => d.sent r.1 r.2
    | .error _ => d
  | .close => d.close
  | .toggle _ | .hideAll | .refresh | .set _ _ => d

end Document

namespace Workspace

variable {w : Workspace} {backend : Backend}

theorem install_documents (w : Workspace) (c : Change Nat) :
    (w.install c).documents.map Document.forget = w.documents.map Document.forget := by
  have hfold : ∀ (audience : List Nat) (w : Workspace),
      (audience.foldl (fun w i => w.modify i Document.refresh) w).documents.map Document.forget =
        w.documents.map Document.forget := by
    intro audience
    induction audience with
    | nil => exact fun w => rfl
    | cons i audience ih =>
      intro w
      rw [List.foldl_cons, ih, modify]
      exact List.ext_getElem? fun j => by
        rw [List.getElem?_map, List.getElem?_map, List.getElem?_modify]
        cases w.documents[j]? with
        | none => rfl
        | some d => by_cases hij : i = j <;> simp [hij, Document.refresh_forget]
  exact hfold _ _

theorem install_store (w : Workspace) (c : Change Nat) : (w.install c).store = c.store := by
  have hfold : ∀ (audience : List Nat) (w : Workspace),
      (audience.foldl (fun w i => w.modify i Document.refresh) w).store = w.store := by
    intro audience
    induction audience with
    | nil => exact fun w => rfl
    | cons i audience ih => exact fun w => ih _
  exact hfold _ _

theorem put_documents (w : Workspace) (i : Nat) (d : Document) : (w.put i d).documents = w.documents.set i d := by
  rw [put, modify, List.modify_eq_set_getElem?]
  cases hi : w.documents[i]? with
  | none => exact (List.set_eq_of_length_le (List.getElem?_eq_none_iff.mp hi)).symm
  | some _ => rfl

theorem stepOn_documents {i : Nat} {d : Document} (hd : w.documents[i]? = some d) (s : Step) :
    (w.stepOn backend i d s).1.documents.map Document.forget =
      (w.documents.set i (d.respond backend w.settings s)).map Document.forget := by
  have hself : w.documents.set i d = w.documents := by
    obtain ⟨hi, rfl⟩ := List.getElem?_eq_some_iff.mp hd
    exact List.set_getElem_self hi
  have hinstall : ∀ c : Change Nat, (w.install c).documents.map Document.forget =
      (w.documents.set i d).map Document.forget := by
    intro c
    rw [install_documents, hself]
  have hrefresh : (w.put i d.refresh).documents.map Document.forget = (w.documents.set i d).map Document.forget := by
    rw [put_documents, List.map_set, List.map_set, Document.refresh_forget]
  cases s with
  | toggle setting =>
    dsimp only [stepOn, Document.respond]
    cases w.store.toggle (.text setting.name.toList) with
    | error e => rw [hself]
    | ok p => exact hinstall p.1
  | hideAll =>
    dsimp only [stepOn, Document.respond]
    cases w.store.update allHidden with
    | error e => rw [hself]
    | ok c =>
      dsimp only
      split
      · exact hinstall c
      · exact hrefresh
  | set key value =>
    dsimp only [stepOn, Document.respond]
    cases w.store.set key value with
    | error e => rw [hself]
    | ok c => exact hinstall c
  | evaluate wholeRun =>
    dsimp only [stepOn, Document.respond, finish]
    rw [← grammar]
    cases (w.grammar.evaluate backend d.text d.cursor wholeRun).2 with
    | error e => rw [hself]
    | ok r => dsimp only; rw [put_documents]
  | copySnippet =>
    dsimp only [stepOn, Document.respond, finish]
    rw [← grammar]
    cases (w.grammar.execute backend d.text d.cursor).2 with
    | error e => rw [hself]
    | ok r => dsimp only; rw [put_documents]
  | refresh => exact hrefresh
  | _ => exact congrArg _ (put_documents w i _)

theorem step_documents (backend : Backend) (w : Workspace) (i : Nat) (s : Step) :
    (w.step backend i s).1.documents.map Document.forget =
      (w.documents.modify i fun d => d.respond backend w.settings s).map Document.forget := by
  rw [step, List.modify_eq_set_getElem?]
  cases hd : w.documents[i]? with
  | none => rfl
  | some d => exact stepOn_documents hd s

theorem step_document (backend : Backend) (w : Workspace) (i j : Nat) (s : Step) :
    (w.step backend i s).1.documents[j]?.map Document.forget =
      w.documents[j]?.map fun d => (if i = j then d.respond backend w.settings s else d).forget := by
  have h := congrArg (·[j]?) (step_documents backend w i s)
  simp only [List.getElem?_map, List.getElem?_modify] at h
  rw [h]
  cases w.documents[j]? <;> rfl

theorem exists_of_step {i j : Nat} {s : Step} {d' : Document}
    (h : (w.step backend i s).1.documents[j]? = some d') :
    ∃ d, w.documents[j]? = some d ∧ d'.forget = (if i = j then d.respond backend w.settings s else d).forget := by
  have hstep := step_document backend w i j s
  rw [h, Option.map_some, eq_comm, Option.map_eq_some_iff] at hstep
  obtain ⟨d, hd, he⟩ := hstep
  exact ⟨d, hd, he.symm⟩

theorem exists_step (backend : Backend) {i : Nat} {d : Document} (hd : w.documents[i]? = some d) (s : Step) :
    ∃ d', (w.step backend i s).1.documents[i]? = some d' ∧ d'.forget = (d.respond backend w.settings s).forget := by
  have hstep := step_document backend w i i s
  rw [hd, Option.map_some, if_pos rfl, Option.map_eq_some_iff] at hstep
  exact hstep

theorem step_store_cases (backend : Backend) (w : Workspace) (i : Nat) (s : Step) :
    (w.step backend i s).1.store = w.store ∨ (w.step backend i s).1.store = w.store.unsubscribe i ∨
      ∃ values c, w.store.update values = .ok c ∧ (w.step backend i s).1.store = c.store := by
  rw [step]
  cases w.documents[i]? with
  | none => exact .inl rfl
  | some d =>
    cases s with
    | toggle setting =>
      dsimp only [stepOn]
      cases hs : w.store.toggle (.text setting.name.toList) with
      | error e => exact .inl rfl
      | ok p =>
        obtain ⟨values, hu⟩ := Store.exists_of_toggle hs
        exact .inr (.inr ⟨values, p.1, hu, install_store w p.1⟩)
    | hideAll =>
      dsimp only [stepOn]
      cases hs : w.store.update allHidden with
      | error e => exact .inl rfl
      | ok c =>
        dsimp only
        split
        · exact .inr (.inr ⟨_, c, hs, install_store w c⟩)
        · exact .inl rfl
    | set key value =>
      dsimp only [stepOn]
      cases hs : w.store.set key value with
      | error e => exact .inl rfl
      | ok c => exact .inr (.inr ⟨_, c, hs, install_store w c⟩)
    | evaluate wholeRun =>
      dsimp only [stepOn, finish]
      cases (w.grammar.evaluate backend d.text d.cursor wholeRun).2 <;> exact .inl rfl
    | copySnippet =>
      dsimp only [stepOn, finish]
      cases (w.grammar.execute backend d.text d.cursor).2 <;> exact .inl rfl
    | close =>
      dsimp only [stepOn]
      cases d.closed with
      | true => exact .inl rfl
      | false => exact .inr (.inl rfl)
    | _ => exact .inl rfl

theorem step_settings (backend : Backend) (w : Workspace) (i : Nat) (s : Step) :
    ∃ values, w.settings.withValues values = .ok (w.step backend i s).1.settings := by
  rcases step_store_cases backend w i s with h | h | ⟨values, c, hu, h⟩
  · exact ⟨[], by rw [settings, settings, h]; rfl⟩
  · exact ⟨[], by rw [settings, settings, h]; rfl⟩
  · exact ⟨values, by rw [settings, settings, h]; exact Store.update_current hu⟩

theorem run_append (backend : Backend) (w : Workspace) (done more : List (Nat × Step)) :
    w.run backend (done ++ more) = (w.run backend done).run backend more := List.foldl_append

theorem run_snoc (backend : Backend) (w : Workspace) (done : List (Nat × Step)) (i : Nat) (s : Step) :
    w.run backend (done ++ [(i, s)]) = ((w.run backend done).step backend i s).1 := run_append backend w done [(i, s)]

theorem run_accepted (hw : Grammar.Accepted w.settings.titleStyles) (steps : List (Nat × Step)) :
    Grammar.Accepted (w.run backend steps).settings.titleStyles := by
  induction steps using List.reverseRecOn with
  | nil => exact hw
  | append_singleton done t ih =>
    obtain ⟨values, hv⟩ := step_settings backend (w.run backend done) t.1 t.2
    rw [run_snoc]
    exact Settings.withValues_accepted ih hv

theorem run_keeps {i : Nat} {motive : Document → Prop} (hrecord : ∀ d d', d'.forget = d.forget → motive d → motive d')
    {steps : List (Nat × Step)}
    (hstep : ∀ done s more, steps = done ++ (i, s) :: more → ∀ d, (w.run backend done).documents[i]? = some d →
      motive d → motive (d.respond backend (w.run backend done).settings s))
    (hstart : ∀ d, w.documents[i]? = some d → motive d) {d : Document}
    (hd : (w.run backend steps).documents[i]? = some d) : motive d := by
  induction steps using List.reverseRecOn generalizing d with
  | nil => exact hstart d hd
  | append_singleton done t ih =>
    rw [run_snoc] at hd
    obtain ⟨c, hc, he⟩ := exists_of_step hd
    have hmotive := ih (fun front s more h => hstep front s (more ++ [t]) (by rw [h]; simp)) hc
    by_cases hi : t.1 = i
    · rw [if_pos hi] at he
      subst hi
      exact hrecord _ _ he (hstep done t.2 [] rfl c hc hmotive)
    · rw [if_neg hi] at he
      exact hrecord _ _ he hmotive

end Workspace

end Literate
