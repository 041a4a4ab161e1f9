import Literate.Proofs.Session.Steps

namespace Literate

namespace Document

def noted (d : Document) (deeds : List Deed) : Document := { d with deeds := d.deeds ++ deeds }

def redrawn (d : Document) : Document := d.noted (if d.closed then [] else [.acted (.redraw ⟨0, d.text.length⟩)])

@[simp] theorem noted_nil (d : Document) : d.noted [] = d := by
  rw [noted, List.append_nil]

theorem redrawn_of_closed {d : Document} (h : d.closed = true) : d.redrawn = d := by
  rw [redrawn, if_pos h, noted_nil]

theorem redrawn_of_open {d : Document} (h : d.closed = false) : d.redrawn = d.refresh := by
  rw [redrawn, h]
  rfl

@[simp] theorem refresh_closed (d : Document) : d.refresh.closed = d.closed := rfl

theorem close_eq (d : Document) : d.close =
    if d.closed then d else { d with closed := true, window := none, pending := false }.noted
      (.revealed .cancel :: d.window.toList.map fun span => .revealed (.redraw span none)) := by
  rw [close]
  split
  · rfl
  · cases hw : d.window <;> simp [reveal, Reveal.reset, request, noted]

theorem close_of_closed {d : Document} (h : d.closed = true) : d.close = d := by
  rw [close, if_pos h]

@[simp] theorem close_closed (d : Document) : d.close.closed = true := by
  cases h : d.closed with
  | true => rwa [close_of_closed h]
  | false => simp [close_eq, h, noted]

theorem close_comp_close : close ∘ close = close := funext fun d => close_of_closed d.close_closed

@[simp] theorem forget_closed (d : Document) : d.forget.closed = d.closed := rfl

theorem respond_closed (backend : Backend) (s : Settings) (d : Document) {st : Step} (h : st ≠ .close) :
    (d.respond backend s st).closed = d.closed := by
  rw [← forget_closed, ← forget_closed d]
  cases st with
  | move pos => rw [respond, move_forget]
  | fire =>
    rw [respond, fire_forget]
    split <;> rfl
  | edit e => rw [respond, edited_forget]
  | changed pos added => rw [respond, changed_forget]
  | evaluate wholeRun =>
    rw [respond]
    split <;> rfl
  | copySnippet =>
    rw [respond]
    split
    · rw [sent_forget]
    · rfl
  | close => exact absurd rfl h
  | _ => rfl

end Document

namespace Step

def operates : Step → Bool
  | .toggle _ | .hideAll | .set _ _ => true
  | _ => false

end Step

def Event.operates : Event → Bool
  | .step _ s => s.operates
  | .update _ | .reset => true
  | .join _ _ _ => false

namespace Workspace

variable {w : Workspace} {backend : Backend}

structure Attended (w : Workspace) : Prop where
  nodup : w.store.listeners.Nodup
  mem : ∀ i, i ∈ w.store.listeners ↔ w.documents[i]?.map Document.closed = some false

def announce (w : Workspace) (settings : Settings) : Workspace :=
  ⟨{ w.store with current := settings }, w.documents.map Document.redrawn, w.executed⟩

theorem foldl_modify (f : Document → Document) (audience : List Nat) (w : Workspace) :
    audience.foldl (fun w i => w.modify i f) w =
      { w with documents := audience.foldl (fun ds i => ds.modify i f) w.documents } := by
  induction audience generalizing w with
  | nil => rfl
  | cons i audience ih => rw [List.foldl_cons, ih, List.foldl_cons, modify]

theorem getElem?_foldl_modify (f : Document → Document) {audience : List Nat} (h : audience.Nodup) (ds : List Document)
    (j : Nat) : (audience.foldl (fun ds i => ds.modify i f) ds)[j]? =
      ds[j]?.map fun d => if j ∈ audience then f d else d := by
  induction audience generalizing ds with
  | nil => simp
  | cons i audience ih =>
    obtain ⟨hi, hrest⟩ := List.nodup_cons.mp h
    rw [List.foldl_cons, ih hrest, List.getElem?_modify]
    cases ds[j]? with
    | none => rfl
    | some d =>
      by_cases hij : i = j
      · subst hij
        simp [hi]
      · simp [hij, Ne.symm hij]

theorem Attended.foldl_refresh (h : w.Attended) :
    w.store.listeners.foldl (fun ds i => ds.modify i Document.refresh) w.documents =
      w.documents.map Document.redrawn := by
  refine List.ext_getElem? fun j => ?_
  rw [getElem?_foldl_modify _ h.nodup, List.getElem?_map]
  cases hd : w.documents[j]? with
  | none => rfl
  | some d =>
    have hj := h.mem j
    rw [hd, Option.map_some, Option.some_inj] at hj
    cases hc : d.closed with
    | false => simp [hj.mpr hc, Document.redrawn_of_open hc]
    | true => simp [hj, hc, Document.redrawn_of_closed hc]

theorem install_publish (h : w.Attended) (settings : Settings) :
    w.install (w.store.publish settings) = if settings = w.settings then w else w.announce settings := by
  rw [install, Store.publish, Workspace.settings]
  by_cases hs : settings = w.store.current
  · rw [if_pos hs, if_pos hs]
    rfl
  · rw [if_neg hs, if_neg hs, Change.audience, if_pos rfl, foldl_modify, announce]
    exact congrArg (Workspace.mk _ · _) h.foldl_refresh

def kept (w : Workspace) : Event → Workspace
  | .step i .hideAll => w.modify i Document.refresh
  | _ => w

@[simp] theorem kept_store (w : Workspace) (e : Event) : (w.kept e).store = w.store := by
  unfold kept
  split <;> rfl

theorem put_eq_modify {i : Nat} {d : Document} (hd : w.documents[i]? = some d) (f : Document → Document) :
    w.put i (f d) = w.modify i f := by
  refine congrArg (Workspace.mk _ · _) (List.ext_getElem? fun j => ?_)
  rw [List.getElem?_modify, List.getElem?_modify]
  by_cases hij : i = j
  · subst hij
    simp [hd]
  · simp [hij]

theorem modify_of_none {i : Nat} (hd : w.documents[i]? = none) (f : Document → Document) : w.modify i f = w := by
  rw [modify, List.modify_eq_self (List.getElem?_eq_none_iff.mp hd)]

theorem map_closed_modify {f : Document → Document} (hf : ∀ d, (f d).closed = d.closed) (ds : List Document) (i : Nat) :
    (ds.modify i f).map Document.closed = ds.map Document.closed := by
  refine List.ext_getElem? fun j => ?_
  rw [List.getElem?_map, List.getElem?_map, List.getElem?_modify]
  cases ds[j]? with
  | none => rfl
  | some d => by_cases hij : i = j <;> simp [hij, hf]

theorem update_allHidden (s : Store Nat) :
    s.update allHidden = .ok (s.publish { s.current with hideTitleMarkup := true, hideQuotes := true }) := rfl

theorem handle_operates (h : w.Attended) {e : Event} (he : e.operates = true) :
    (∃ settings, settings ≠ w.settings ∧ (w.handle backend e).1 = w.announce settings) ∨
      (w.handle backend e).1 = w.kept e := by
  have hinstall : ∀ settings, (∃ next, next ≠ w.settings ∧ w.install (w.store.publish settings) = w.announce next) ∨
      w.install (w.store.publish settings) = w := by
    intro settings
    rw [install_publish h]
    by_cases hs : settings = w.settings
    · exact .inr (if_pos hs)
    · exact .inl ⟨settings, hs, if_neg hs⟩
  cases e with
  | join => simp [Event.operates] at he
  | update values =>
    rw [handle]
    cases hu : w.store.update values with
    | error e => exact .inr rfl
    | ok c =>
      obtain ⟨settings, -, rfl⟩ := Store.exists_of_update hu
      exact hinstall settings
  | reset => exact hinstall w.store.defaults
  | step i s =>
    rw [handle, step]
    cases hd : w.documents[i]? with
    | none =>
      refine .inr ?_
      cases s with
      | hideAll => exact (modify_of_none hd _).symm
      | _ => rfl
    | some d =>
      cases s with
      | toggle setting =>
        dsimp only [stepOn]
        cases ht : w.store.toggle (.text setting.name.toList) with
        | error e => exact .inr rfl
        | ok p =>
          obtain ⟨values, hu⟩ := Store.exists_of_toggle ht
          obtain ⟨settings, -, hc⟩ := Store.exists_of_update hu
          dsimp only
          rw [← hc]
          exact hinstall settings
      | set key value =>
        dsimp only [stepOn]
        cases hu : w.store.set key value with
        | error e => exact .inr rfl
        | ok c =>
          obtain ⟨settings, -, rfl⟩ := Store.exists_of_update hu
          exact hinstall settings
      | hideAll =>
        dsimp only [stepOn]
        rw [update_allHidden]
        dsimp only
        split
        · rename_i hchanged
          rw [Store.publish_changed] at hchanged
          have hne := of_decide_eq_true hchanged
          exact .inl ⟨_, hne, (install_publish h _).trans (if_neg hne)⟩
        · exact .inr (put_eq_modify hd _)
      | _ => simp [Event.operates, Step.operates] at he

section Steps

variable {i : Nat} {s : Step}

theorem step_store (hs : s.operates = false) (hclose : s ≠ .close) : (w.step backend i s).1.store = w.store := by
  rw [step]
  cases w.documents[i]? with
  | none => rfl
  | some d =>
    cases s with
    | toggle | hideAll | set => simp [Step.operates] at hs
    | close => exact absurd rfl hclose
    | evaluate wholeRun =>
      dsimp only [stepOn, finish]
      split <;> rfl
    | copySnippet =>
      dsimp only [stepOn, finish]
      split <;> rfl
    | _ => rfl

theorem step_closed (hclose : s ≠ .close) :
    (w.step backend i s).1.documents.map Document.closed = w.documents.map Document.closed := by
  have hdocuments := congrArg (List.map Document.closed) (step_documents backend w i s)
  rw [List.map_map, List.map_map] at hdocuments
  exact hdocuments.trans (map_closed_modify (fun d => Document.respond_closed backend w.settings d hclose) _ i)

theorem step_close {d : Document} (hd : w.documents[i]? = some d) : (w.step backend i .close).1 =
    ⟨if d.closed then w.store else w.store.unsubscribe i, w.documents.modify i Document.close, w.executed⟩ := by
  rw [step, hd]
  dsimp only [stepOn]
  rw [put_eq_modify hd Document.close]
  rfl

theorem step_close_close (backend : Backend) (w : Workspace) (i : Nat) :
    ((w.step backend i .close).1.step backend i .close).1 = (w.step backend i .close).1 := by
  cases hd : w.documents[i]? with
  | none =>
    have hnone : w.step backend i .close = (w, .ok .none) := by rw [step, hd]
    rw [hnone, hnone]
  | some d =>
    have hclosed : (w.step backend i .close).1.documents[i]? = some d.close := by
      rw [step_close hd, List.getElem?_modify_eq, hd]
      rfl
    rw [step_close hclosed, Document.close_closed, if_pos rfl, step_close hd, List.modify_modify_eq,
      Document.close_comp_close]

end Steps

namespace Attended

theorem of_closed (h : w.Attended) {v : Workspace} (hlisteners : v.store.listeners = w.store.listeners)
    (hclosed : v.documents.map Document.closed = w.documents.map Document.closed) : v.Attended := by
  constructor
  · rw [hlisteners]
    exact h.nodup
  · intro i
    rw [hlisteners, h.mem, ← List.getElem?_map, ← List.getElem?_map, hclosed]

theorem announce (h : w.Attended) (settings : Settings) : (w.announce settings).Attended := by
  refine h.of_closed rfl ?_
  rw [Workspace.announce, List.map_map]
  rfl

theorem kept (h : w.Attended) (e : Event) : (w.kept e).Attended := by
  unfold Workspace.kept
  split
  · exact h.of_closed rfl (map_closed_modify Document.refresh_closed _ _)
  · exact h

theorem join (h : w.Attended) {d : Document} (hd : d.closed = false) : (w.join d).Attended := by
  have hnew : w.documents.length ∉ w.store.listeners := by
    rw [h.mem, List.getElem?_eq_none (Nat.le_refl _)]
    simp
  have hlisteners : (w.join d).store.listeners = w.store.listeners ++ [w.documents.length] := by
    rw [Workspace.join, Store.subscribe, if_neg hnew]
  constructor
  · rw [hlisteners, List.nodup_append_comm]
    exact List.nodup_cons.mpr ⟨hnew, h.nodup⟩
  · intro i
    rw [hlisteners, List.mem_append, List.mem_singleton, h.mem, Workspace.join]
    rcases Nat.lt_trichotomy i w.documents.length with hlt | rfl | hgt
    · rw [List.getElem?_append_left hlt]
      exact or_iff_left (Nat.ne_of_lt hlt)
    · rw [List.getElem?_concat_length, Option.map_some, hd]
      exact iff_of_true (.inr rfl) rfl
    · rw [List.getElem?_eq_none (Nat.le_of_lt hgt), List.getElem?_eq_none (by rw [List.length_append]; exact hgt)]
      exact or_iff_left (Nat.ne_of_gt hgt)

theorem close (h : w.Attended) (i : Nat) : (w.step backend i .close).1.Attended := by
  cases hd : w.documents[i]? with
  | none => rwa [step, hd]
  | some d =>
    rw [step_close hd]
    cases hc : d.closed with
    | true =>
      refine h.of_closed rfl (List.ext_getElem? fun j => ?_)
      rw [List.getElem?_map, List.getElem?_map, List.getElem?_modify]
      by_cases hij : i = j
      · subst hij
        simp [hd, hc]
      · simp [hij]
    | false =>
      constructor
      · exact h.nodup.erase i
      · intro j
        have herase : j ∈ w.store.listeners.erase i ↔ j ≠ i ∧ j ∈ w.store.listeners := h.nodup.mem_erase_iff
        refine herase.trans ?_
        rw [h.mem, List.getElem?_modify]
        by_cases hij : i = j
        · subst hij
          simp [hd]
        · simp [hij, Ne.symm hij]

theorem handle (h : w.Attended) (e : Event) : (w.handle backend e).1.Attended := by
  cases he : e.operates with
  | true =>
    rcases handle_operates h he with ⟨settings, -, hw⟩ | hw
    · rw [hw]
      exact h.announce settings
    · rw [hw]
      exact h.kept e
  | false =>
    cases e with
    | join text cursor target => exact h.join rfl
    | update | reset => simp [Event.operates] at he
    | step i s =>
      by_cases hs : s = .close
      · rw [hs]
        exact h.close i
      · exact h.of_closed (congrArg Store.listeners (step_store he hs)) (step_closed hs)

theorem handleAll (h : w.Attended) (events : List Event) : (w.handleAll backend events).Attended := by
  induction events generalizing w with
  | nil => exact h
  | cons e events ih => exact ih (h.handle e)

end Attended

theorem attended_ofDefaults (defaults : Settings) : (ofDefaults defaults).Attended :=
  ⟨List.nodup_nil, fun i => by simp [ofDefaults, Store.ofDefaults]⟩

theorem handle_settings {e : Event} (he : e.operates = false) : (w.handle backend e).1.settings = w.settings := by
  cases e with
  | join text cursor target => exact Store.subscribe_current _ _
  | update | reset => simp [Event.operates] at he
  | step i s =>
    by_cases hs : s = .close
    · subst hs
      cases hd : w.documents[i]? with
      | none => rw [handle, step, hd]
      | some d =>
        rw [handle, step_close hd, Workspace.settings]
        dsimp only
        split <;> rfl
    · exact congrArg Store.current (step_store he hs)

theorem Attended.documents_of_changed (h : w.Attended) {e : Event}
    (hne : (w.handle backend e).1.settings ≠ w.settings) :
    (w.handle backend e).1.documents = w.documents.map Document.redrawn := by
  cases he : e.operates with
  | false => exact absurd (handle_settings he) hne
  | true =>
    rcases handle_operates h he with ⟨settings, -, hafter⟩ | hafter
    · exact congrArg documents hafter
    · exact absurd (by rw [hafter, Workspace.settings, kept_store, Workspace.settings]) hne

theorem Attended.eq_kept (h : w.Attended) {e : Event} (he : e.operates = true)
    (heq : (w.handle backend e).1.settings = w.settings) : (w.handle backend e).1 = w.kept e := by
  rcases handle_operates h he with ⟨settings, hne, hafter⟩ | hafter
  · rw [hafter] at heq
    exact absurd heq hne
  · exact hafter

theorem close_documents (backend : Backend) (w : Workspace) (i : Nat) :
    (w.step backend i .close).1.documents = w.documents.modify i Document.close := by
  cases hd : w.documents[i]? with
  | none => rw [step, hd, List.modify_eq_self (List.getElem?_eq_none_iff.mp hd)]
  | some d => rw [step_close hd]

/-- Whatever has happened to documents that share a store, an event that changes the settings makes each open document
ask for one redraw of its whole text, and no closed one for anything. An event that asks for the settings in force
leaves everything alone, except that a document that hides all markup is drawn again. Closing a document asks for no
more than a redraw of its own window, and closing it again does nothing. -/
theorem handleAll_redraws (backend : Backend) (defaults : Settings) (history : List Event) :
    let w := (ofDefaults defaults).handleAll backend history
    (∀ e, let after := (w.handle backend e).1
      after.settings ≠ w.settings → after.documents = w.documents.map fun d =>
        d.noted (if d.closed then [] else [.acted (.redraw ⟨0, d.text.length⟩)])) ∧
    (∀ e, let after := (w.handle backend e).1
      e.operates = true → after.settings = w.settings → after =
        match e with
        | .step i .hideAll => w.modify i fun d => d.noted [.acted (.redraw ⟨0, d.text.length⟩)]
        | _ => w) ∧
    ∀ i, let after := (w.handle backend (.step i .close)).1
      after.settings = w.settings ∧
        after.documents = w.documents.modify i (fun d =>
          if d.closed then d else { d with closed := true, window := none, pending := false }.noted
            (.revealed .cancel :: d.window.toList.map fun span => .revealed (.redraw span none))) ∧
        (after.handle backend (.step i .close)).1 = after := by
  intro w
  have hw : w.Attended := (attended_ofDefaults defaults).handleAll history
  refine ⟨fun e hne => hw.documents_of_changed hne, fun e he heq => hw.eq_kept he heq, fun i => ?_⟩
  refine ⟨handle_settings rfl, (close_documents backend w i).trans ?_, step_close_close backend w i⟩
  congr 1
  funext d
  exact d.close_eq

theorem handleAll_redraws_open :
    let w := (ofDefaults {}).handleAll (fun _ => .value .null)
      [.join "a".toList 0 false, .join "bc".toList 0 false, .step 1 .close]
    let after := (w.handle (fun _ => .value .null) (.step 1 .hideAll)).1
    after.settings ≠ w.settings ∧
      after.documents.map Document.deeds = [[.acted (.redraw ⟨0, 1⟩)], [.revealed .cancel]] := by
  intro w after
  have hne : after.settings ≠ w.settings := by decide +kernel
  refine ⟨hne, ?_⟩
  rw [(handleAll_redraws (fun _ => .value .null) {} [.join "a".toList 0 false, .join "bc".toList 0 false,
    .step 1 .close]).1 (.step 1 .hideAll) hne]
  decide +kernel

end Workspace

end Literate
