import Mathlib.Data.List.Induction
import Literate.Reveal

namespace Literate.Reveal

theorem leave_fst (pos : Int) (window : Window) : (leave pos window).1 = window.filter (·.contains pos) := by
  cases window with
  | none => rfl
  | some w =>
    rw [leave, Option.filter_some]
    split <;> rfl

theorem enter_fst (pos : Int) (found : Option Span) (window : Window) :
    (enter pos found window).1 = (found.filter (·.contains pos)).or window := by
  cases found with
  | none => rfl
  | some w =>
    dsimp only [enter]
    rw [Option.filter_some]
    by_cases hc : w.contains pos = true
    · rw [if_pos hc]
      by_cases hw : window = some w
      · rw [if_pos (.inl hw)]
        exact hw
      · rw [if_neg (by simp [hw, hc])]
        rfl
    · rw [if_neg hc, if_pos (.inr (by simpa using hc))]
      rfl

def Request.drawn? (s : Span) : Request → Option Window
  | redraw range window => if range = s then some window else none
  | schedule _ | cancel => none

def lastDrawn? (s : Span) (requests : List Request) : Option Window :=
  requests.reverse.findSome? (Request.drawn? s)

section Drawn

variable (s : Span)

theorem lastDrawn?_append (requests more : List Request) :
    lastDrawn? s (requests ++ more) = (lastDrawn? s more).or (lastDrawn? s requests) := by
  rw [lastDrawn?, List.reverse_append, List.findSome?_append]
  rfl

@[simp] theorem lastDrawn?_nil : lastDrawn? s [] = none := rfl

@[simp] theorem lastDrawn?_singleton (r : Request) : lastDrawn? s [r] = r.drawn? s := by
  rw [lastDrawn?, List.reverse_singleton, List.findSome?_singleton]

@[simp] theorem lastDrawn?_concat_schedule (requests : List Request) (delay : Int) :
    lastDrawn? s (requests ++ [.schedule delay]) = lastDrawn? s requests := by
  rw [lastDrawn?_append, lastDrawn?_singleton, Request.drawn?, Option.none_or]

@[simp] theorem lastDrawn?_cancel (requests : List Request) :
    lastDrawn? s (.cancel :: requests) = lastDrawn? s requests := by
  rw [← List.singleton_append, lastDrawn?_append, lastDrawn?_singleton, Request.drawn?, Option.or_none]

end Drawn

def Outcome.Faithful (window : Window) (o : Outcome) : Prop :=
  ∀ (s : Span) (before : Option Window), (before = some (some s) ↔ window = some s) →
    ((lastDrawn? s o.2).or before = some (some s) ↔ o.1 = some s)

section Outcomes

variable {window : Window}

theorem faithful_still (window : Window) : Outcome.Faithful window (window, []) :=
  fun _ _ h => h

theorem faithful_given_up (w : Span) : Outcome.Faithful (some w) (none, [.redraw w none]) := by
  intro s before h
  rw [lastDrawn?_singleton, Request.drawn?]
  by_cases hw : w = s
  · simp [hw]
  · simp [hw, h]

theorem leave_faithful (pos : Int) (window : Window) : (leave pos window).Faithful window := by
  cases window with
  | none => exact faithful_still none
  | some w =>
    rw [leave]
    split
    · exact faithful_still (some w)
    · exact faithful_given_up w

theorem cursorMoved_faithful (delay pos : Int) (window : Window) : (cursorMoved delay pos window).Faithful window := by
  intro s before h
  rw [cursorMoved, lastDrawn?_concat_schedule]
  exact leave_faithful pos window s before h

theorem enter_faithful (pos : Int) (found : Option Span) (window : Window) :
    (enter pos found window).Faithful window := by
  cases found with
  | none => exact faithful_still window
  | some w =>
    rw [enter]
    split
    · exact faithful_still window
    · intro s before h
      rw [lastDrawn?_append, lastDrawn?_singleton, Request.drawn?]
      by_cases hw : w = s
      · simp [hw]
      -- the span of the old window is drawn in the new one already
      · cases window with
        | none => simp [hw, h]
        | some old =>
          by_cases hold : old = s
          · simp [hw, hold, Request.drawn?]
          · simp [hw, hold, h, Request.drawn?]

theorem rested_faithful (enabled : Bool) (pos : Int) (found : Option Span) (window : Window) :
    (rested enabled pos found window).Faithful window := by
  rw [rested]
  split
  · exact enter_faithful pos found window
  · exact faithful_still window

theorem reset_faithful (window : Window) : (reset window).Faithful window := by
  intro s before h
  rw [reset, lastDrawn?_cancel]
  cases window with
  | none => exact faithful_still none s before h
  | some w => exact faithful_given_up w s before h

end Outcomes

namespace Place

variable {p : Place}

def InStep (p : Place) : Prop := ∀ s, lastDrawn? s p.requests = some (some s) ↔ p.window = some s

def Inside (p : Place) : Prop := ∀ s, p.window = some s → s.contains p.cursor = true

theorem InStep.keep (hp : p.InStep) {o : Outcome} (ho : o.Faithful p.window) : (p.keep o).InStep := by
  intro s
  rw [Place.keep, lastDrawn?_append]
  exact ho s _ (hp s)

theorem InStep.check (hp : p.InStep) : p.check.InStep := hp.keep (rested_faithful _ _ _ _)

theorem InStep.step (hp : p.InStep) (e : Event) : (p.step e).InStep := by
  cases e with
  | move pos => exact hp.keep (cursorMoved_faithful p.delay pos p.window)
  | put pos => exact hp
  | index spanAt => exact hp
  | enable b => exact hp
  | fire =>
    rw [Place.step]
    split
    · exact InStep.check (p := { p with pending := false }) hp
    · exact hp
  | check => exact hp.check
  | reset => exact hp.keep (reset_faithful p.window)

theorem Inside.check (hp : p.Inside) : p.check.Inside := by
  intro s hs
  have hw : (rested p.enabled p.cursor (p.spanAt p.cursor) p.window).1 = some s := hs
  rw [rested] at hw
  split at hw
  · rw [enter_fst, Option.or_eq_some_iff] at hw
    rcases hw with hfound | ⟨-, hold⟩
    · exact (Option.filter_eq_some_iff.mp hfound).2
    · exact hp s hold
  · exact hp s hw

theorem Inside.step (hp : p.Inside) {e : Event} (he : ∀ pos, e ≠ .put pos) : (p.step e).Inside := by
  cases e with
  | move pos =>
    intro s hs
    have hw : (leave pos p.window).1 = some s := hs
    rw [leave_fst] at hw
    exact (Option.filter_eq_some_iff.mp hw).2
  | put pos => exact absurd rfl (he pos)
  | index spanAt => exact hp
  | enable b => exact hp
  | fire =>
    rw [Place.step]
    split
    · exact Inside.check (p := { p with pending := false }) hp
    · exact hp
  | check => exact hp.check
  | reset => exact fun s hs => by simp [Place.step, Place.keep, Reveal.reset] at hs

def fresh (delay : Int) (enabled : Bool) (spanAt : Int → Option Span) (cursor : Int) (pending : Bool) : Place :=
  ⟨delay, enabled, spanAt, cursor, pending, none, []⟩

/-- After every run the window is the one span that was drawn last as revealed, if there is one at all. It holds the
cursor as long as all moves of the cursor are reported. -/
theorem run_inStep (delay : Int) (enabled : Bool) (spanAt : Int → Option Span) (cursor : Int) (pending : Bool)
    (events : List Event) :
    let p := events.foldl Place.step (fresh delay enabled spanAt cursor pending)
    (∀ s, lastDrawn? s p.requests = some (some s) ↔ p.window = some s) ∧
      ((∀ pos, .put pos ∉ events) → ∀ s, p.window = some s → s.contains p.cursor = true) := by
  induction events using List.reverseRecOn with
  | nil =>
    refine ⟨fun s => ?_, fun _ s hs => ?_⟩
    · simp [fresh]
    · simp [fresh] at hs
  | append_singleton events e ih =>
    obtain ⟨hstep, hinside⟩ := ih
    rw [List.foldl_append, List.foldl_cons, List.foldl_nil]
    refine ⟨InStep.step hstep e, fun hput => ?_⟩
    refine Inside.step (hinside fun pos hm => hput pos (List.mem_append_left _ hm)) fun pos he => hput pos ?_
    rw [he]
    exact List.mem_append_right _ (List.mem_singleton_self _)

end Place

end Literate.Reveal
