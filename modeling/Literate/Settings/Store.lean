import Literate.Settings.Basic

namespace Literate

structure Store (ι : Type) where
  defaults : Settings
  current : Settings
  listeners : List ι
deriving DecidableEq, Repr

structure Change (ι : Type) where
  store : Store ι
  changed : Bool

namespace Change

variable {ι : Type}

def audience (c : Change ι) : List ι := if c.changed then c.store.listeners else []

end Change

namespace Store

variable {ι : Type}

def ofDefaults (defaults : Settings) : Store ι := ⟨defaults, defaults, []⟩

def publish (s : Store ι) (settings : Settings) : Change ι :=
  if settings = s.current then ⟨s, false⟩ else ⟨{ s with current := settings }, true⟩

@[simp] theorem publish_current (s : Store ι) (settings : Settings) : (s.publish settings).store.current = settings := by
  rw [publish]
  split
  · exact Eq.symm ‹_›
  · rfl

@[simp] theorem publish_listeners (s : Store ι) (settings : Settings) :
    (s.publish settings).store.listeners = s.listeners := by
  rw [publish]
  split <;> rfl

theorem publish_changed (s : Store ι) (settings : Settings) :
    (s.publish settings).changed = decide (settings ≠ s.current) := by
  rw [publish]
  split
  · exact (decide_eq_false (not_not_intro ‹_›)).symm
  · exact (decide_eq_true ‹_›).symm

def get (s : Store ι) (key : Value) : Except SettingsError Value :=
  (Setting.ofKey key).map s.current.read

def update (s : Store ι) (values : List (Value × Value)) : Except SettingsError (Change ι) :=
  (s.current.withValues values).map s.publish

def set (s : Store ι) (key value : Value) : Except SettingsError (Change ι) := s.update [(key, value)]

def reset (s : Store ι) : Change ι := s.publish s.defaults

def toggled (s : Store ι) (key : Value) : Except SettingsError (Setting × Bool) :=
  match Setting.ofKey key with
  | .error e => .error e
  | .ok setting =>
    match s.current.flag setting with
    | some b => .ok (setting, !b)
    | none => .error (.notToggle key)

def toggle (s : Store ι) (key : Value) : Except SettingsError (Change ι × Bool) :=
  match s.toggled key with
  | .error e => .error e
  | .ok (setting, b) => (s.set (.text setting.name.toList) (.bool b)).map fun c => (c, b)

section Success

variable {s : Store ι} {c : Change ι}

theorem exists_of_update {values : List (Value × Value)} (h : s.update values = .ok c) :
    ∃ settings, s.current.withValues values = .ok settings ∧ s.publish settings = c := exists_of_map_eq_ok h

theorem exists_of_toggle {key : Value} {b : Bool} (h : s.toggle key = .ok (c, b)) :
    ∃ values, s.update values = .ok c := by
  rw [toggle] at h
  cases ht : s.toggled key with
  | error e => simp [ht] at h
  | ok p =>
    simp only [ht] at h
    obtain ⟨d, hd, he⟩ := exists_of_map_eq_ok h
    obtain ⟨rfl, -⟩ := Prod.mk.inj he
    exact ⟨_, hd⟩

end Success

variable [DecidableEq ι]

def subscribe (s : Store ι) (listener : ι) : Store ι :=
  if listener ∈ s.listeners then s else { s with listeners := s.listeners ++ [listener] }

def unsubscribe (s : Store ι) (listener : ι) : Store ι :=
  { s with listeners := s.listeners.erase listener }

@[simp] theorem subscribe_current (s : Store ι) (listener : ι) : (s.subscribe listener).current = s.current := by
  rw [subscribe]
  split <;> rfl

@[simp] theorem unsubscribe_current (s : Store ι) (listener : ι) : (s.unsubscribe listener).current = s.current := rfl

end Store

end Literate
