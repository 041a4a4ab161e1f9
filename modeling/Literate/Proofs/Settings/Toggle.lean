import Mathlib.Data.List.Basic
import Literate.Settings.Store

namespace Literate

theorem Setting.ofKey_name (setting : Setting) : ofKey (.text setting.name.toList) = .ok setting := by
  cases setting <;> rfl

namespace Settings

variable {s t : Settings} {setting : Setting} {b : Bool}

theorem read_eq_bool_iff : s.read setting = .bool b ↔ s.flag setting = some b := by
  cases setting <;> simp [read, flag]

theorem eq_of_read (h : ∀ setting, t.read setting = s.read setting) : t = s := by
  have htitles := Value.bool.inj (h .hideTitleMarkup)
  have hquotes := Value.bool.inj (h .hideQuotes)
  have hreveal := Value.bool.inj (h .revealAtPoint)
  have hinj : Function.Injective fun c : Char => Value.text [c] := fun c d hcd => by simpa using hcd
  have hstyles := List.map_injective_iff.mpr hinj (Value.list.inj (h .titleStyles))
  calc t
    _ = ⟨t.hideTitleMarkup, t.hideQuotes, t.revealAtPoint, t.titleStyles⟩ := rfl
    _ = s := by rw [htitles, hquotes, hreveal, hstyles]

theorem exists_write_flag (h : (s.flag setting).isSome = true) (b : Bool) : ∃ next, s.write setting (.bool b) = .ok next ∧
    ∀ other, next.read other = if other = setting then .bool b else s.read other := by
  cases setting with
  | titleStyles => cases h
  | hideTitleMarkup =>
    refine ⟨{ s with hideTitleMarkup := b }, rfl, fun other => ?_⟩
    cases other <;> rfl
  | hideQuotes =>
    refine ⟨{ s with hideQuotes := b }, rfl, fun other => ?_⟩
    cases other <;> rfl
  | revealAtPoint =>
    refine ⟨{ s with revealAtPoint := b }, rfl, fun other => ?_⟩
    cases other <;> rfl

end Settings

namespace Store

variable {ι : Type} {s : Store ι} {key : Value} {setting : Setting} {b : Bool}

theorem toggle_flips (hk : Setting.ofKey key = .ok setting) (hb : s.current.flag setting = some b) :
    ∃ next, s.toggle key = .ok (⟨{ s with current := next }, true⟩, !b) ∧
      ∀ other, next.read other = if other = setting then .bool !b else s.current.read other := by
  obtain ⟨next, hwrite, hread⟩ := Settings.exists_write_flag (s := s.current) (by rw [hb]; rfl) !b
  refine ⟨next, ?_, hread⟩
  have hne : next ≠ s.current := by
    rintro rfl
    have hflag := Settings.read_eq_bool_iff.mp ((hread setting).trans (if_pos rfl))
    rw [hb] at hflag
    cases b <;> cases hflag
  have htoggled : s.toggled key = .ok (setting, !b) := by simp only [toggled, hk, hb]
  have hset : s.set (.text setting.name.toList) (.bool !b) = .ok ⟨{ s with current := next }, true⟩ := by
    simp only [set, update, Settings.withValues, Setting.ofKey_name, hwrite, Except.map, publish, if_neg hne]
  simp only [toggle, htoggled, hset, Except.map]

theorem toggle_toggle (hk : Setting.ofKey key = .ok setting) (hb : s.current.flag setting = some b) :
    ∃ c, s.toggle key = .ok (c, !b) ∧ c.store.toggle key = .ok (⟨s, true⟩, b) := by
  obtain ⟨next, hnext, hread⟩ := toggle_flips hk hb
  have hflag : next.flag setting = some !b := Settings.read_eq_bool_iff.mp ((hread setting).trans (if_pos rfl))
  obtain ⟨last, hlast, hback⟩ := toggle_flips (s := { s with current := next }) hk hflag
  have hsame : last = s.current := Settings.eq_of_read fun other => by
    rw [hback, hread, Bool.not_not]
    split
    · rename_i hother
      rw [hother, Settings.read_eq_bool_iff.mpr hb]
    · rfl
  rw [hsame, Bool.not_not] at hlast
  exact ⟨_, hnext, hlast⟩

end Store

end Literate
