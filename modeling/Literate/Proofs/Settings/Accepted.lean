import Literate.Proofs.Grammar.Styles
import Literate.Settings.Store

namespace Literate

theorem readStyles_accepted {value : Value} {styles : List Char} (h : readStyles value = .ok styles) :
    Grammar.Accepted styles := by
  cases value with
  | text t =>
    simp only [readStyles] at h
    split at h
    · obtain rfl := Except.ok.inj h
      exact Grammar.accepted_of_make ‹_›
    · simp at h
  | list values =>
    simp only [readStyles] at h
    split at h
    · obtain rfl := Except.ok.inj h
      exact Grammar.accepted_of_make ‹_›
    · simp at h
  | _ => simp [readStyles] at h

namespace Settings

variable {s next : Settings}

theorem write_accepted (hs : Grammar.Accepted s.titleStyles) {setting : Setting} {value : Value}
    (h : s.write setting value = .ok next) : Grammar.Accepted next.titleStyles := by
  cases setting with
  | titleStyles =>
    obtain ⟨styles, hr, rfl⟩ := exists_of_map_eq_ok h
    exact readStyles_accepted hr
  | _ =>
    obtain ⟨b, -, rfl⟩ := exists_of_map_eq_ok h
    exact hs

theorem withValues_accepted {values : List (Value × Value)} (hs : Grammar.Accepted s.titleStyles)
    (h : s.withValues values = .ok next) : Grammar.Accepted next.titleStyles := by
  induction values generalizing s with
  | nil =>
    obtain rfl := Except.ok.inj h
    exact hs
  | cons p values ih =>
    rw [withValues] at h
    cases hk : Setting.ofKey p.1 with
    | error e => simp [hk] at h
    | ok setting =>
      simp only [hk] at h
      cases hw : s.write setting p.2 with
      | error e => simp [hw] at h
      | ok t =>
        simp only [hw] at h
        exact ih (write_accepted hs hw) h

end Settings

namespace Store

variable {ι : Type} {s : Store ι} {c : Change ι}

theorem update_current {values : List (Value × Value)} (h : s.update values = .ok c) :
    s.current.withValues values = .ok c.store.current := by
  obtain ⟨next, hv, rfl⟩ := exists_of_update h
  rw [publish_current]
  exact hv

end Store

end Literate
