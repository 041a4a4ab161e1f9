import Literate.Proofs.Session.Listening
import Literate.Proofs.Settings.Telling
import Literate.Proofs.Settings.Toggle

namespace Literate

theorem readStyles_list {styles : List Char} (h : Grammar.Accepted styles) :
    readStyles (.list (styles.map fun c => .text [c])) = .ok styles := by
  have hplain : (styles.map fun c => Value.text [c]).map Value.plain = styles.map fun c => [c] := by
    rw [List.map_map]
    rfl
  rw [readStyles, hplain]
  dsimp only
  rw [h.make_eq]
  rfl

def Setting.spellings (s : Setting) : List Text := [s.name.toList, scope ++ s.name.toList]

theorem Setting.ofKey_spelling {s : Setting} {key : Text} (h : key ∈ s.spellings) : ofKey (.text key) = .ok s := by
  rw [spellings, List.mem_cons, List.mem_singleton] at h
  rcases h with rfl | rfl
  · exact ofKey_name s
  · cases s <;> rfl

theorem Settings.write_read {s : Settings} (h : Grammar.Accepted s.titleStyles) (setting : Setting) :
    s.write setting (s.read setting) = .ok s := by
  cases setting with
  | titleStyles => rw [write, read, readStyles_list h]; rfl
  | _ => rfl

namespace Store

variable {ι : Type} {s : Store ι} {c : Change ι}

structure Usable (s : Store ι) : Prop where
  current : Grammar.Accepted s.current.titleStyles
  defaults : Grammar.Accepted s.defaults.titleStyles

theorem Usable.publish (h : s.Usable) {settings : Settings} (hs : Grammar.Accepted settings.titleStyles) :
    (s.publish settings).store.Usable := by
  rw [Store.publish]
  split
  · exact h
  · exact ⟨hs, h.defaults⟩

theorem Usable.update (h : s.Usable) {values : List (Value × Value)} (hu : s.update values = .ok c) : c.store.Usable := by
  obtain ⟨settings, hv, rfl⟩ := exists_of_update hu
  exact h.publish (Settings.withValues_accepted h.current hv)

theorem Usable.reset (h : s.Usable) : s.reset.store.Usable := h.publish h.defaults

theorem set_read (h : s.Usable) {setting : Setting} {key : Value} (hk : Setting.ofKey key = .ok setting) :
    s.set key (s.current.read setting) = .ok ⟨s, false⟩ := by
  rw [set, Store.update, Settings.withValues, hk]
  simp only [Settings.write_read h.current, Settings.withValues, Except.map, Store.publish, if_pos]

section Listeners

variable [DecidableEq ι]

theorem Usable.subscribe (h : s.Usable) (l : ι) : (s.subscribe l).Usable := by
  rw [Store.subscribe]
  split
  · exact h
  · exact ⟨h.current, h.defaults⟩

theorem Usable.unsubscribe (h : s.Usable) (l : ι) : (s.unsubscribe l).Usable := ⟨h.current, h.defaults⟩

end Listeners

end Store

namespace Board

variable {ι : Type} [DecidableEq ι] {b : Board ι}

structure Usable (b : Board ι) : Prop where
  store : b.store.Usable
  told : ∀ t ∈ b.told, Grammar.Accepted t.2.titleStyles

theorem Usable.introduce (h : b.Usable) (l : ι) (reaction : List (Request ι)) : (b.introduce l reaction).Usable where
  store := by rw [introduce_store]; exact h.store
  told := by rw [introduce_told]; exact h.told

section Rounds

variable {run : Board ι → Request ι → Result ι Value} (hrun : ∀ b r, b.Usable → (run b r).1.Usable)

include hrun

omit [DecidableEq ι] in
theorem runAll_usable (hb : b.Usable) (rs : List (Request ι)) : (runAll run b rs).1.Usable := by
  induction rs generalizing b with
  | nil => exact hb
  | cons r rs ih =>
    have hnext := hrun b r hb
    rw [runAll]
    cases ho : run b r with
    | mk next o =>
      rw [ho] at hnext
      cases o with
      | ok value => exact ih hnext
      | error e => exact hnext

theorem tell_usable (hb : b.Usable) {settings : Settings} (hs : Grammar.Accepted settings.titleStyles) (ls : List ι) :
    (tell run settings b ls).1.Usable := by
  induction ls generalizing b with
  | nil => exact hb
  | cons l ls ih =>
    have hnoted : Usable { b with told := b.told ++ [(l, settings)] } := by
      refine ⟨hb.store, fun t ht => ?_⟩
      rcases List.mem_append.mp ht with ht | ht
      · exact hb.told t ht
      · rwa [List.mem_singleton.mp ht]
    have hnext := runAll_usable hrun hnoted (b.reaction l)
    rw [tell]
    cases ho : runAll run { b with told := b.told ++ [(l, settings)] } (b.reaction l) with
    | mk next o =>
      rw [ho] at hnext
      cases o with
      | ok => exact ih hnext
      | error e => exact hnext

theorem announce_usable (hb : b.Usable) {c : Change ι} (hc : c.store.Usable) (value : Value) :
    (announce run b c value).1.Usable := by
  have htell := tell_usable hrun (b := { b with store := c.store }) ⟨hc, hb.told⟩ hc.current c.audience
  rw [announce]
  cases ho : tell run c.store.current { b with store := c.store } c.audience with
  | mk next o =>
    rw [ho] at htell
    cases o <;> exact htell

end Rounds

theorem perform_usable (depth : Nat) (b : Board ι) (r : Request ι) (hb : b.Usable) : (perform depth b r).1.Usable := by
  -- on the depth, since listeners make their own requests one level further down
  induction depth generalizing b r with
  | zero => exact hb
  | succ depth ih =>
    cases ho : r.operates with
    | true =>
      rcases perform_operates depth b ho with ⟨-, e, he⟩ | ⟨settings, answer, hsettings, -, ha⟩
      · rw [he]
        exact hb
      · have hok : Grammar.Accepted settings.titleStyles := by
          rcases hsettings with rfl | ⟨values, hv⟩
          · exact hb.store.defaults
          · exact Settings.withValues_accepted hb.store.current hv
        rw [ha]
        exact announce_usable ih hb (hb.store.publish hok) answer
    | false =>
      cases r with
      | get key => exact hb
      | subscribe l reaction =>
        have h := hb.introduce l reaction
        exact ⟨h.store.subscribe l, h.told⟩
      | unsubscribe l reaction =>
        have h := hb.introduce l reaction
        exact ⟨h.store.unsubscribe l, h.told⟩
      | release l => exact ⟨hb.store.unsubscribe l, hb.told⟩
      | _ => simp [Request.operates] at ho

theorem run_usable (hb : b.Usable) (depth : Nat) (history : List (Request ι)) : (b.run depth history).Usable := by
  induction history generalizing b with
  | nil => exact hb
  | cons r history ih => exact ih (perform_usable depth b r hb)

theorem perform_get {setting : Setting} {key : Value} (hk : Setting.ofKey key = .ok setting) (depth : Nat) :
    perform (depth + 1) b (.get key) = (b, .ok (b.store.current.read setting)) := by
  rw [perform, Store.get, hk]
  rfl

theorem perform_set_read (hb : b.Usable) {setting : Setting} {key : Value} (hk : Setting.ofKey key = .ok setting)
    (depth : Nat) : perform (depth + 1) b (.set key (b.store.current.read setting)) = (b, .ok (.bool false)) := by
  rw [perform, Store.set_read hb.store hk]
  rfl

end Board

namespace Workspace

variable {w : Workspace} {backend : Backend}

theorem step_usable (hw : w.store.Usable) (i : Nat) (s : Step) : (w.step backend i s).1.store.Usable := by
  rcases step_store_cases backend w i s with h | h | ⟨values, c, hu, h⟩
  · rwa [h]
  · exact h ▸ hw.unsubscribe i
  · exact h ▸ hw.update hu

theorem handleAll_usable (hw : w.store.Usable) (events : List Event) : (w.handleAll backend events).store.Usable := by
  induction events generalizing w with
  | nil => exact hw
  | cons e events ih =>
    refine ih ?_
    cases e with
    | join text cursor target => exact hw.subscribe _
    | step i s => exact step_usable hw i s
    | update values =>
      dsimp only [handle]
      cases ho : w.store.update values with
      | error e => exact hw
      | ok c => exact install_store w c ▸ hw.update ho
    | reset => exact install_store w _ ▸ hw.reset

end Workspace

section Reached

variable {ι : Type} [DecidableEq ι]

/-- Bad requests and bad values spoil nothing, and neither do the requests that listeners make of their own. -/
theorem reached_usable {values : List (Value × Value)} {defaults : Settings}
    (hdefaults : Settings.withValues {} values = .ok defaults) :
    (∀ (depth : Nat) (history : List (Request ι)),
      let b := (Board.ofDefaults defaults).run (depth + 1) history
      Grammar.make (b.store.current.titleStyles.map fun c => [c]) = .ok b.store.current.grammar ∧
        (∀ t ∈ b.told, Grammar.make (t.2.titleStyles.map fun c => [c]) = .ok t.2.grammar) ∧
        ∀ (setting : Setting), ∀ key ∈ setting.spellings,
          Board.perform (depth + 1) b (.get (.text key)) = (b, .ok (b.store.current.read setting)) ∧
            Board.perform (depth + 1) b (.set (.text key) (b.store.current.read setting)) = (b, .ok (.bool false))) ∧
    ∀ (backend : Backend) (events : List Event),
      let w := (Workspace.ofDefaults defaults).handleAll backend events
      Grammar.make (w.settings.titleStyles.map fun c => [c]) = .ok w.grammar := by
  have haccepted : Grammar.Accepted defaults.titleStyles := Settings.withValues_accepted (by decide) hdefaults
  refine ⟨fun depth history => ?_, fun backend events => ?_⟩
  · have hb := Board.run_usable (b := Board.ofDefaults defaults) ⟨⟨haccepted, haccepted⟩, nofun⟩ (depth + 1) history
    refine ⟨hb.store.current.make_eq, fun t ht => (hb.told t ht).make_eq, fun setting key hkey => ?_⟩
    have hk := Setting.ofKey_spelling hkey
    exact ⟨Board.perform_get hk depth, Board.perform_set_read hb hk depth⟩
  · have hstart : (Workspace.ofDefaults defaults).store.Usable := ⟨haccepted, haccepted⟩
    exact (Workspace.handleAll_usable hstart events).current.make_eq

theorem reached_usable_after_errors :
    let history : List (Request Nat) := [.subscribe 0 [.set (.text "title_styles".toList) (.text "a".toList)],
      .set (.text "title_styles".toList) (.list [.text ['~']]), .set (.text "title_styles".toList) (.text "##".toList)]
    let b := (Board.ofDefaults { titleStyles := ['=', '-'] }).run 2 history
    Settings.withValues {} [(.text "title_styles".toList, .text "=-".toList)] = .ok { titleStyles := ['=', '-'] } ∧
      b.told = [(0, { titleStyles := ['~'] })] ∧
      Board.perform 2 b (.set (.text "literate.title_styles".toList) (.list [.text ['~']])) = (b, .ok (.bool false)) := by
  intro history b
  have hdefaults : Settings.withValues {} [(.text "title_styles".toList, .text "=-".toList)] =
      .ok { titleStyles := ['=', '-'] } := rfl
  have hstyles : b.store.current.titleStyles = ['~'] := by decide +kernel
  have hread : b.store.current.read .titleStyles = .list [.text ['~']] := by
    rw [Settings.read, hstyles]
    rfl
  have hset := (((reached_usable hdefaults).1 1 history).2.2 .titleStyles "literate.title_styles".toList (by decide)).2
  rw [hread] at hset
  exact ⟨hdefaults, by decide +kernel, hset⟩

end Reached

end Literate
