import Literate.Proofs.Settings.History

namespace Literate

variable {ι : Type}

namespace Board

variable {b : Board ι}

def settle (b : Board ι) (settings : Settings) : Board ι :=
  if settings = b.store.current then b
  else { b with
    store := { b.store with current := settings }
    told := b.told ++ b.store.listeners.map fun l => (l, settings) }

@[simp] theorem settle_current (b : Board ι) (settings : Settings) : (b.settle settings).store.current = settings := by
  rw [settle]
  split
  · exact Eq.symm ‹_›
  · rfl

@[simp] theorem settle_listeners (b : Board ι) (settings : Settings) :
    (b.settle settings).store.listeners = b.store.listeners := by
  rw [settle]
  split <;> rfl

theorem settle_told (b : Board ι) (settings : Settings) : (b.settle settings).told =
    b.told ++ if settings = b.store.current then [] else b.store.listeners.map fun l => (l, settings) := by
  rw [settle]
  split
  · exact (List.append_nil _).symm
  · rfl

end Board

variable [DecidableEq ι]

namespace Board

def run (depth : Nat) (b : Board ι) (history : List (Request ι)) : Board ι :=
  history.foldl (fun b r => (perform depth b r).1) b

def toldTo (b : Board ι) (l : ι) : List Settings := b.told.filterMap fun t => if t.1 = l then some t.2 else none

def newsFor (depth : Nat) (b : Board ι) (history : List (Request ι)) (l : ι) : List Settings :=
  (List.range history.length).filterMap fun n =>
    let before := (b.run depth (history.take n)).store.current
    let after := (b.run depth (history.take (n + 1))).store.current
    if after ≠ before ∧ (Request.joined l (history.take n)).isSome then some after else none

def Quiet (b : Board ι) : Prop := ∀ l, b.reaction l = []

variable {b : Board ι}

theorem Quiet.settle (hb : b.Quiet) (settings : Settings) : (b.settle settings).Quiet := by
  rw [Board.settle]
  split <;> exact hb

theorem tell_quiet {run : Board ι → Request ι → Result ι Value} (hb : b.Quiet) (settings : Settings) (ls : List ι) :
    tell run settings b ls = ({ b with told := b.told ++ ls.map fun l => (l, settings) }, .ok ()) := by
  induction ls generalizing b with
  | nil => rw [tell, List.map_nil, List.append_nil]
  | cons l ls ih =>
    have hrest := ih (b := { b with told := b.told ++ [(l, settings)] }) hb
    rw [tell, hb l, runAll]
    dsimp only
    rw [hrest, List.append_assoc]
    rfl

theorem announce_publish {run : Board ι → Request ι → Result ι Value} (hb : b.Quiet) (settings : Settings) (value : Value) :
    announce run b (b.store.publish settings) value = (b.settle settings, .ok value) := by
  have hq : ({ b with store := (b.store.publish settings).store } : Board ι).Quiet := hb
  rw [announce, tell_quiet hq, Store.publish_current, Change.audience, Store.publish_changed, Board.settle, Store.publish]
  by_cases h : settings = b.store.current
  · rw [if_pos h, if_pos h]
    simp [h]
  · rw [if_neg h, if_neg h]
    simp [h]

theorem Quiet.introduce (hb : b.Quiet) (l : ι) : (b.introduce l []).Quiet := by
  intro k
  rcases reaction_introduce b l [] k with h | h
  · rw [h]
    exact hb k
  · exact h

inductive Outcome (b : Board ι) : Request ι → Result ι Value → Prop
  | failed {r : Request ι} (e : SettingsError) (seats : r.seats = false) (reset : r ≠ .reset) :
    Outcome b r (b, .error e)
  | settled {r : Request ι} (settings : Settings) (value : Value) (seats : r.seats = false)
    (report : r.reports = true → value = .bool (decide (settings ≠ b.store.current))) :
    Outcome b r (b.settle settings, .ok value)
  | joined {after : Board ι} (l : ι) (quiet : after.Quiet) (store : after.store = b.store.subscribe l)
    (told : after.told = b.told) : Outcome b (.subscribe l []) (after, .ok .null)
  | left {r : Request ι} {after : Board ι} (l : ι) (quiet : after.Quiet) (store : after.store = b.store.unsubscribe l)
    (told : after.told = b.told) (joins : ∀ k, r.joins k = false) (leaves : ∀ k, r.leaves k = decide (l = k))
    (reports : r.reports = false) : Outcome b r (after, .ok .null)

theorem perform_outcome {r : Request ι} (hb : b.Quiet) (hr : r.Quiet) (depth : Nat) :
    Outcome b r (perform (depth + 1) b r) := by
  cases ho : r.operates with
  | true =>
    have hseats : r.seats = false := by
      cases r with
      | subscribe | unsubscribe | release => simp [Request.operates] at ho
      | _ => rfl
    rcases perform_operates depth b ho with ⟨hreset, e, he⟩ | ⟨settings, value, -, hreport, ha⟩
    · rw [he]
      exact .failed e hseats hreset
    · rw [ha, announce_publish hb]
      exact .settled settings value hseats hreport
  | false =>
    cases r with
    | get key =>
      have hsettle : b.settle b.store.current = b := if_pos rfl
      rw [perform, Store.get]
      cases Setting.ofKey key with
      | error e => exact .failed e rfl (by simp)
      | ok setting =>
        have h := Outcome.settled (b := b) (r := .get key) b.store.current (b.store.current.read setting) rfl
          (by simp [Request.reports])
        rwa [hsettle] at h
    | subscribe l reaction =>
      obtain rfl : reaction = [] := hr
      rw [perform]
      exact .joined l (hb.introduce l) (by rw [introduce_store]) (introduce_told b l [])
    | unsubscribe l reaction =>
      obtain rfl : reaction = [] := hr
      rw [perform]
      exact .left l (hb.introduce l) (by rw [introduce_store]) (introduce_told b l []) (fun _ => rfl) (fun _ => rfl) rfl
    | release l =>
      rw [perform]
      exact .left l hb rfl rfl (fun _ => rfl) (fun _ => rfl) rfl
    | _ => simp [Request.operates] at ho

namespace Outcome

variable {r : Request ι} {o : Result ι Value}

theorem quiet (h : Outcome b r o) (hb : b.Quiet) : o.1.Quiet := by
  cases h with
  | failed => exact hb
  | settled settings value => exact hb.settle settings
  | joined l hquiet => exact hquiet
  | left l hquiet => exact hquiet

theorem seated (h : Outcome b r o) {history : List (Request ι)} (hb : Request.Seated b.store.listeners history) :
    Request.Seated o.1.store.listeners (history ++ [r]) := by
  cases h with
  | failed e hseats => exact hb.stay (Request.stays_of_not_seats hseats)
  | settled settings value hseats =>
    rw [settle_listeners]
    exact hb.stay (Request.stays_of_not_seats hseats)
  | joined l _ hstore =>
    have hseated := hb.join l []
    rw [hstore, Store.subscribe]
    split at hseated <;> rename_i hl
    · rwa [if_pos hl]
    · rwa [if_neg hl]
  | left l _ hstore _ hjoins hleaves =>
    rw [hstore]
    exact hb.leave l hjoins hleaves

theorem told (h : Outcome b r o) : o.1.told = b.told ++
    if o.1.store.current = b.store.current then [] else b.store.listeners.map fun l => (l, o.1.store.current) := by
  cases h with
  | failed => rw [if_pos rfl, List.append_nil]
  | settled settings value => rw [settle_told, settle_current]
  | joined l _ hstore htold => rw [hstore, htold, Store.subscribe_current, if_pos rfl, List.append_nil]
  | left l _ hstore htold => rw [hstore, htold, Store.unsubscribe_current, if_pos rfl, List.append_nil]

theorem unchanged (h : Outcome b r o) (hr : r.seats = false) (hc : o.1.store.current = b.store.current) : o.1 = b := by
  cases h with
  | failed => rfl
  | settled settings value =>
    rw [settle_current] at hc
    exact if_pos hc
  | joined => simp [Request.seats] at hr
  | left l _ _ _ _ hleaves =>
    have hl := (Request.stays_of_not_seats hr l).2
    simp [hleaves] at hl

theorem answer (h : Outcome b r o) (hr : r.reports = true) :
    o.2 = .ok (.bool (decide (o.1.store.current ≠ b.store.current))) ∨ r ≠ .reset ∧ ∃ e, o.2 = .error e := by
  cases h with
  | failed e _ hreset => exact .inr ⟨hreset, e, rfl⟩
  | settled settings value _ hreport => exact .inl (by rw [settle_current, hreport hr])
  | joined => simp [Request.reports] at hr
  | left _ _ _ _ _ _ hreports => simp [hreports] at hr

theorem of_error (h : Outcome b r o) {e : SettingsError} (he : o.2 = .error e) : o.1 = b := by
  cases h with
  | failed => rfl
  | settled => simp at he
  | joined => simp at he
  | left => simp at he

end Outcome

theorem perform_update_append {good : List (Value × Value)} {next : Settings} {key value : Value} {e : SettingsError}
    (hgood : b.store.current.withValues good = .ok next) (hbad : next.withValues [(key, value)] = .error e)
    (rest : List (Value × Value)) (depth : Nat) :
    perform (depth + 1) b (.update (good ++ (key, value) :: rest)) = (b, .error e) := by
  rw [perform, Store.update, Settings.withValues_append, hgood, Except.bind, ← List.singleton_append,
    Settings.withValues_append, hbad]
  rfl

section Run

variable {depth : Nat} {history : List (Request ι)}

theorem run_concat (depth : Nat) (b : Board ι) (history : List (Request ι)) (r : Request ι) :
    b.run depth (history ++ [r]) = (perform depth (b.run depth history) r).1 := by
  rw [run, List.foldl_append]
  rfl

theorem run_quiet (hb : b.Quiet) (hquiet : ∀ r ∈ history, r.Quiet) : (b.run (depth + 1) history).Quiet := by
  induction history using List.reverseRecOn with
  | nil => exact hb
  | append_singleton history r ih =>
    have hrun := ih fun q hq => hquiet q (List.mem_append_left _ hq)
    rw [run_concat]
    exact (perform_outcome hrun (hquiet r (by simp)) depth).quiet hrun

theorem run_seated (hb : b.Quiet) (hempty : b.store.listeners = []) (hquiet : ∀ r ∈ history, r.Quiet) :
    Request.Seated (b.run (depth + 1) history).store.listeners history := by
  induction history using List.reverseRecOn with
  | nil =>
    have hrun : (b.run (depth + 1) []).store.listeners = [] := hempty
    rw [hrun]
    exact ⟨fun l => by simp [Request.joined, Request.staying], .nil⟩
  | append_singleton history r ih =>
    have hfront : ∀ q ∈ history, q.Quiet := fun q hq => hquiet q (List.mem_append_left _ hq)
    rw [run_concat]
    exact (perform_outcome (run_quiet hb hfront) (hquiet r (by simp)) depth).seated (ih hfront)

theorem newsFor_concat (depth : Nat) (b : Board ι) (history : List (Request ι)) (r : Request ι) (l : ι) :
    b.newsFor depth (history ++ [r]) l = b.newsFor depth history l ++
      if (b.run depth (history ++ [r])).store.current ≠ (b.run depth history).store.current ∧
          (Request.joined l history).isSome = true
      then [(b.run depth (history ++ [r])).store.current] else [] := by
  rw [newsFor, newsFor, List.length_append, List.length_singleton, List.range_succ, List.filterMap_append]
  congr 1
  · apply List.filterMap_congr
    intro n hn
    have hlt := List.mem_range.mp hn
    rw [List.take_append_of_le_length (by omega), List.take_append_of_le_length (by omega)]
  · have hall : (history ++ [r]).take (history.length + 1) = history ++ [r] := List.take_of_length_le (by simp)
    rw [List.filterMap_cons, List.filterMap_nil, List.take_left, hall]
    split <;> split <;> simp_all

theorem toldTo_outcome {r : Request ι} {o : Result ι Value} (h : Outcome b r o) (hnodup : b.store.listeners.Nodup) (l : ι) :
    o.1.toldTo l = b.toldTo l ++
      if o.1.store.current ≠ b.store.current ∧ l ∈ b.store.listeners then [o.1.store.current] else [] := by
  have hone : ∀ ls : List ι, ls.Nodup → ∀ s : Settings,
      (ls.map fun k => (k, s)).filterMap (fun t => if t.1 = l then some t.2 else none) = if l ∈ ls then [s] else [] := by
    intro ls hls s
    induction ls with
    | nil => rfl
    | cons k ls ih =>
      obtain ⟨hk, hls⟩ := List.nodup_cons.mp hls
      rw [List.map_cons, List.filterMap_cons, ih hls]
      by_cases hkl : k = l
      · subst hkl
        simp [hk]
      · simp [hkl, Ne.symm hkl]
  rw [toldTo, h.told, List.filterMap_append, ← toldTo]
  congr 1
  by_cases hc : o.1.store.current = b.store.current
  · rw [if_pos hc, if_neg (fun hn => hn.1 hc)]
    rfl
  · rw [if_neg hc, hone _ hnodup]
    simp [hc]

theorem run_toldTo (hb : b.Quiet) (hempty : b.store.listeners = []) (htold : b.told = [])
    (hquiet : ∀ r ∈ history, r.Quiet) (l : ι) :
    (b.run (depth + 1) history).toldTo l = b.newsFor (depth + 1) history l := by
  induction history using List.reverseRecOn with
  | nil =>
    rw [run, List.foldl_nil, toldTo, htold]
    rfl
  | append_singleton history r ih =>
    have hfront : ∀ q ∈ history, q.Quiet := fun q hq => hquiet q (List.mem_append_left _ hq)
    have hseated : Request.Seated (b.run (depth + 1) history).store.listeners history := run_seated hb hempty hfront
    rw [newsFor_concat, run_concat,
      toldTo_outcome (perform_outcome (run_quiet hb hfront) (hquiet r (by simp)) depth) hseated.nodup, ih hfront]
    simp only [hseated.mem]

end Run

/-- After any history of requests, those who listen are those who joined and stand in the order in which they did; each
has been told the new settings of exactly the changes made while it listened. A further request tells every listener
of a change once and in that order, answers whether there was one, and leaves the board alone if it fails or changes
nothing, whatever good values it brings in front of a bad one. -/
theorem run_tells (defaults : Settings) {history : List (Request ι)} (hquiet : ∀ r ∈ history, r.Quiet) (depth : Nat) :
    let b := (ofDefaults defaults).run (depth + 1) history
    Request.Seated b.store.listeners history ∧
      (∀ l, b.toldTo l = (ofDefaults defaults).newsFor (depth + 1) history l) ∧
      (∀ r : Request ι, r.Quiet →
        let o := perform (depth + 1) b r
        o.1.told = b.told ++ (if o.1.store.current = b.store.current then []
          else b.store.listeners.map fun l => (l, o.1.store.current)) ∧
        (r.reports = true →
          o.2 = .ok (.bool (decide (o.1.store.current ≠ b.store.current))) ∨ r ≠ .reset ∧ ∃ e, o.2 = .error e) ∧
        (∀ e, o.2 = .error e → o.1 = b) ∧
        (r.seats = false → o.1.store.current = b.store.current → o.1 = b)) ∧
      ∀ good key value rest next e, b.store.current.withValues good = .ok next →
        next.withValues [(key, value)] = .error e →
        perform (depth + 1) b (.update (good ++ (key, value) :: rest)) = (b, .error e) := by
  intro b
  have hb : (ofDefaults defaults : Board ι).Quiet := fun _ => rfl
  refine ⟨run_seated hb rfl hquiet, run_toldTo hb rfl rfl hquiet, fun r hr => ?_, ?_⟩
  · have h : Outcome b r (perform (depth + 1) b r) := perform_outcome (run_quiet hb hquiet) hr depth
    exact ⟨h.told, h.answer, fun _ => h.of_error, h.unchanged⟩
  · intro good key value rest next e hgood hbad
    exact perform_update_append hgood hbad rest depth

theorem run_tells_after_return :
    let history : List (Request Nat) := [.subscribe 0 [], .subscribe 1 [], .subscribe 0 [],
      .set (.text "hide_quotes".toList) (.bool false), .release 0, .subscribe 0 [],
      .set (.text "literate.hide_title_markup".toList) (.text "on".toList), .release 0, .reset]
    (∀ r ∈ history, r.Quiet) ∧
      ((ofDefaults {}).run 1 history).toldTo 0 =
        [{ hideQuotes := false }, { hideQuotes := false, hideTitleMarkup := true }] ∧
      ((ofDefaults {}).run 1 history).toldTo 1 =
        [{ hideQuotes := false }, { hideQuotes := false, hideTitleMarkup := true }, {}] := by
  intro history
  have hquiet : ∀ r ∈ history, r.Quiet := by simp [history, Request.Quiet]
  have htold := (run_tells {} hquiet 0).2.1
  exact ⟨hquiet, (htold 0).trans (by decide +kernel), (htold 1).trans (by decide +kernel)⟩

end Board

end Literate
