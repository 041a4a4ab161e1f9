import Mathlib.Data.List.Forall2
import Literate.Proofs.Doctest.Run
import Literate.Proofs.Session.Steps

namespace Literate

namespace Backend

variable {backend : Backend} {commands : List Text}

def StopsAt (backend : Backend) (commands ran : List Text) (message : Text) : Prop :=
  ∃ before command after, commands = before ++ command :: after ∧ ran = before ++ [command] ∧
    (∀ c ∈ before, ∃ v, backend c = .value v) ∧ backend command = .failure message

theorem StopsAt.cons {command : Text} {v : Value} (hv : backend command = .value v) {ran : List Text} {message : Text}
    (h : backend.StopsAt commands ran message) : backend.StopsAt (command :: commands) (command :: ran) message := by
  obtain ⟨before, last, after, rfl, rfl, hbefore, hlast⟩ := h
  refine ⟨command :: before, last, after, rfl, rfl, fun c hc => ?_, hlast⟩
  rcases List.mem_cons.mp hc with rfl | hc
  · exact ⟨v, hv⟩
  · exact hbefore c hc

theorem run_cases (backend : Backend) (commands : List Text) :
    (∃ values, List.Forall₂ (fun c v => backend c = .value v) commands values ∧
      backend.run commands = (commands, .ok (values.map Value.plainIfCounts))) ∨
    ∃ ran message, backend.StopsAt commands ran message ∧
      backend.run commands = (ran, .error (.backend message)) := by
  induction commands with
  | nil => exact .inl ⟨[], .nil, rfl⟩
  | cons command commands ih =>
    cases hc : backend command with
    | failure message =>
      refine .inr ⟨[command], message, ⟨[], command, commands, rfl, rfl, by simp, hc⟩, ?_⟩
      rw [run, hc]
    | value v =>
      rcases ih with ⟨values, hvalues, hrun⟩ | ⟨ran, message, hstop, hrun⟩
      · refine .inl ⟨v :: values, .cons hc hvalues, ?_⟩
        rw [run, hc]
        simp only [hrun]
        rfl
      · refine .inr ⟨command :: ran, message, hstop.cons hc, ?_⟩
        rw [run, hc]
        simp only [hrun]
        rfl

theorem exists_value {values : List Value} (h : List.Forall₂ (fun c v => backend c = .value v) commands values) :
    ∀ c ∈ commands, ∃ v, backend c = .value v := by
  induction h with
  | nil => simp
  | cons hc _ ih => exact List.forall_mem_cons.mpr ⟨⟨_, hc⟩, ih⟩

end Backend

def Value.result (v : Value) : Text := trimNewlines v.plainIfCounts

theorem shownResult_values (values : List Value) : shownResult (values.map Value.plainIfCounts) =
    Text.joinLines ((values.map Value.result).filter fun t => t ≠ []) := by
  rw [shownResult, List.map_map]
  rfl

theorem shownResult_value (v : Value) : shownResult [v.plainIfCounts] = v.result := by
  rw [← List.map_singleton, shownResult_values, List.map_singleton]
  by_cases hv : v.result = []
  · simp [hv, Text.joinLines]
  · simp [hv, Text.joinLines]

namespace Grammar

variable {g : Grammar} {text : Text} {pos : Int}

structure RunAt (g : Grammar) (text : Text) (pos : Int) (last : Line) (r : SnippetRun) : Prop where
  lines : ∃ above run below, g.MaximalRun text above (run ++ [last]) below ∧ text.lineAt pos ∈ run ++ [last] ∧
    (run ++ [last]).map g.doctest? = (r.snippets.flatMap Snippet.lines).map some
  reads : g.readRun text pos = .ok r
  snippets : ∀ s ∈ r.snippets, ∀ e ∈ s.lines, g.doctestAt text e.start = some e ∧
    ∀ p, g.doctestAt text p = some e → g.readSnippet text p = .ok s

theorem exists_runAt {e : DoctestLine} (h : g.doctestAt text pos = some e) : ∃ last r, g.RunAt text pos last r := by
  obtain ⟨above, run, below, hrun, hmem⟩ := exists_maximalRun h
  obtain ⟨first, rest, hdocs⟩ := hrun.exists_docs hmem
  have hlines := SnippetRun.flatMap_lines_group first rest
  have hnodup := hrun.docs_nodup hdocs
  rw [← hlines] at hnodup
  obtain ⟨front, last, rfl⟩ := (List.eq_nil_or_concat' run).resolve_left (List.ne_nil_of_mem hmem)
  refine ⟨last, .group first rest, ⟨above, front, below, hrun, hmem, by rw [hlines, hdocs]⟩,
    hrun.readRun_eq hmem hdocs, fun s hs e he => ?_⟩
  obtain ⟨up, l, down, hsplit, hl, hle⟩ := hrun.exists_line hdocs (hlines ▸ List.mem_flatMap_of_mem hs he)
  have hstart : e.start = l.start := doctest?_start hle
  refine ⟨by rw [doctestAt, Text.lineAt, hstart, Text.focus_start hsplit, hle], fun p hp => ?_⟩
  obtain ⟨up', k, down', hlines', -, -, hfocus⟩ := Text.exists_focus text p
  have hk : text.lineAt p = k := by rw [Text.lineAt, hfocus]
  have hstart' : e.start = k.start := by
    rw [← hk]
    exact doctest?_start hp
  obtain ⟨-, rfl, -⟩ := Text.lines_unique hlines' hsplit (hstart'.symm.trans hstart)
  obtain ⟨t, d, ht, hd, htr, hdt⟩ := hrun.readSnippet_eq (hk ▸ hl) hdocs
  obtain rfl : d = e := Option.some.inj (hd.symm.trans hp)
  rw [ht, SnippetRun.eq_of_mem_lines hnodup hs htr he hdt]

theorem RunAt.lastLineStart {last : Line} {r : SnippetRun} (h : g.RunAt text pos last r) :
    r.lastLineStart = last.start := by
  obtain ⟨above, run, below, -, -, hdocs⟩ := h.lines
  obtain ⟨front, t, hsnippets⟩ : ∃ front t, r.snippets = front ++ [t] :=
    (List.eq_nil_or_concat' _).resolve_left (List.cons_ne_nil _ _)
  have ht : r.others.getLastD r.first = t := by
    have hlast := congrArg List.getLast? hsnippets
    rw [SnippetRun.snippets, List.getLast?_cons, List.getLast?_concat, ← List.getLastD_eq_getLast?] at hlast
    exact Option.some.inj hlast
  have hlines : t.lines.getLast? = some t.last := by
    rw [Snippet.lines, List.getLast?_cons, ← List.getLastD_eq_getLast?]
    rfl
  have hlast := congrArg List.getLast? hdocs
  rw [hsnippets, List.flatMap_append, List.flatMap_singleton, List.map_append, List.map_append, List.map_singleton,
    List.getLast?_concat, List.getLast?_append, List.getLast?_map, hlines] at hlast
  rw [SnippetRun.lastLineStart, ht, Snippet.lastLineStart]
  exact doctest?_start (Option.some.inj hlast)

theorem RunAt.exists_snippet {last : Line} {r : SnippetRun} (h : g.RunAt text pos last r) {e : DoctestLine}
    (he : g.doctestAt text pos = some e) : ∃ s ∈ r.snippets, e ∈ s.lines ∧ g.readSnippet text pos = .ok s := by
  obtain ⟨above, run, below, -, hmem, hdocs⟩ := h.lines
  have hdoc : some e ∈ (r.snippets.flatMap Snippet.lines).map some := by
    rw [← hdocs, ← he]
    exact List.mem_map_of_mem hmem
  obtain ⟨d, hd, hde⟩ := List.mem_map.mp hdoc
  obtain rfl : d = e := Option.some.inj hde
  obtain ⟨s, hs, hds⟩ := List.mem_flatMap.mp hd
  exact ⟨s, hs, hds, (h.snippets s hs d hds).2 pos he⟩

section Evaluate

variable {backend : Backend} {s : Snippet}

theorem evaluate_of_none (h : g.doctestAt text pos = none) (wholeRun : Bool) :
    g.evaluate backend text pos wholeRun = ([], .error (.noSnippet ⟨pos⟩)) := by
  rw [evaluate, commandsAt, readRun_eq_error_iff.mpr h, readSnippet_eq_error_iff.mpr h]
  cases wholeRun <;> rfl

theorem execute_of_none (h : g.doctestAt text pos = none) :
    g.execute backend text pos = ([], .error (.noSnippet ⟨pos⟩)) := by
  rw [execute, readSnippet_eq_error_iff.mpr h]

theorem commandsAt_snippet (hs : g.readSnippet text pos = .ok s) :
    g.commandsAt text pos false = .ok ([s.command], s.lastLineStart) := by
  rw [commandsAt, hs]
  rfl

theorem evaluate_value (hs : g.readSnippet text pos = .ok s) {v : Value} (hv : backend s.command = .value v) :
    g.evaluate backend text pos false = ([s.command], .ok ⟨s.lastLineStart, v.result⟩) := by
  have hrun : backend.run [s.command] = ([s.command], .ok [v.plainIfCounts]) := by
    rw [Backend.run, hv]
    rfl
  rw [evaluate, commandsAt_snippet hs, ← shownResult_value]
  simp only [hrun]
  rfl

theorem evaluate_failure (hs : g.readSnippet text pos = .ok s) {message : Text}
    (hm : backend s.command = .failure message) :
    g.evaluate backend text pos false = ([s.command], .error (.backend message)) := by
  rw [evaluate, commandsAt_snippet hs]
  simp only [Backend.run, hm]
  rfl

theorem execute_failure (hs : g.readSnippet text pos = .ok s) {message : Text}
    (hm : backend s.command = .failure message) :
    g.execute backend text pos = ([s.command], .error (.backend message)) := by
  rw [execute, hs]
  simp only [Backend.run, hm]
  rfl

theorem RunAt.evaluate_cases (backend : Backend) {last : Line} {r : SnippetRun} (h : g.RunAt text pos last r) :
    (∃ values, List.Forall₂ (fun c v => backend c = .value v) r.commands values ∧
      g.evaluate backend text pos true =
        (r.commands, .ok ⟨last.start, Text.joinLines ((values.map Value.result).filter fun t => t ≠ [])⟩)) ∨
    ∃ ran message, backend.StopsAt r.commands ran message ∧
      g.evaluate backend text pos true = (ran, .error (.backend message)) := by
  have hcommands : g.commandsAt text pos true = .ok (r.commands, last.start) := by
    rw [commandsAt, if_pos rfl, h.reads, ← h.lastLineStart]
    rfl
  rw [evaluate, hcommands]
  rcases backend.run_cases r.commands with ⟨values, hvalues, hrun⟩ | ⟨ran, message, hstop, hrun⟩
  · refine .inl ⟨values, hvalues, ?_⟩
    simp only [hrun]
    rw [← shownResult_values]
    rfl
  · refine .inr ⟨ran, message, hstop, ?_⟩
    simp only [hrun]
    rfl

end Evaluate

end Grammar

namespace Workspace

variable {backend : Backend} {w : Workspace} {i : Nat} {d : Document}

theorem getElem?_put (hd : w.documents[i]? = some d) (d' : Document) : (w.put i d').documents[i]? = some d' := by
  rw [put_documents, List.getElem?_set_self (List.getElem?_eq_some_iff.mp hd).1]

theorem step_evaluate (hd : w.documents[i]? = some d) (wholeRun : Bool) : w.step backend i (.evaluate wholeRun) =
    w.finish (w.grammar.evaluate backend d.text d.cursor wholeRun) fun r =>
      (w.put i (d.showResult r), .ok (.text r.text)) := by
  rw [step, hd]
  rfl

theorem step_copySnippet (hd : w.documents[i]? = some d) : w.step backend i .copySnippet =
    w.finish (w.grammar.execute backend d.text d.cursor) fun r => (w.put i (d.sent r.1 r.2), .ok (.text r.2)) := by
  rw [step, hd]
  rfl

def ShowsRun (backend : Backend) (w : Workspace) (i : Nat) (d : Document) (last : Line) (r : SnippetRun) : Prop :=
  ∃ results, List.Forall₂ (fun s t => ∀ pos e, w.grammar.doctestAt d.text pos = some e → e ∈ s.lines →
      ((w.put i { d with cursor := pos }).step backend i (.evaluate false)).2 = .ok (.text t)) r.snippets results ∧
    let shown : Result := ⟨last.start, Text.joinLines (results.filter fun t => t ≠ [])⟩
    let d' := { d with
      overlays := Document.putOverlay shown d.overlays
      deeds := d.deeds ++ [.acted (.showOverlay shown)] }
    w.step backend i (.evaluate true) =
      ({ w.put i d' with executed := w.executed ++ r.commands }, .ok (.text shown.text))

theorem showsRun {last : Line} {r : SnippetRun} (hd : w.documents[i]? = some d)
    (hrun : w.grammar.RunAt d.text d.cursor last r) {values : List Value}
    (hvalues : List.Forall₂ (fun c v => backend c = .value v) r.commands values)
    (h : w.grammar.evaluate backend d.text d.cursor true =
      (r.commands, .ok ⟨last.start, Text.joinLines ((values.map Value.result).filter fun t => t ≠ [])⟩)) :
    w.ShowsRun backend i d last r := by
  refine ⟨values.map Value.result, ?_, ?_⟩
  · rw [List.forall₂_map_right_iff]
    rw [SnippetRun.commands, List.forall₂_map_left_iff] at hvalues
    refine ((List.forall₂_and_left _ _).mpr ⟨fun s hs => hs, hvalues⟩).imp ?_
    rintro s v ⟨hs, hv⟩ pos e he hes
    have hread := (hrun.snippets s hs e hes).2 pos he
    have heval : (w.put i { d with cursor := pos }).grammar.evaluate backend d.text pos false = _ :=
      Grammar.evaluate_value hread hv
    rw [step_evaluate (getElem?_put hd _), heval]
    rfl
  · intro shown d'
    rw [step_evaluate hd, h]
    rfl

/-- Evaluating the run of snippets at the cursor executes their commands up to the first that fails, and shows what
they give one by one unless one fails. A command without a doctest line at the cursor, or one that fails, changes
nothing but the record of what was executed. -/
theorem step_evaluates (backend : Backend) (hd : w.documents[i]? = some d) :
    (w.grammar.doctestAt d.text d.cursor = none → ∀ s ∈ [Step.evaluate true, .evaluate false, .copySnippet],
      w.step backend i s = (w, .error (.noSnippet ⟨d.cursor⟩))) ∧
    ∀ e, w.grammar.doctestAt d.text d.cursor = some e → ∃ last r, w.grammar.RunAt d.text d.cursor last r ∧
      (((∀ c ∈ r.commands, ∃ v, backend c = .value v) ∧ w.ShowsRun backend i d last r) ∨
        ∃ ran message, backend.StopsAt r.commands ran message ∧ w.step backend i (.evaluate true) =
          ({ w with executed := w.executed ++ ran }, .error (.backend message))) ∧
      ∃ s ∈ r.snippets, e ∈ s.lines ∧ ∀ message, backend s.command = .failure message →
        ∀ t ∈ [Step.evaluate false, .copySnippet], w.step backend i t =
          ({ w with executed := w.executed ++ [s.command] }, .error (.backend message)) := by
  have hempty : { w with executed := w.executed ++ [] } = w := by rw [List.append_nil]
  refine ⟨fun hnone s hs => ?_, fun e he => ?_⟩
  · simp only [List.mem_cons, List.not_mem_nil, or_false] at hs
    rcases hs with rfl | rfl | rfl
    · rw [step_evaluate hd, Grammar.evaluate_of_none hnone, finish, hempty]
    · rw [step_evaluate hd, Grammar.evaluate_of_none hnone, finish, hempty]
    · rw [step_copySnippet hd, Grammar.execute_of_none hnone, finish, hempty]
  · obtain ⟨last, r, hrun⟩ := Grammar.exists_runAt he
    refine ⟨last, r, hrun, ?_, ?_⟩
    · rcases hrun.evaluate_cases backend with ⟨values, hvalues, heval⟩ | ⟨ran, message, hstop, heval⟩
      · exact .inl ⟨Backend.exists_value hvalues, showsRun hd hrun hvalues heval⟩
      · exact .inr ⟨ran, message, hstop, by rw [step_evaluate hd, heval, finish]⟩
    · obtain ⟨s, hs, hes, hread⟩ := hrun.exists_snippet he
      refine ⟨s, hs, hes, fun message hm t ht => ?_⟩
      simp only [List.mem_cons, List.not_mem_nil, or_false] at ht
      rcases ht with rfl | rfl
      · rw [step_evaluate hd, Grammar.evaluate_failure hread hm, finish]
      · rw [step_copySnippet hd, Grammar.execute_failure hread hm, finish]

theorem step_evaluates_second :
    let w := ofDocuments {} [Document.ofText ">>> a\n>>> b\n>>> c".toList 0 false]
    let backend : Backend := fun c => if c = ['b'] then .failure ['?'] else .value (.text c)
    let quiet : Backend := fun c => if c = ['b'] then .value .null else .value (.text (c ++ ['\n']))
    let results := [Value.text ['a', '\n'], .null, .text ['c', '\n']].map Value.result
    w.documents[0]? = some (Document.ofText ">>> a\n>>> b\n>>> c".toList 0 false) ∧
      w.step backend 0 (.evaluate true) = ({ w with executed := [['a'], ['b']] }, .error (.backend ['?'])) ∧
      results = [['a'], [], ['c']] ∧ Text.joinLines (results.filter fun t => t ≠ []) = "a\nc".toList ∧
      w.step quiet 0 (.evaluate true) =
        ({ w.put 0 ((Document.ofText ">>> a\n>>> b\n>>> c".toList 0 false).showResult ⟨12, "a\nc".toList⟩) with
          executed := [['a'], ['b'], ['c']] }, .ok (.text "a\nc".toList)) := by
  intro w backend quiet results
  have hd : w.documents[0]? = some (Document.ofText ">>> a\n>>> b\n>>> c".toList 0 false) := rfl
  have hreads : w.grammar.readRun ">>> a\n>>> b\n>>> c".toList 0 = .ok ⟨⟨⟨0, [], .primary, true, ['a']⟩, []⟩,
    [⟨⟨6, [], .primary, true, ['b']⟩, []⟩, ⟨⟨12, [], .primary, true, ['c']⟩, []⟩]⟩ := by rfl
  obtain ⟨last, r, hrun, hcases, -⟩ := (step_evaluates backend hd).2 ⟨0, [], .primary, true, ['a']⟩ (by decide)
  obtain rfl := Except.ok.inj (hrun.reads.symm.trans hreads)
  have hquiet : w.grammar.evaluate quiet ">>> a\n>>> b\n>>> c".toList 0 true =
      ([['a'], ['b'], ['c']], .ok ⟨12, "a\nc".toList⟩) := by
    rw [Grammar.evaluate, Grammar.commandsAt, if_pos rfl, hreads]
    rfl
  have hshown : w.step quiet 0 (.evaluate true) = _ := (step_evaluate hd true).trans (congrArg (w.finish · _) hquiet)
  refine ⟨hd, ?_, rfl, rfl, hshown⟩
  rcases hcases with ⟨hall, -⟩ | ⟨ran, message, hstop, hstep⟩
  · obtain ⟨v, hv⟩ := hall ['b'] (by decide)
    simp [backend] at hv
  · obtain ⟨before, command, after, hsplit, rfl, hbefore, hfails⟩ := hstop
    change [['a'], ['b'], ['c']] = _ at hsplit
    rcases before with _ | ⟨first, _ | ⟨second, before⟩⟩
    · obtain ⟨rfl, -⟩ := List.cons.inj hsplit
      simp [backend] at hfails
    · obtain ⟨rfl, htail⟩ := List.cons.inj hsplit
      obtain ⟨rfl, -⟩ := List.cons.inj htail
      obtain rfl : ['?'] = message := by simpa [backend] using hfails
      exact hstep
    · obtain ⟨-, htail⟩ := List.cons.inj hsplit
      obtain ⟨rfl, -⟩ := List.cons.inj htail
      obtain ⟨v, hv⟩ := hbefore ['b'] (by simp)
      simp [backend] at hv

end Workspace

end Literate
