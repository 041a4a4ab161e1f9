import Literate.Editor.Console
import Literate.Proofs.Directive.Shift
import Literate.Proofs.Doctest.Edited

namespace Literate

namespace Console

theorem doctest?_prompt (styles : List Char) (n : Nat) (p : Prompt) {body : Text} (hb : '\n' ∉ body) :
    (Grammar.ofStyles styles).doctest? ⟨n, p.text ++ ' ' :: body⟩ = some ⟨n, [], p, true, body⟩ := by
  have hlead : ∃ c rest, p.text ++ ' ' :: body = c :: rest ∧ (Grammar.ofStyles styles).leads c = false := by
    cases p with
    | primary => exact ⟨'>', _, rfl, Grammar.reserved_not_leads (by decide)⟩
    | continuation => exact ⟨'.', _, rfl, Grammar.reserved_not_leads (by decide)⟩
  obtain ⟨c, rest, htext, hc⟩ := hlead
  rw [Grammar.doctest?, Grammar.doctestFrom?_eq, htext, List.takeWhile_cons_of_neg (by simp [hc]),
    List.dropWhile_cons_of_neg (by simp [hc]), ← htext, promptAt?_append]
  have hpayload : payloadOf (' ' :: body) = (true, body) := rfl
  rw [Option.map_some, hpayload, Text.firstLine_eq hb]
  rfl

theorem exists_docs (styles : List Char) (p : Prompt) (n : Nat) {bodies : List Text}
    (hb : ∀ body ∈ bodies, '\n' ∉ body) : ∃ docs : List DoctestLine,
      (Text.number n (bodies.map fun body => p.text ++ ' ' :: body)).map (Grammar.ofStyles styles).doctest? =
        docs.map some ∧
      docs.map DoctestLine.payload = bodies ∧ ∀ d ∈ docs, d.prompt = p := by
  induction bodies generalizing n with
  | nil => exact ⟨[], rfl, rfl, by simp⟩
  | cons body bodies ih =>
    obtain ⟨hbody, hrest⟩ := List.forall_mem_cons.mp hb
    obtain ⟨docs, hdocs, hpayload, hprompt⟩ := ih (n + (p.text ++ ' ' :: body).length + 1) hrest
    refine ⟨⟨n, [], p, true, body⟩ :: docs, ?_, by rw [List.map_cons, hpayload], ?_⟩
    · rw [List.map_cons, Text.number, List.map_cons, List.map_cons, doctest?_prompt styles n p hbody, hdocs]
    · exact List.forall_mem_cons.mpr ⟨rfl, hprompt⟩

theorem exists_echo (command : Text) : ∃ body bodies, '\n' ∉ body ∧ (∀ b ∈ bodies, '\n' ∉ b) ∧
    Text.joinLines (body :: bodies) = command ∧ echo command =
      (Prompt.primary.text ++ ' ' :: body) :: bodies.map fun b => Prompt.continuation.text ++ ' ' :: b := by
  have hb : ∀ b ∈ (Text.lines command).map Line.body, '\n' ∉ b := by
    intro b hb
    obtain ⟨l, hl, rfl⟩ := List.mem_map.mp hb
    exact Text.newline_not_mem_body rfl hl
  have hcommand : Text.joinLines ((Text.lines command).map Line.body) = command := Text.joinLines_bodies 0 command
  cases hbodies : (Text.lines command).map Line.body with
  | nil => exact absurd (List.map_eq_nil_iff.mp hbodies) (Text.linesFrom_ne_nil 0 command)
  | cons body bodies =>
    rw [hbodies] at hb hcommand
    obtain ⟨hbody, hrest⟩ := List.forall_mem_cons.mp hb
    exact ⟨body, bodies, hbody, hrest, hcommand, by rw [echo, hbodies, echoLines]⟩

theorem echo_ne_nil (command : Text) : echo command ≠ [] := by
  obtain ⟨body, bodies, -, -, -, hecho⟩ := exists_echo command
  simp [hecho]

theorem newline_not_mem_echo (command : Text) : ∀ t ∈ echo command, '\n' ∉ t := by
  have hprompt : ∀ (p : Prompt) (b : Text), '\n' ∉ b → '\n' ∉ p.text ++ ' ' :: b := by
    intro p b hb
    simp [p.newline_not_mem, hb]
  obtain ⟨body, bodies, hbody, hrest, -, hecho⟩ := exists_echo command
  rw [hecho]
  refine List.forall_mem_cons.mpr ⟨hprompt _ _ hbody, fun t ht => ?_⟩
  obtain ⟨b, hb, rfl⟩ := List.mem_map.mp ht
  exact hprompt _ _ (hrest b hb)

theorem exists_docs_echo (styles : List Char) (command : Text) : ∃ first rest,
    (Text.number 0 (echo command)).map (Grammar.ofStyles styles).doctest? = (first :: rest).map some ∧
      Text.joinLines ((first :: rest).map DoctestLine.payload) = command ∧
      ∀ e ∈ rest, e.isContinuation = true := by
  obtain ⟨body, bodies, hbody, hrest, hcommand, hecho⟩ := exists_echo command
  obtain ⟨docs, hdocs, hpayload, hprompt⟩ :=
    exists_docs styles .continuation (0 + (Prompt.primary.text ++ ' ' :: body).length + 1) hrest
  refine ⟨⟨0, [], .primary, true, body⟩, docs, ?_, ?_, fun e he => ?_⟩
  · rw [hecho, Text.number, List.map_cons, doctest?_prompt styles 0 .primary hbody, hdocs, List.map_cons]
  · rw [List.map_cons, hpayload, hcommand]
  · rw [DoctestLine.isContinuation, hprompt e he]
    rfl

theorem lines_entry (command output : Text) : (entry command output).lines = Text.number 0 (echo command) ++
    if trimNewlines output = [] then []
    else Text.linesFrom ((Text.joinLines (echo command)).length + 1) (trimNewlines output) := by
  have hecho := Text.linesFrom_joinLines (echo_ne_nil command) (newline_not_mem_echo command) 0
  by_cases h : trimNewlines output = []
  · simp only [entry, if_pos h, List.append_nil]
    exact hecho
  · simp only [entry, if_neg h]
    rw [Text.joinLines_append (echo_ne_nil command) (by simp), Text.joinLines_singleton, Text.lines_eq_linesFrom,
      Text.linesFrom_append, hecho, Nat.zero_add]

theorem lineAt_entry {command output : Text} {pos : Int} (hpos : pos ≤ (Text.joinLines (echo command)).length) :
    (entry command output).lineAt pos ∈ Text.number 0 (echo command) := by
  have hecho := Text.linesFrom_joinLines (echo_ne_nil command) (newline_not_mem_echo command) 0
  obtain ⟨front, m, hm⟩ := (List.eq_nil_or_concat' (Text.number 0 (echo command))).resolve_left
    (hecho ▸ Text.linesFrom_ne_nil 0 _)
  have hstop := Text.last_stop (hecho.trans hm)
  refine Text.lineAt_mem_front (lines_entry command output) (m := m) (by simp [hm]) ?_
  have hle : (entry command output).clamp pos ≤ pos.toNat := Nat.min_le_left _ _
  omega

theorem continues_iff (styles : List Char) (n : Nat) (text : Text) :
    ((Grammar.ofStyles styles).doctestRun (Text.linesFrom n text)).takeWhile DoctestLine.isContinuation = [] ↔
      ∀ d, (Grammar.ofStyles styles).doctestAt text 0 = some d → d.isContinuation = false := by
  obtain ⟨below, hbelow⟩ := Text.exists_linesFrom n text
  obtain ⟨rest, hrest⟩ := Text.exists_linesFrom 0 text
  have hlines : text.lines = [] ++ ⟨0, Text.firstLine text⟩ :: rest := hrest
  have hfocus : text.focus 0 = ⟨[], ⟨0, Text.firstLine text⟩, rest⟩ := Text.focus_start hlines
  have hshift : (Grammar.ofStyles styles).doctest? ⟨n, Text.firstLine text⟩ =
      ((Grammar.ofStyles styles).doctest? ⟨0, Text.firstLine text⟩).map (DoctestLine.shift n) := by
    rw [← Grammar.doctest?_shift, Line.shift, Nat.zero_add]
  rw [hbelow, Grammar.doctestRun, hshift, Grammar.doctestAt, Text.lineAt, hfocus]
  cases (Grammar.ofStyles styles).doctest? ⟨0, Text.firstLine text⟩ with
  | none => simp
  | some d =>
    have hkind : (d.shift n).isContinuation = d.isContinuation := rfl
    simp only [Option.map_some, List.takeWhile_cons, hkind]
    cases hd : d.isContinuation <;> simp [hd]

/-- On the lines of its command an entry is read as a snippet, and this is the command again unless the output starts
with a continuation line. -/
theorem readSnippet_entry_iff (styles : List Char) (command output : Text) {pos : Int}
    (hpos : pos ≤ (Text.joinLines (echo command)).length) :
    ∃ s, (Grammar.ofStyles styles).readSnippet (entry command output) pos = .ok s ∧
      (s.command = command ↔ ∀ d, (Grammar.ofStyles styles).doctestAt (trimNewlines output) 0 = some d →
        d.isContinuation = false) := by
  obtain ⟨first, rest, hdocs, hcommand, hrest⟩ := exists_docs_echo styles command
  have hread := Grammar.readSnippet_top (lines_entry command output) hdocs hrest (lineAt_entry hpos)
  have hbelow : ∀ n, (Grammar.ofStyles styles).doctestRun (if trimNewlines output = [] then [] else
      Text.linesFrom n (trimNewlines output)) =
        (Grammar.ofStyles styles).doctestRun (Text.linesFrom n (trimNewlines output)) := by
    intro n
    split
    · next h => rw [h]; rfl
    · rfl
  rw [hbelow] at hread
  refine ⟨_, hread, ?_⟩
  rw [← continues_iff styles ((Text.joinLines (echo command)).length + 1), Snippet.command, Snippet.lines,
    ← List.cons_append, List.map_append]
  constructor
  · intro h
    by_contra hmore
    rw [Text.joinLines_append (by simp) (by simpa using hmore), hcommand] at h
    have hlen := congrArg List.length h
    simp only [List.length_append, List.length_cons] at hlen
    omega
  · intro h
    rw [h, List.map_nil, List.append_nil, hcommand]

theorem readSnippet_entry_continued :
    (12 : Int) ≤ (Text.joinLines (echo "if x:\n    y".toList)).length ∧
    (∃ s, (Grammar.ofStyles ['=']).readSnippet (entry "if x:\n    y".toList "z\n".toList) 12 = .ok s ∧
      s.command = "if x:\n    y".toList) ∧
    ∃ s, (Grammar.ofStyles ['=']).readSnippet (entry "if x:\n    y".toList "... z\n".toList) 12 = .ok s ∧
      s.command ≠ "if x:\n    y".toList := by
  have hpos : (12 : Int) ≤ (Text.joinLines (echo "if x:\n    y".toList)).length := by decide
  obtain ⟨s, hs, hiff⟩ := readSnippet_entry_iff ['='] "if x:\n    y".toList "z\n".toList hpos
  obtain ⟨t, ht, htiff⟩ := readSnippet_entry_iff ['='] "if x:\n    y".toList "... z\n".toList hpos
  refine ⟨hpos, ⟨s, hs, hiff.mpr ?_⟩, t, ht, fun h => ?_⟩
  · have hnone : (Grammar.ofStyles ['=']).doctestAt (trimNewlines "z\n".toList) 0 = none := by decide
    rw [hnone]
    simp
  · exact absurd (htiff.mp h ⟨0, [], .continuation, true, ['z']⟩ (by decide)) (by decide)

end Console

end Literate
