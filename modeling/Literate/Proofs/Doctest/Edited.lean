import Literate.Proofs.Doctest.Run
import Literate.Proofs.Doctest.Line
import Literate.Proofs.Text.Splice
import Literate.Proofs.Title.LoudRun
import Literate.Title.Edit

namespace Literate

open Unicode

theorem promptAt?_append (p : Prompt) (rest : Text) : promptAt? (p.text ++ rest) = some (p, rest) := by
  cases p <;> rfl

theorem Prompt.length_text (p : Prompt) : p.text.length = 3 := by cases p <;> rfl

theorem Prompt.reserved_of_mem {p : Prompt} {c : Char} (h : c ∈ p.text) : [c] ∈ Grammar.reserved := by
  cases p <;> simp only [text, List.mem_cons, List.not_mem_nil, or_false, or_self] at h <;> subst h <;> decide

theorem promptAt?_head {text : Text} {q : Prompt × Text} (h : promptAt? text = some q) :
    ∃ c ∈ q.1.text, text.head? = some c := by
  rw [← promptAt?_parts h]
  cases q.1 with
  | primary => exact ⟨'>', by decide, rfl⟩
  | continuation => exact ⟨'.', by decide, rfl⟩

namespace Text

theorem exists_linesFrom (n : Nat) (text : Text) : ∃ below, linesFrom n text = ⟨n, firstLine text⟩ :: below := by
  induction text using byLine with
  | last body hb => exact ⟨[], by rw [linesFrom_last hb, firstLine_eq hb]⟩
  | line body rest hb _ => exact ⟨_, by rw [linesFrom_line hb, firstLine_newline, firstLine_eq hb]⟩

end Text

namespace Grammar

variable {g : Grammar} {styles : List Char} {text : Text} {start stop : Nat}

theorem leads_iff {c : Char} : (ofStyles styles).leads c = true ↔ c = '#' ∨ isBlank c = true := by
  simp [leads, ofStyles]

theorem reserved_not_leads {c : Char} (h : [c] ∈ reserved) : (ofStyles styles).leads c = false := by
  rw [Bool.eq_false_iff, Ne, leads_iff]
  simp only [reserved, List.mem_cons, List.cons.injEq, List.not_mem_nil, or_false, and_true] at h
  rcases h with rfl | rfl | rfl <;> decide

theorem doctestFrom?_eq (styles : List Char) (n : Nat) (text : Text) : (ofStyles styles).doctestFrom? n text =
    (promptAt? (text.dropWhile (ofStyles styles).leads)).map fun q =>
      ⟨n, text.take (text.takeWhile (ofStyles styles).leads).length, q.1, (payloadOf q.2).1,
        Text.firstLine (payloadOf q.2).2⟩ := by
  obtain ⟨more, he, hm⟩ := splitsOf_eq_cons (ofStyles styles).leads text
  rw [doctestFrom?, he, List.findSome?_cons]
  have hmore : more.findSome? (fun p => (promptAt? p.2).map fun q => (⟨n, text.take p.1, q.1, (payloadOf q.2).1,
      Text.firstLine (payloadOf q.2).2⟩ : DoctestLine)) = none := by
    rw [List.findSome?_eq_none_iff]
    intro p hp
    obtain ⟨c, hc, hlead⟩ := hm p hp
    cases hq : promptAt? p.2 with
    | none => rfl
    | some q =>
      obtain ⟨d, hd, hhead⟩ := promptAt?_head hq
      obtain rfl : d = c := Option.some.inj (hhead.symm.trans hc)
      simp [reserved_not_leads (Prompt.reserved_of_mem hd)] at hlead
  cases hq : promptAt? (text.dropWhile (ofStyles styles).leads) with
  | none => exact hmore
  | some q => rfl

def Prompts (g : Grammar) (text : Text) (start stop : Nat) : Prop :=
  ∃ d ∈ g.doctestLines text 0 text.length, d.start = start ∧ d.promptStop = stop

theorem mem_doctestLines_iff (hg : g.WithinLine) {d : DoctestLine} :
    d ∈ g.doctestLines text 0 text.length ↔ ∃ l ∈ text.lines, g.doctest? l = some d := by
  rw [doctestLines, (doctestLines_oneLine hg).searchLines_eq, List.take_length, Text.lines_eq_linesFrom,
    Text.filter_start_of_le (Nat.le_refl 0)]
  exact List.mem_filterMap

theorem prompts_iff_line (hg : g.WithinLine) : g.Prompts text start stop ↔
    ∃ l ∈ text.lines, ∃ d, g.doctest? l = some d ∧ l.start = start ∧ d.promptStop = stop := by
  constructor
  · rintro ⟨d, hd, rfl, hstop⟩
    obtain ⟨l, hl, hld⟩ := (mem_doctestLines_iff hg).mp hd
    exact ⟨l, hl, d, hld, (doctest?_start hld).symm, hstop⟩
  · rintro ⟨l, hl, d, hld, rfl, hstop⟩
    exact ⟨d, (mem_doctestLines_iff hg).mpr ⟨l, hl, hld⟩, doctest?_start hld, hstop⟩

theorem doctestFrom?_firstLine (hg : g.WithinLine) (n : Nat) (text : Text) :
    g.doctestFrom? n (Text.firstLine text) = g.doctestFrom? n text := by
  induction text using Text.byLine with
  | last body hb => rw [Text.firstLine_eq hb]
  | line body rest hb _ => rw [Text.firstLine_newline, Text.firstLine_eq hb, doctestFrom?_newline hg]

theorem prompts_iff (h : Accepted styles) : (ofStyles styles).Prompts text start stop ↔
    ∃ front lead prompt rest, text = front ++ (lead ++ (Prompt.text prompt ++ rest)) ∧
      (front = [] ∨ front.getLast? = some '\n') ∧ (∀ c ∈ lead, (ofStyles styles).leads c = true) ∧
      front.length = start ∧ start + lead.length + 3 = stop := by
  have hg : (ofStyles styles).WithinLine := h.withinLine
  rw [prompts_iff_line hg]
  constructor
  · rintro ⟨l, hl, d, hd, rfl, rfl⟩
    obtain ⟨above, below, hlines⟩ := List.append_of_mem hl
    obtain ⟨front, rest, rfl, hstart, hrest, hfront⟩ := Text.of_linesFrom_append hlines
    have hfirst : Text.firstLine rest = l.body := by
      obtain ⟨ls, hls⟩ := Text.exists_linesFrom l.start rest
      exact congrArg Line.body (List.cons.inj (hls.symm.trans hrest)).1
    rw [doctest?, ← hfirst, doctestFrom?_firstLine hg, doctestFrom?_eq] at hd
    obtain ⟨q, hq, rfl⟩ := Option.map_eq_some_iff.mp hd
    refine ⟨front, rest.takeWhile (ofStyles styles).leads, q.1, q.2, ?_, ?_, fun c hc => List.mem_takeWhile_imp hc, ?_, ?_⟩
    · rw [promptAt?_parts hq, List.takeWhile_append_dropWhile]
    · rcases hfront with ⟨-, rfl⟩ | ⟨body, rfl, -⟩
      · exact .inl rfl
      · exact .inr List.getLast?_concat
    · omega
    · have hlen := (List.takeWhile_prefix (ofStyles styles).leads (l := rest)).length_le
      simp only [DoctestLine.promptStop, DoctestLine.promptStart, List.length_take, Nat.min_eq_left hlen]
  · rintro ⟨front, lead, prompt, rest, rfl, hfront, hlead, rfl, rfl⟩
    have hprompt : (prompt.text ++ rest).takeWhile (ofStyles styles).leads = [] ∧
        (prompt.text ++ rest).dropWhile (ofStyles styles).leads = prompt.text ++ rest := by
      obtain ⟨c, hc, hhead⟩ := promptAt?_head (promptAt?_append prompt rest)
      obtain ⟨tail, htail⟩ := List.head?_eq_some_iff.mp hhead
      have hlead : ¬(ofStyles styles).leads c = true := by simp [reserved_not_leads (Prompt.reserved_of_mem hc)]
      rw [htail, List.takeWhile_cons_of_neg hlead, List.dropWhile_cons_of_neg hlead]
      exact ⟨rfl, rfl⟩
    obtain ⟨below, hbelow⟩ := Text.exists_linesFrom front.length (lead ++ (prompt.text ++ rest))
    refine ⟨⟨front.length, Text.firstLine (lead ++ (prompt.text ++ rest))⟩, ?_,
      ⟨front.length, lead, prompt, (payloadOf rest).1, Text.firstLine (payloadOf rest).2⟩, ?_, rfl, rfl⟩
    · rcases hfront with rfl | hfront
      · rw [Text.lines_eq_linesFrom, List.nil_append, ← List.length_nil, hbelow]
        exact List.mem_cons_self
      · obtain ⟨body, rfl⟩ := List.getLast?_eq_some_iff.mp hfront
        rw [List.length_append, List.length_singleton] at hbelow ⊢
        rw [Text.lines_eq_linesFrom, List.append_assoc, List.singleton_append, Text.linesFrom_append, Nat.zero_add, hbelow]
        simp
    · rw [doctest?, doctestFrom?_firstLine hg, doctestFrom?_eq, List.dropWhile_append_of_pos hlead, hprompt.2,
        promptAt?_append, List.takeWhile_append_of_pos hlead, hprompt.1, List.append_nil, List.take_left]
      rfl

theorem prompts_front (h : Accepted styles) {front rest : Text} (hp : (ofStyles styles).Prompts (front ++ rest) start stop)
    (hstop : stop ≤ front.length) (other : Text) : (ofStyles styles).Prompts (front ++ other) start stop := by
  obtain ⟨f, lead, prompt, tail, htext, hf, hlead, rfl, rfl⟩ := (prompts_iff h).mp hp
  have hwhole : f ++ (lead ++ prompt.text) <+: front ++ rest := ⟨tail, by rw [htext, List.append_assoc, List.append_assoc]⟩
  have hlength : (f ++ (lead ++ prompt.text)).length ≤ front.length := by
    simp only [List.length_append, Prompt.length_text]
    omega
  obtain ⟨more, rfl⟩ := List.prefix_of_prefix_length_le hwhole (List.prefix_append front rest) hlength
  exact (prompts_iff h).mpr ⟨f, lead, prompt, more ++ other, by simp only [List.append_assoc], hf, hlead, rfl, rfl⟩

theorem prompts_back (h : Accepted styles) {front old back : Text}
    (hp : (ofStyles styles).Prompts (front ++ (old ++ back)) start stop) (hstart : front.length + old.length < start)
    (new : Text) : ∃ start' stop',
      (ofStyles styles).Prompts (front ++ (new ++ back)) start' stop' ∧ start' + old.length = start + new.length := by
  obtain ⟨f, lead, prompt, tail, htext, hf, hlead, rfl, rfl⟩ := (prompts_iff h).mp hp
  rw [← List.append_assoc] at htext
  obtain ⟨more, rfl⟩ := List.prefix_of_prefix_length_le (List.prefix_append (front ++ old) back) ⟨_, htext.symm⟩
    (by rw [List.length_append]; omega)
  rw [List.append_assoc (front ++ old)] at htext
  simp only [List.length_append] at hstart ⊢
  have hmore : more ≠ [] := List.ne_nil_of_length_pos (by omega)
  have hlast : more.getLast? = some '\n' := by
    rcases hf with hf | hf
    · exact absurd (List.append_eq_nil_iff.mp hf).2 hmore
    · rwa [List.getLast?_append_of_ne_nil _ hmore] at hf
  refine ⟨_, _, (prompts_iff h).mpr ⟨front ++ (new ++ more), lead, prompt, tail, ?_, .inr ?_, hlead, rfl, rfl⟩, ?_⟩
  · rw [List.append_cancel_left htext]
    simp only [List.append_assoc]
  · rwa [← List.append_assoc, List.getLast?_append_of_ne_nil _ hmore]
  · simp only [List.length_append]
    omega

end Grammar

namespace TextEdit

def MakesNoPrompt (e : TextEdit) (g : Grammar) (source : Text) : Prop :=
  ∀ start stop, g.Prompts (e.apply source) start stop →
    stop ≤ source.offset e.start ∨ source.offset e.start + e.text.length < start

def Leaves (e : TextEdit) (source : Text) (d : DoctestLine) (start : Int) : Prop :=
  (d.promptStop ≤ source.offset e.start ∧ (d.start : Int) = start) ∨
    (source.offset e.stop < d.start ∧ d.start + ((e.apply source).length - source.length : Int) = start)

instance (e : TextEdit) (source : Text) (d : DoctestLine) (start : Int) : Decidable (e.Leaves source d start) :=
  inferInstanceAs (Decidable (_ ∨ _))

theorem offset_le (source : Text) (pos : Int) : source.offset pos ≤ source.length := by
  rw [Text.offset]
  split <;> omega

theorem exists_doctest_apply_iff {styles : List Char} (h : Grammar.Accepted styles) {e : TextEdit} {source : Text}
    (hle : source.offset e.start ≤ source.offset e.stop) (hno : e.MakesNoPrompt (.ofStyles styles) source) (n : Int) :
    (∃ d ∈ (Grammar.ofStyles styles).doctestLines (e.apply source) 0 (e.apply source).length, (d.start : Int) = n) ↔
      ∃ d ∈ (Grammar.ofStyles styles).doctestLines source 0 source.length, e.Leaves source d n := by
  obtain ⟨front, old, back, hsource, happly, hfront, hold⟩ : ∃ front old back : Text, source = front ++ (old ++ back) ∧
      e.apply source = front ++ (e.text ++ back) ∧ front.length = source.offset e.start ∧
      (front ++ old).length = source.offset e.stop := by
    have hlen := offset_le source e.stop
    refine ⟨_, _, _, (Text.take_take_drop source hle).symm, List.append_assoc _ _ _, ?_, ?_⟩
    · rw [List.length_take, Nat.min_eq_left (by omega)]
    · rw [List.length_append, List.length_take, List.length_take, List.length_drop]
      omega
  have hnew : (e.apply source).length = front.length + (e.text.length + back.length) := by
    rw [happly, List.length_append, List.length_append]
  have hlength : source.length = front.length + (old.length + back.length) := by
    rw [hsource, List.length_append, List.length_append]
  rw [List.length_append] at hold
  constructor
  · rintro ⟨d, hd, rfl⟩
    have hp : (Grammar.ofStyles styles).Prompts (e.apply source) d.start d.promptStop := ⟨d, hd, rfl, rfl⟩
    rcases hno _ _ hp with hstop | hstart
    · rw [happly] at hp
      obtain ⟨c, hc, hcs, hcp⟩ := hsource ▸ Grammar.prompts_front h hp (by omega) (old ++ back)
      exact ⟨c, hc, .inl ⟨by omega, by omega⟩⟩
    · rw [happly] at hp
      obtain ⟨_, _, hmoved, hplace⟩ := Grammar.prompts_back h hp (by omega) old
      rw [← hsource] at hmoved
      obtain ⟨c, hc, rfl, -⟩ := hmoved
      exact ⟨c, hc, .inr ⟨by omega, by omega⟩⟩
  · rintro ⟨d, hd, hleaves⟩
    have hp : (Grammar.ofStyles styles).Prompts source d.start d.promptStop := ⟨d, hd, rfl, rfl⟩
    rcases hleaves with ⟨hstop, rfl⟩ | ⟨hstart, rfl⟩
    · rw [hsource] at hp
      obtain ⟨c, hc, hcs, hcp⟩ := happly ▸ Grammar.prompts_front h hp (by omega) (e.text ++ back)
      exact ⟨c, hc, by omega⟩
    · rw [hsource] at hp
      obtain ⟨_, _, hmoved, hplace⟩ := Grammar.prompts_back h hp (by omega) e.text
      rw [← happly] at hmoved
      obtain ⟨c, hc, rfl, -⟩ := hmoved
      exact ⟨c, hc, by omega⟩

end TextEdit

end Literate
