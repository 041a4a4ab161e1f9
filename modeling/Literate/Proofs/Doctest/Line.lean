import Literate.Doctest.Line
import Literate.Proofs.Grammar.Marker

namespace Literate

open Unicode Split

def DoctestLine.body (d : DoctestLine) : Text :=
  d.lead ++ (d.prompt.text ++ ((if d.gap then [' '] else []) ++ d.payload))

theorem Prompt.newline_not_mem (p : Prompt) : '\n' ∉ p.text := by cases p <;> decide

theorem promptAt?_newline (text rest : Text) :
    promptAt? (text ++ '\n' :: rest) = (promptAt? text).map fun q => (q.1, q.2 ++ '\n' :: rest) := by
  rw [promptAt?, promptAt?, Text.isPrefixOf?_newline (Prompt.newline_not_mem _),
    Text.isPrefixOf?_newline (Prompt.newline_not_mem _)]
  cases Prompt.primary.text.isPrefixOf? text with
  | some tail => rfl
  | none => simp [Option.map_map, Function.comp_def]

theorem promptAt?_parts {text : Text} {q : Prompt × Text} (h : promptAt? text = some q) :
    q.1.text ++ q.2 = text := by
  rw [promptAt?] at h
  cases hp : Prompt.primary.text.isPrefixOf? text with
  | some tail =>
    obtain rfl : (Prompt.primary, tail) = q := by simpa [hp] using h
    exact List.append_eq_of_isPrefixOf?_eq_some hp
  | none =>
    simp only [hp, Option.map_eq_some_iff] at h
    obtain ⟨tail, ht, rfl⟩ := h
    exact List.append_eq_of_isPrefixOf?_eq_some ht

theorem payloadOf_of_head?_ne {text : Text} (h : text.head? ≠ some ' ') : payloadOf text = (false, text) := by
  cases text with
  | nil => rfl
  | cons c text =>
    rw [payloadOf]
    rintro rest he
    exact h (by rw [he]; rfl)

theorem payloadOf_newline (text rest : Text) :
    payloadOf (text ++ '\n' :: rest) = ((payloadOf text).1, (payloadOf text).2 ++ '\n' :: rest) := by
  by_cases h : text.head? = some ' '
  · obtain ⟨tail, rfl⟩ := List.head?_eq_some_iff.mp h
    rfl
  · have hn : (text ++ '\n' :: rest).head? ≠ some ' ' := by
      cases text with
      | nil => simp
      | cons c text => exact h
    rw [payloadOf_of_head?_ne h, payloadOf_of_head?_ne hn]

theorem payloadOf_parts (text : Text) :
    (if (payloadOf text).1 then [' '] else []) ++ (payloadOf text).2 = text := by
  by_cases h : text.head? = some ' '
  · obtain ⟨tail, rfl⟩ := List.head?_eq_some_iff.mp h
    rfl
  · simp [payloadOf_of_head?_ne h]

namespace Grammar

variable {g : Grammar}

theorem leads_newline (hg : g.WithinLine) : g.leads '\n' = false := by
  simp [leads, hg.comment, isBlank]

theorem doctestFrom?_newline (hg : g.WithinLine) (n : Nat) (body rest : Text) :
    g.doctestFrom? n (body ++ '\n' :: rest) = g.doctestFrom? n body := by
  rw [doctestFrom?, doctestFrom?, splitsOf_newline (leads_newline hg), List.findSome?_map]
  apply Text.findSome?_congr
  intro p hp
  have hof := isOf_of_mem_splitsOf hp
  simp only [Function.comp_apply, extend, promptAt?_newline, Option.map_map, payloadOf_newline,
    Text.firstLine_newline, hof.take_eq, Function.comp_def]

theorem doctestFrom?_parts {n : Nat} {body : Text} (hb : '\n' ∉ body) {d : DoctestLine}
    (h : g.doctestFrom? n body = some d) : d.start = n ∧ d.body = body := by
  obtain ⟨p, hp, h⟩ := List.exists_of_findSome?_eq_some h
  obtain ⟨q, hq, rfl⟩ := Option.map_eq_some_iff.mp h
  have hof := isOf_of_mem_splitsOf hp
  have hprompt := promptAt?_parts hq
  have hpayload := payloadOf_parts q.2
  have hn : '\n' ∉ (payloadOf q.2).2 := by
    intro hm
    apply hof.newline_not_mem hb
    rw [← hprompt, ← hpayload]
    exact List.mem_append_right _ (List.mem_append_right _ hm)
  refine ⟨rfl, ?_⟩
  simp only [DoctestLine.body, Text.firstLine_eq hn]
  rw [hpayload, hprompt, hof.take_append]

theorem doctestFrom?_stop {n : Nat} {body : Text} (hb : '\n' ∉ body) {d : DoctestLine}
    (h : g.doctestFrom? n body = some d) : d.stop = n + body.length := by
  obtain ⟨rfl, rfl⟩ := doctestFrom?_parts hb h
  have hp : d.prompt.text.length = 3 := by cases d.prompt <;> rfl
  simp only [DoctestLine.stop, DoctestLine.payloadStart, DoctestLine.promptStop, DoctestLine.promptStart,
    DoctestLine.body, List.length_append, hp]
  split
  · simp only [List.length_singleton]
    omega
  · simp only [List.length_nil]
    omega

theorem doctestLines_oneLine (hg : g.WithinLine) : Text.OneLine g.doctestFrom? DoctestLine.stop where
  newline n body rest _ := doctestFrom?_newline hg n body rest
  stop_le _ _ _ hb h := (doctestFrom?_stop hb h).le

end Grammar

end Literate
