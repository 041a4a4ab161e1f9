import Literate.Proofs.Grammar.Styles
import Literate.Title.Basic

namespace Literate

open Unicode

namespace Grammar

variable {g : Grammar}

theorem run?_newline (hg : g.WithinLine) (text rest : Text) :
    g.run? (text ++ '\n' :: rest) = g.run? text := by
  cases text with
  | nil => simp [run?, hg.styles]
  | cons c text =>
    by_cases hc : c ∈ g.styles
    · have hn : decide ('\n' = c) = false := decide_eq_false fun he => hg.styles (he ▸ hc)
      have ht : (text ++ '\n' :: rest).takeWhile (· = c) = text.takeWhile (· = c) :=
        Text.takeWhile_newline hn text rest
      have hd : (text ++ '\n' :: rest).dropWhile (· = c) = text.dropWhile (· = c) ++ '\n' :: rest :=
        Text.dropWhile_newline hn text rest
      simp only [List.cons_append, run?, if_pos hc, ht, hd, Text.firstLine_newline]
    · simp only [List.cons_append, run?, if_neg hc]

theorem titleText?_newline (text rest : Text) :
    g.titleText? (text ++ '\n' :: rest) = g.titleText? text := by
  cases text with
  | nil =>
    have hs : isSpace '\n' = true := by decide
    simp [titleText?, hs]
  | cons c text => simp only [List.cons_append, titleText?, Text.firstLine_newline]

theorem titleLines_newline (hg : g.WithinLine) {body : Text} (hb : '\n' ∉ body) (rest : Text) :
    g.titleLines (body ++ '\n' :: rest) = (g.titleLines body).map fun p => (p.1, some rest) := by
  rw [titleLines, titleLines, markers_newline hg, List.filterMap_map, List.map_filterMap]
  apply List.filterMap_congr
  intro p hp
  have hof := isOf_of_mem_markers hp
  simp only [Function.comp_apply, Split.extend, run?_newline hg, titleText?_newline,
    Text.afterLine?_newline (hof.newline_not_mem hb), hof.take_eq]
  by_cases hr : (g.run? p.2).isSome = true
  · rw [if_pos hr, if_pos hr]
    rfl
  · rw [if_neg hr, if_neg hr, Option.map_map]
    rfl

theorem titleLines_last {body : Text} (hb : '\n' ∉ body) {p : TitleLine × Option Text}
    (hp : p ∈ g.titleLines body) : p.2 = none := by
  obtain ⟨q, hq, h⟩ := List.mem_filterMap.mp hp
  split at h
  · simp at h
  · obtain ⟨t, -, rfl⟩ := Option.map_eq_some_iff.mp h
    exact Text.afterLine?_last ((isOf_of_mem_markers hq).newline_not_mem hb)

theorem underline?_newline (hg : g.WithinLine) {body : Text} (hb : '\n' ∉ body) (rest : Text) :
    g.underline? (body ++ '\n' :: rest) = (g.underline? body).map fun p => (p.1, some rest) := by
  rw [underline?, underline?, markers_newline hg, ← List.head?_filterMap, ← List.head?_filterMap,
    ← List.head?_map, List.filterMap_map, List.map_filterMap]
  congr 1
  apply List.filterMap_congr
  intro p hp
  have hof := isOf_of_mem_markers hp
  simp only [Function.comp_apply, Split.extend, run?_newline hg,
    Text.afterLine?_newline (hof.newline_not_mem hb), hof.take_eq, Option.map_map]
  rfl

theorem underline?_last {body : Text} (hb : '\n' ∉ body) {p : Underline × Option Text}
    (hp : g.underline? body = some p) : p.2 = none := by
  obtain ⟨q, hq, h⟩ := List.exists_of_findSome?_eq_some hp
  obtain ⟨t, -, rfl⟩ := Option.map_eq_some_iff.mp h
  exact Text.afterLine?_last ((isOf_of_mem_markers hq).newline_not_mem hb)

theorem titleText?_parts {text title pad : Text} (h : g.titleText? text = some (title, pad)) :
    title ++ pad = Text.firstLine text ∧ title ≠ [] := by
  cases text with
  | nil => simp [titleText?] at h
  | cons c rest =>
    rw [titleText?] at h
    split at h
    · simp at h
    · rename_i hc
      rw [not_or] at hc
      dsimp only at h
      split at h
      · simp at h
      · obtain ⟨rfl, rfl⟩ := Prod.mk.inj (Option.some.inj h)
        have hne : c ≠ '\n' := by
          rintro rfl
          exact hc.2 (by decide)
        refine ⟨by rw [← List.reverse_append, List.takeWhile_append_dropWhile, List.reverse_reverse, Text.firstLine,
          Text.firstLine, List.takeWhile_cons_of_pos (by simpa using hne)], ?_⟩
        rw [Ne, List.reverse_eq_nil_iff, List.dropWhile_eq_nil_iff]
        intro hall
        have hcb := hall c (by simp)
        exact hc.2 (isSpace_of_isBlank hcb)

theorem run?_parts {text : Text} {c : Char} {n : Nat} {pad : Text} (h : g.run? text = some (c, n, pad)) :
    c ∈ g.styles ∧ 0 < n ∧ ('\n' ∉ text → text = List.replicate n c ++ pad) ∧ pad.all isBlank = true := by
  cases text with
  | nil => simp [run?] at h
  | cons d rest =>
    rw [run?] at h
    split at h
    · rename_i hd
      dsimp only at h
      split at h
      · rename_i hp
        obtain ⟨rfl, rfl, rfl⟩ : d = c ∧ (rest.takeWhile (· = d)).length + 1 = n ∧
            Text.firstLine (rest.dropWhile (· = d)) = pad := by simpa using h
        refine ⟨hd, Nat.succ_pos _, fun hn => ?_, hp⟩
        have hdrop : '\n' ∉ rest.dropWhile (· = d) := fun hm =>
          hn (List.mem_cons_of_mem _ ((List.dropWhile_suffix _).subset hm))
        have htake : rest.takeWhile (· = d) = List.replicate (rest.takeWhile (· = d)).length d :=
          List.eq_replicate_iff.mpr ⟨rfl, fun b hb => by simpa using List.mem_takeWhile_imp hb⟩
        rw [Text.firstLine_eq hdrop, List.replicate_succ, ← htake, List.cons_append,
          List.takeWhile_append_dropWhile]
      · simp at h
    · simp at h

theorem titleLine?_parts {body : Text} (hb : '\n' ∉ body) {t : TitleLine} (h : g.titleLine? body = some t) :
    t.body = body ∧ t.title ≠ [] := by
  obtain ⟨p, hp, rfl⟩ := Option.map_eq_some_iff.mp h
  obtain ⟨q, hq, he⟩ := List.mem_filterMap.mp (List.mem_of_head? hp)
  have hof := isOf_of_mem_markers hq
  split at he
  · simp at he
  · obtain ⟨⟨title, pad⟩, ht, rfl⟩ := Option.map_eq_some_iff.mp he
    obtain ⟨hparts, hne⟩ := titleText?_parts ht
    refine ⟨?_, hne⟩
    rw [TitleLine.body, List.append_assoc, hparts, Text.firstLine_eq (hof.newline_not_mem hb),
      hof.take_append]

theorem underline?_parts {body : Text} (hb : '\n' ∉ body) {p : Underline × Option Text}
    (h : g.underline? body = some p) : p.1.body = body ∧ 0 < p.1.length ∧ p.1.char ∈ g.styles := by
  obtain ⟨q, hq, he⟩ := List.exists_of_findSome?_eq_some h
  have hof := isOf_of_mem_markers hq
  obtain ⟨⟨c, n, pad⟩, hr, rfl⟩ := Option.map_eq_some_iff.mp he
  obtain ⟨hc, hn, ht, -⟩ := run?_parts hr
  refine ⟨?_, hn, hc⟩
  rw [Underline.body, Underline.run, List.append_assoc, ← ht (hof.newline_not_mem hb), hof.take_append]

theorem underline?_nil : g.underline? [] = none := by
  cases h : g.underline? [] with
  | none => rfl
  | some p =>
    obtain ⟨hbody, hpos, -⟩ := underline?_parts List.not_mem_nil h
    have hlen := congrArg List.length hbody
    simp only [Underline.body, Underline.run, List.length_append, List.length_replicate, List.length_nil] at hlen
    omega

end Grammar

end Literate
