import Literate.Proofs.Title.Lines

/-!
The lines that read as a title and as an underline. A loud comment whose text is a run is an underline behind
its loud mark; given back, the mark turns the run into a title.
-/

namespace Literate

open Unicode

theorem splitsFrom_eq_cons (p : Char → Bool) (taken : Nat) (fewer : List Split) (text : Text) :
    ∃ more, splitsFrom p taken fewer text =
        (taken + (text.takeWhile p).length, text.dropWhile p) :: (more ++ fewer) ∧
      ∀ q ∈ more, ∃ c ∈ q.2.head?, p c = true := by
  induction text generalizing taken fewer with
  | nil => exact ⟨[], rfl, by simp⟩
  | cons c text ih =>
    by_cases hc : p c = true
    · obtain ⟨more, he, hm⟩ := ih (taken + 1) ((taken, c :: text) :: fewer)
      refine ⟨more ++ [(taken, c :: text)], ?_, ?_⟩
      · rw [splitsFrom, if_pos hc, he]
        simp [hc]
        omega
      · intro q hq
        rcases List.mem_append.mp hq with hq | hq
        · exact hm q hq
        · obtain rfl := List.mem_singleton.mp hq
          exact ⟨c, rfl, hc⟩
    · refine ⟨[], ?_, by simp⟩
      rw [splitsFrom, if_neg hc]
      simp [hc]

theorem splitsOf_eq_cons (p : Char → Bool) (text : Text) :
    ∃ more, splitsOf p text = ((text.takeWhile p).length, text.dropWhile p) :: more ∧
      ∀ q ∈ more, ∃ c ∈ q.2.head?, p c = true := by
  obtain ⟨more, he, hm⟩ := splitsFrom_eq_cons p 0 [] text
  exact ⟨more, by rw [splitsOf, he]; simp, hm⟩

namespace Grammar

variable {styles : List Char}

theorem comments_eq (text : Text) : (ofStyles styles).comments text = runsOf '#' text := by
  simp [comments, commentStem, commentTail, ofStyles, List.isPrefixOf?]

theorem comments_of_head_ne {text : Text} (h : text.head? ≠ some '#') : (ofStyles styles).comments text = [] := by
  rw [comments_eq]
  cases text with
  | nil => rfl
  | cons c text =>
    have hc : ¬c = '#' := fun he => h (by rw [he]; rfl)
    simp [runsOf, splitsOf, splitsFrom, hc]

theorem comments_sign (styles : List Char) (text : Text) :
    ∃ more, (ofStyles styles).comments ('#' :: text) =
        (1 + (text.takeWhile (· = '#')).length, text.dropWhile (· = '#')) :: more ∧
      ∀ q ∈ more, q.2.head? = some '#' := by
  obtain ⟨more, he, hm⟩ := splitsFrom_eq_cons (fun c => decide (c = '#')) 1 [(0, '#' :: text)] text
  refine ⟨more, ?_, fun q hq => ?_⟩
  · rw [comments_eq, runsOf, splitsOf, splitsFrom, if_pos (by simp), he, ← List.cons_append,
      List.dropLast_concat]
  · obtain ⟨c, hc, hs⟩ := hm q hq
    obtain rfl : c = '#' := by simpa using hs
    exact hc

theorem louds_loud (text : Text) : (ofStyles styles).louds ('!' :: text) = [(1, text), (0, '!' :: text)] := by
  simp [louds, ofStyles, List.isPrefixOf?]

theorem louds_quiet {text : Text} (h : text.head? ≠ some '!') : (ofStyles styles).louds text = [(0, text)] := by
  cases text with
  | nil => rfl
  | cons c text =>
    have hc : '!' ≠ c := fun he => h (by rw [← he]; rfl)
    simp [louds, ofStyles, List.isPrefixOf?, hc]

theorem signed_of_head_ne (styles : List Char) (n : Nat) {text : Text} (h : text.head? ≠ some '#') :
    (ofStyles styles).signed (n, text) = [] := by
  rw [signed, signs, comments_of_head_ne h]
  simp

theorem flatMap_signed_blank {fewer : List Split} (h : ∀ q ∈ fewer, ∃ c ∈ q.2.head?, isBlank c = true) :
    fewer.flatMap (ofStyles styles).signed = [] := by
  rw [List.flatMap_eq_nil_iff]
  intro q hq
  obtain ⟨c, hc, hb⟩ := h q hq
  apply signed_of_head_ne
  rw [hc]
  rintro ⟨⟩
  simp [isBlank] at hb

theorem louds_sign {text : Text} (h : text.head? = some '#') : (ofStyles styles).louds text = [(0, text)] :=
  louds_quiet (by rw [h]; simp)

theorem withBlanks_sign {n : Nat} {text : Text} (h : text.head? = some '#') :
    withBlanks (n, text) = (n, text) := by
  cases text with
  | nil => simp at h
  | cons c text =>
    obtain rfl : c = '#' := by simpa using h
    have hb : isBlank '#' = false := by decide
    simp [withBlanks, hb]

theorem signed_sign (styles : List Char) (n : Nat) (text : Text) :
    ∃ k more, (ofStyles styles).signed (n, '#' :: text) =
        ((ofStyles styles).louds (text.dropWhile (· = '#'))).map (fun q => withBlanks (k + q.1, q.2)) ++ more ∧
      ∀ q ∈ more, q.2.head? = some '#' := by
  obtain ⟨more, hc, hm⟩ := comments_sign styles text
  have hl : ¬(ofStyles styles).loud = [] := by simp [ofStyles]
  have hmore : more.flatMap (fun p => ((ofStyles styles).louds p.2).map fun q => (p.1 + q.1, q.2)) = more := by
    have hone : ∀ p ∈ more, ((ofStyles styles).louds p.2).map (fun q => (p.1 + q.1, q.2)) = [p] := by
      intro p hp
      rw [louds_sign (hm p hp)]
      rfl
    rw [List.flatMap_congr hone, List.flatMap_singleton']
  refine ⟨n + (1 + (text.takeWhile (· = '#')).length), more.map fun q => (n + q.1, q.2), ?_, ?_⟩
  · rw [signed, signs, if_neg hl, hc, List.flatMap_cons, hmore, List.map_append, List.map_map]
    congr 1
    · apply List.map_congr_left
      intro q _
      simp only [Function.comp_apply, Nat.add_assoc]
    · apply List.map_congr_left
      intro q hq
      exact withBlanks_sign (hm q hq)
  · intro q hq
    obtain ⟨r, hr, rfl⟩ := List.mem_map.mp hq
    exact hm r hr

def unsigned (text : Text) : Text := (text.dropWhile isBlank).dropWhile (· = '#')

theorem markers_sign (styles : List Char) {text : Text} (h : (text.dropWhile isBlank).head? = some '#') :
    ∃ n others, (ofStyles styles).markers text =
        ((ofStyles styles).louds (unsigned text)).map (fun q => withBlanks (n + q.1, q.2)) ++ others ∧
      ∀ q ∈ others, q.2.head? = some '#' := by
  obtain ⟨fewer, hs, hf⟩ := splitsOf_eq_cons isBlank text
  cases ht : text.dropWhile isBlank with
  | nil => simp [ht] at h
  | cons c rest =>
    obtain rfl : c = '#' := by simpa [ht] using h
    obtain ⟨n, more, he, hm⟩ := signed_sign styles (text.takeWhile isBlank).length rest
    have hu : unsigned text = rest.dropWhile (· = '#') := by simp [unsigned, ht]
    refine ⟨n, more ++ [((text.takeWhile isBlank).length, '#' :: rest)], ?_, ?_⟩
    · rw [markers, hs, ht, hu]
      simp only [he, flatMap_signed_blank hf, List.append_assoc]
    · intro q hq
      rcases List.mem_append.mp hq with hq | hq
      · exact hm q hq
      · rw [List.mem_singleton.mp hq]
        rfl

theorem markers_bare (styles : List Char) {text : Text} (h : (text.dropWhile isBlank).head? ≠ some '#') :
    ∃ n, (ofStyles styles).markers text = [(n, text.dropWhile isBlank)] := by
  obtain ⟨fewer, hs, hf⟩ := splitsOf_eq_cons isBlank text
  refine ⟨(text.takeWhile isBlank).length, ?_⟩
  have hn := signed_of_head_ne styles (text.takeWhile isBlank).length h
  rw [markers, hs]
  simp only [hn, flatMap_signed_blank hf, List.nil_append]

theorem titleLine?_isSome_iff {g : Grammar} {body : Text} : (g.titleLine? body).isSome = true ↔
    ∃ p ∈ g.markers body, g.run? p.2 = none ∧ (g.titleText? p.2).isSome = true := by
  rw [titleLine?, Option.isSome_map, titleLines, List.head?_filterMap, List.findSome?_isSome_iff]
  constructor
  · rintro ⟨p, hp, h⟩
    split at h
    · simp at h
    · rename_i hr
      exact ⟨p, hp, by simpa using hr, by simpa using h⟩
  · rintro ⟨p, hp, hr, ht⟩
    exact ⟨p, hp, by simpa [hr] using ht⟩

theorem underline?_isSome_iff {g : Grammar} {body : Text} : (g.underline? body).isSome = true ↔
    ∃ p ∈ g.markers body, (g.run? p.2).isSome = true := by
  simp only [underline?, List.findSome?_isSome_iff, Option.isSome_map]

theorem run?_replicate (h : Accepted styles) {c : Char} (hc : c ∈ styles) (n : Nat) {pad : Text}
    (hp : pad.all isBlank = true) : (ofStyles styles).run? (List.replicate (n + 1) c ++ pad) = some (c, n + 1, pad) := by
  have hpad : ∀ d ∈ pad, isBlank d = true := List.all_eq_true.mp hp
  have hother : ∀ d ∈ pad, decide (d = c) = false := by
    intro d hd
    apply decide_eq_false
    rintro rfl
    exact absurd (hpad d hd) (by simp [h.not_blank hc])
  have hdrop : (List.replicate n c ++ pad).dropWhile (· = c) = pad := by
    rw [List.dropWhile_append_of_pos (by simp)]
    cases pad with
    | nil => rfl
    | cons d pad => exact List.dropWhile_cons_of_neg (by simp [hother d])
  have htake : (List.replicate n c ++ pad).takeWhile (· = c) = List.replicate n c := by
    rw [List.takeWhile_append_of_pos (by simp)]
    cases pad with
    | nil => exact List.append_nil _
    | cons d pad => rw [List.takeWhile_cons_of_neg (by simp [hother d]), List.append_nil]
  have hfirst : Text.firstLine pad = pad := Text.firstLine_eq fun hm => absurd (hpad _ hm) (by decide)
  have hstyle : c ∈ (ofStyles styles).styles := hc
  rw [List.replicate_succ, List.cons_append, run?, if_pos hstyle, hdrop, htake, hfirst, if_pos hp, List.length_replicate]

theorem run?_isSome_iff (h : Accepted styles) {text : Text} (hn : '\n' ∉ text) :
    ((ofStyles styles).run? text).isSome = true ↔
      ∃ c n pad, text = List.replicate (n + 1) c ++ pad ∧ c ∈ styles ∧ pad.all isBlank = true := by
  constructor
  · intro hs
    obtain ⟨⟨c, n, pad⟩, hr⟩ := Option.isSome_iff_exists.mp hs
    obtain ⟨hc, hpos, ht, hpad⟩ := run?_parts hr
    obtain ⟨k, rfl⟩ : ∃ k, n = k + 1 := ⟨n - 1, by omega⟩
    exact ⟨c, k, pad, ht hn, hc, hpad⟩
  · rintro ⟨c, n, pad, rfl, hc, hp⟩
    rw [run?_replicate h hc n hp]
    rfl

theorem dropWhile_reverse_append (front : Text) {pad : Text} {c : Char} (hc : isBlank c = false) (hp : pad.all isBlank = true) :
    (front ++ c :: pad).reverse.dropWhile isBlank = c :: front.reverse := by
  have hpad : ∀ d ∈ pad.reverse, isBlank d = true := fun d hd =>
    List.all_eq_true.mp hp d (List.mem_reverse.mp hd)
  rw [List.reverse_append, List.reverse_cons, List.append_assoc, List.dropWhile_append_of_pos hpad,
    List.singleton_append, List.dropWhile_cons_of_neg (by simp [hc])]

theorem titleText?_isSome {g : Grammar} {d c : Char} {front pad : Text} (hd : d ∉ g.comment)
    (hds : isSpace d = false) (hf : '\n' ∉ front ++ c :: pad) (hc : isSpace c = false)
    (hp : pad.all isBlank = true) : (g.titleText? (d :: (front ++ c :: pad))).isSome = true := by
  have hcb : isBlank c = false := by
    cases hb : isBlank c with
    | false => rfl
    | true => exact absurd (isSpace_of_isBlank hb) (by simp [hc])
  have ht : (d :: (front ++ c :: pad)).reverse.dropWhile isBlank = c :: (d :: front).reverse :=
    dropWhile_reverse_append (d :: front) hcb hp
  have hg : ¬(d ∈ g.comment ∨ isSpace d = true) := by simp [hd, hds]
  have hlast : (c :: (d :: front).reverse).reverse.getLastD d = c := by
    rw [List.reverse_cons, List.getLastD_concat]
  rw [titleText?, if_neg hg, Text.firstLine_eq hf]
  simp only [ht, hlast, hc, Bool.false_eq_true, if_false]
  rfl

def LoudRun (styles : List Char) (body : Text) : Prop :=
  ∃ indent signs gap c n pad, body = indent ++ List.replicate (signs + 1) '#' ++
      '!' :: (gap ++ (List.replicate (n + 1) c ++ pad)) ∧
    indent.all isBlank = true ∧ gap.all isBlank = true ∧ pad.all isBlank = true ∧ c ∈ styles ∧
    (c = '!' → gap ≠ [])

theorem dropWhile_blank {front : Text} (hf : front.all isBlank = true) {c : Char} (hc : isBlank c = false)
    (rest : Text) : (front ++ c :: rest).dropWhile isBlank = c :: rest := by
  rw [List.dropWhile_append_of_pos (List.all_eq_true.mp hf), List.dropWhile_cons_of_neg (by simp [hc])]

theorem run?_sign (h : Accepted styles) {text : Text} (ht : text.head? = some '#') :
    (ofStyles styles).run? text = none := by
  cases text with
  | nil => rfl
  | cons c text =>
    obtain rfl : c = '#' := by simpa using ht
    have hn : '#' ∉ (ofStyles styles).styles := fun hc => (h.style hc).2.2.1 rfl
    rw [run?, if_neg hn]

theorem titleText?_sign {text : Text} (ht : text.head? = some '#') :
    (ofStyles styles).titleText? text = none := by
  cases text with
  | nil => rfl
  | cons c text =>
    obtain rfl : c = '#' := by simpa using ht
    have hc : '#' ∈ (ofStyles styles).comment := by simp [ofStyles]
    rw [titleText?, if_pos (.inl hc)]

theorem exists_loud (h : Accepted styles) {body : Text} {p q : Split} (hp : p ∈ (ofStyles styles).markers body)
    (hpt : ((ofStyles styles).titleText? p.2).isSome = true) (hq : q ∈ (ofStyles styles).markers body)
    (hqr : ((ofStyles styles).run? q.2).isSome = true) (hne : p.2 ≠ q.2) :
    (body.dropWhile isBlank).head? = some '#' ∧ ∃ rest, unsigned body = '!' :: rest ∧
      ((p.2 = '!' :: rest ∧ q.2 = rest.dropWhile isBlank) ∨ (p.2 = rest.dropWhile isBlank ∧ q.2 = '!' :: rest)) := by
  by_cases hs : (body.dropWhile isBlank).head? = some '#'
  · refine ⟨hs, ?_⟩
    obtain ⟨n, others, hm, ho⟩ := markers_sign styles hs
    rw [hm, List.mem_append] at hp hq
    have hp := hp.resolve_right fun hx => by simp [titleText?_sign (ho p hx)] at hpt
    have hq := hq.resolve_right fun hx => by simp [run?_sign h (ho q hx)] at hqr
    obtain ⟨r, hr, rfl⟩ := List.mem_map.mp hp
    obtain ⟨t, ht, rfl⟩ := List.mem_map.mp hq
    by_cases hu : (unsigned body).head? = some '!'
    · cases hb : unsigned body with
      | nil => simp [hb] at hu
      | cons c rest =>
        obtain rfl : c = '!' := by simpa [hb] using hu
        have hbang : ('!' :: rest).dropWhile isBlank = '!' :: rest := by
          rw [List.dropWhile_cons_of_neg (by decide)]
        simp only [hb, louds_loud, List.mem_cons, List.not_mem_nil, or_false] at hr ht
        refine ⟨rest, rfl, ?_⟩
        rcases hr with rfl | rfl <;> rcases ht with rfl | rfl
        · exact absurd rfl hne
        · exact .inr ⟨rfl, hbang⟩
        · exact .inl ⟨hbang, rfl⟩
        · exact absurd rfl hne
    · rw [louds_quiet hu, List.mem_singleton] at hr ht
      exact absurd (by rw [hr, ht]) hne
  · obtain ⟨n, hm⟩ := markers_bare styles hs
    rw [hm, List.mem_singleton] at hp hq
    exact absurd (by rw [hp, hq]) hne

theorem exists_signs {body : Text} (h : (body.dropWhile isBlank).head? = some '#') :
    ∃ indent signs, body = indent ++ List.replicate (signs + 1) '#' ++ unsigned body ∧ indent.all isBlank = true := by
  cases ht : body.dropWhile isBlank with
  | nil => simp [ht] at h
  | cons c rest =>
    obtain rfl : c = '#' := by simpa [ht] using h
    have htake : rest.takeWhile (· = '#') = List.replicate (rest.takeWhile (· = '#')).length '#' :=
      List.eq_replicate_iff.mpr ⟨rfl, fun b hb => by simpa using List.mem_takeWhile_imp hb⟩
    refine ⟨body.takeWhile isBlank, (rest.takeWhile (· = '#')).length, ?_, ?_⟩
    · have hu : unsigned body = rest.dropWhile (· = '#') := by simp [unsigned, ht]
      rw [hu, List.replicate_succ, ← htake, List.append_assoc, List.cons_append,
        List.takeWhile_append_dropWhile, ← ht, List.takeWhile_append_dropWhile]
    · exact List.all_eq_true.mpr fun c hc => List.mem_takeWhile_imp hc

theorem loud_not_run (h : Accepted styles) {gap pad : Text} {c : Char} {n : Nat} (hgap : gap.all isBlank = true)
    (hc : c ∈ styles) (hne : c = '!' → gap ≠ [])
    (hn : '\n' ∉ '!' :: (gap ++ (List.replicate (n + 1) c ++ pad))) :
    (ofStyles styles).run? ('!' :: (gap ++ (List.replicate (n + 1) c ++ pad))) = none := by
  rw [← Option.not_isSome_iff_eq_none, run?_isSome_iff h hn]
  rintro ⟨d, k, tail, he, -, ht⟩
  have hcb := h.not_blank hc
  obtain ⟨rfl, he⟩ : '!' = d ∧ gap ++ (List.replicate (n + 1) c ++ pad) = List.replicate k d ++ tail :=
    List.cons.inj he
  have hmem : c ∈ gap ++ (List.replicate (n + 1) c ++ pad) := by simp
  have htail : c ∉ tail := by
    intro hm
    have hb := List.all_eq_true.mp ht c hm
    simp [hcb] at hb
  rw [he, List.mem_append, or_iff_left htail, List.mem_replicate] at hmem
  obtain ⟨hk, rfl⟩ := hmem
  obtain ⟨j, rfl⟩ : ∃ j, k = j + 1 := ⟨k - 1, by omega⟩
  cases gap with
  | nil => exact hne rfl rfl
  | cons b gap =>
    obtain ⟨rfl, -⟩ := List.cons.inj he
    simp [isBlank] at hgap

theorem loudRun_of_run (h : Accepted styles) {body rest : Text} (hb : '\n' ∉ body)
    (hs : (body.dropWhile isBlank).head? = some '#') (hu : unsigned body = '!' :: rest)
    (hrun : ((ofStyles styles).run? (rest.dropWhile isBlank)).isSome = true)
    (hloud : (ofStyles styles).run? ('!' :: rest) = none) : LoudRun styles body := by
  obtain ⟨indent, signs, he, hi⟩ := exists_signs hs
  have hn : '\n' ∉ '!' :: rest := fun hm => hb (by rw [he, hu]; exact List.mem_append_right _ hm)
  have hdrop : '\n' ∉ rest.dropWhile isBlank := fun hm =>
    hn (List.mem_cons_of_mem _ ((List.dropWhile_suffix _).subset hm))
  obtain ⟨c, n, pad, hr, hc, hpad⟩ := (run?_isSome_iff h hdrop).mp hrun
  have hsplit : rest.takeWhile isBlank ++ (List.replicate (n + 1) c ++ pad) = rest := by
    rw [← hr, List.takeWhile_append_dropWhile]
  have hgap : (rest.takeWhile isBlank).all isBlank = true :=
    List.all_eq_true.mpr fun c hc => List.mem_takeWhile_imp hc
  refine ⟨indent, signs, rest.takeWhile isBlank, c, n, pad, ?_, hi, hgap, hpad, hc, ?_⟩
  · rw [hsplit, ← hu]
    exact he
  · rintro rfl hg
    have hall : '!' :: rest = List.replicate (n + 1 + 1) '!' ++ pad := by
      rw [← hsplit, hg, List.nil_append, List.replicate_succ (n := n + 1), List.cons_append]
    have hsome := (run?_isSome_iff h hn).mpr ⟨'!', n + 1, pad, hall, hc, hpad⟩
    simp [hloud] at hsome

theorem not_title_of_run (h : Accepted styles) {rest : Text} (hn : '\n' ∉ '!' :: rest)
    (hloud : ((ofStyles styles).run? ('!' :: rest)).isSome = true)
    (hrun : (ofStyles styles).run? (rest.dropWhile isBlank) = none) :
    (ofStyles styles).titleText? (rest.dropWhile isBlank) = none := by
  obtain ⟨c, n, pad, he, hc, hpad⟩ := (run?_isSome_iff h hn).mp hloud
  obtain ⟨rfl, rfl⟩ : '!' = c ∧ rest = List.replicate n c ++ pad := List.cons.inj he
  cases n with
  | zero =>
    have hd : pad.dropWhile isBlank = [] := List.dropWhile_eq_nil_iff.mpr (List.all_eq_true.mp hpad)
    simp [hd, titleText?]
  | succ n =>
    have hd : (List.replicate (n + 1) '!' ++ pad).dropWhile isBlank = List.replicate (n + 1) '!' ++ pad := by
      rw [List.replicate_succ, List.cons_append, List.dropWhile_cons_of_neg (by decide)]
    rw [hd] at hrun
    have hsome := (run?_isSome_iff h (fun hm => hn (List.mem_cons_of_mem _ hm))).mpr ⟨'!', n, pad, rfl, hc, hpad⟩
    simp [hrun] at hsome

theorem markers_loud (styles : List Char) {body rest : Text} (hs : (body.dropWhile isBlank).head? = some '#')
    (hu : unsigned body = '!' :: rest) :
    ∃ p ∈ (ofStyles styles).markers body, ∃ q ∈ (ofStyles styles).markers body,
      p.2 = '!' :: rest ∧ q.2 = rest.dropWhile isBlank := by
  obtain ⟨n, others, hm, -⟩ := markers_sign styles hs
  have hbang : ¬isBlank '!' = true := by decide
  rw [hm, hu, louds_loud]
  exact ⟨withBlanks (n + 0, '!' :: rest), by simp, withBlanks (n + 1, rest), by simp,
    List.dropWhile_cons_of_neg hbang, rfl⟩

theorem loudRun_iff (h : Accepted styles) {body : Text} (hb : '\n' ∉ body) :
    ((ofStyles styles).titleLine? body).isSome = true ∧ ((ofStyles styles).underline? body).isSome = true ↔
      LoudRun styles body := by
  rw [titleLine?_isSome_iff, underline?_isSome_iff]
  constructor
  · rintro ⟨⟨p, hp, hpr, hpt⟩, q, hq, hqr⟩
    have hne : p.2 ≠ q.2 := fun he => by simp [← he, hpr] at hqr
    obtain ⟨hs, rest, hu, ⟨hp', hq'⟩ | ⟨hp', hq'⟩⟩ := exists_loud h hp hpt hq hqr hne
    · rw [hp'] at hpr
      rw [hq'] at hqr
      exact loudRun_of_run h hb hs hu hqr hpr
    · have hn := (isOf_of_mem_markers hq).newline_not_mem hb
      rw [hp'] at hpr hpt
      rw [hq'] at hqr hn
      simp [not_title_of_run h hn hqr hpr] at hpt
  · rintro ⟨indent, signs, gap, c, n, pad, rfl, hi, hgap, hpad, hc, hne⟩
    have hcb := h.not_blank hc
    have hdrop : (indent ++ List.replicate (signs + 1) '#' ++
        '!' :: (gap ++ (List.replicate (n + 1) c ++ pad))).dropWhile isBlank =
        '#' :: (List.replicate signs '#' ++ '!' :: (gap ++ (List.replicate (n + 1) c ++ pad))) := by
      rw [List.replicate_succ, List.append_assoc, List.cons_append]
      exact dropWhile_blank hi (by decide) _
    have hu : unsigned (indent ++ List.replicate (signs + 1) '#' ++
        '!' :: (gap ++ (List.replicate (n + 1) c ++ pad))) =
        '!' :: (gap ++ (List.replicate (n + 1) c ++ pad)) := by
      rw [unsigned, hdrop, ← List.cons_append, ← List.replicate_succ, List.dropWhile_append_of_pos (by simp),
        List.dropWhile_cons_of_neg (by decide)]
    obtain ⟨p, hp, q, hq, hp', hq'⟩ := markers_loud styles (by rw [hdrop]; rfl) hu
    have hn : '\n' ∉ '!' :: (gap ++ (List.replicate (n + 1) c ++ pad)) := fun hm =>
      hb (List.mem_append_right _ hm)
    have hquiet : (gap ++ (List.replicate (n + 1) c ++ pad)).dropWhile isBlank = List.replicate (n + 1) c ++ pad := by
      rw [List.replicate_succ, List.cons_append]
      exact dropWhile_blank hgap hcb _
    refine ⟨⟨p, hp, by rw [hp']; exact loud_not_run h hgap hc hne hn, ?_⟩, q, hq, ?_⟩
    · have hfront : gap ++ (List.replicate (n + 1) c ++ pad) = (gap ++ List.replicate n c) ++ c :: pad := by
        rw [List.replicate_succ', List.append_assoc, List.append_assoc, List.singleton_append]
      rw [hp', hfront]
      rw [hfront] at hn
      exact titleText?_isSome (by simp [ofStyles]) (by decide) (fun hm => hn (List.mem_cons_of_mem _ hm))
        (h.style hc).1 hpad
    · rw [hq', hquiet]
      have hnr : '\n' ∉ List.replicate (n + 1) c ++ pad := fun hm =>
        hn (List.mem_cons_of_mem _ (List.mem_append_right _ hm))
      exact (run?_isSome_iff h hnr).mpr ⟨c, n, pad, rfl, hc, hpad⟩

end Grammar

end Literate
