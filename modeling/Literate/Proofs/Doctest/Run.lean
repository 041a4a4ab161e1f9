import Mathlib.Data.List.Nodup
import Mathlib.Data.List.TakeWhile
import Mathlib.Data.Option.Basic
import Literate.Doctest.Snippet
import Literate.Proofs.Text.Lines

namespace Literate

namespace SnippetRun

variable {first next : DoctestLine} {rest : List DoctestLine}

theorem group_continuation (h : next.isContinuation = true) :
    group first (next :: rest) = ⟨⟨first, (group next rest).first.lines⟩, (group next rest).others⟩ := by
  rw [group, if_pos h]

theorem group_primary (h : ¬next.isContinuation = true) :
    group first (next :: rest) = ⟨⟨first, []⟩, (group next rest).snippets⟩ := by
  rw [group, if_neg h]

theorem group_first (first : DoctestLine) (rest : List DoctestLine) :
    (group first rest).first = ⟨first, rest.takeWhile DoctestLine.isContinuation⟩ := by
  induction rest generalizing first with
  | nil => rfl
  | cons next rest ih =>
    by_cases hn : next.isContinuation = true
    · rw [group_continuation hn, ih next, List.takeWhile_cons_of_pos hn]
      rfl
    · rw [group_primary hn, List.takeWhile_cons_of_neg hn]

theorem group_others (first : DoctestLine) (rest : List DoctestLine) :
    (group first rest).others = match rest.dropWhile DoctestLine.isContinuation with
      | [] => []
      | next :: below => (group next below).snippets := by
  induction rest generalizing first with
  | nil => rfl
  | cons next rest ih =>
    by_cases hn : next.isContinuation = true
    · rw [group_continuation hn, List.dropWhile_cons_of_pos hn]
      exact ih next
    · rw [group_primary hn, List.dropWhile_cons_of_neg hn]

theorem flatMap_lines_group (first : DoctestLine) (rest : List DoctestLine) :
    (group first rest).snippets.flatMap Snippet.lines = first :: rest := by
  induction rest generalizing first with
  | nil => rfl
  | cons next rest ih =>
    by_cases hn : next.isContinuation = true
    · rw [group_continuation hn, ← ih next]
      simp only [snippets, List.flatMap_cons, Snippet.lines, List.cons_append]
    · rw [group_primary hn, snippets, List.flatMap_cons, ih next]
      rfl

theorem isContinuation_of_mem_others {s : Snippet} (hs : s ∈ (group first rest).snippets) {d : DoctestLine}
    (hd : d ∈ s.others) : d.isContinuation = true := by
  induction rest generalizing first s with
  | nil =>
    have hs : s ∈ [(⟨first, []⟩ : Snippet)] := hs
    rw [List.mem_singleton.mp hs] at hd
    exact absurd hd List.not_mem_nil
  | cons next rest ih =>
    by_cases hn : next.isContinuation = true
    · rw [group_continuation hn, snippets] at hs
      rcases List.mem_cons.mp hs with rfl | hs
      · rcases List.mem_cons.mp hd with rfl | hd
        · rwa [group_first]
        · exact ih List.mem_cons_self hd
      · exact ih (List.mem_cons_of_mem _ hs) hd
    · rw [group_primary hn, snippets] at hs
      rcases List.mem_cons.mp hs with rfl | hs
      · simp at hd
      · exact ih hs hd

theorem first_of_mem_others {s : Snippet} (hs : s ∈ (group first rest).others) : s.first.prompt = .primary := by
  induction rest generalizing first s with
  | nil => simp [group] at hs
  | cons next rest ih =>
    by_cases hn : next.isContinuation = true
    · rw [group_continuation hn] at hs
      exact ih hs
    · rw [group_primary hn, snippets] at hs
      rcases List.mem_cons.mp hs with rfl | hs
      · rw [group_first]
        cases hp : next.prompt with
        | primary => rfl
        | continuation => simp [DoctestLine.isContinuation, hp] at hn
      · exact ih hs

theorem mem_snippets_group {front back : List DoctestLine} {s : Snippet}
    (h : first :: rest = front ++ (s.lines ++ back)) (hfirst : front ≠ [] → s.first.isContinuation = false)
    (hothers : ∀ d ∈ s.others, d.isContinuation = true) (hback : ∀ d ∈ back.head?, d.isContinuation = false) :
    s ∈ (group first rest).snippets := by
  induction front generalizing first rest with
  | nil =>
    rw [List.nil_append, Snippet.lines, List.cons_append] at h
    obtain ⟨rfl, rfl⟩ := List.cons.inj h
    have hnil : back.takeWhile DoctestLine.isContinuation = [] := by
      cases back with
      | nil => rfl
      | cons d back => exact List.takeWhile_cons_of_neg (by simp [hback d rfl])
    have hs : (group s.first (s.others ++ back)).first = s := by
      rw [group_first, List.takeWhile_append_of_pos hothers, hnil, List.append_nil]
    rw [snippets, hs]
    exact List.mem_cons_self
  | cons f front ih =>
    rw [List.cons_append] at h
    obtain ⟨rfl, hrest⟩ := List.cons.inj h
    have hcont := hfirst (by simp)
    cases rest with
    | nil => simp [Snippet.lines] at hrest
    | cons next rest =>
      have hs := ih hrest fun _ => hcont
      by_cases hn : next.isContinuation = true
      · rw [snippets] at hs
        rw [group_continuation hn, snippets]
        rcases List.mem_cons.mp hs with rfl | hs
        · simp [group_first, hn] at hcont
        · exact List.mem_cons_of_mem _ hs
      · rw [group_primary hn, snippets]
        exact List.mem_cons_of_mem _ hs

theorem eq_of_mem_lines {r : SnippetRun} (h : (r.snippets.flatMap Snippet.lines).Nodup) {s t : Snippet}
    (hs : s ∈ r.snippets) (ht : t ∈ r.snippets) {d : DoctestLine} (hds : d ∈ s.lines) (hdt : d ∈ t.lines) :
    s = t := by
  have hapart : r.snippets.Pairwise fun s t => s = t ∨ List.Disjoint s.lines t.lines :=
    (List.nodup_flatMap.mp h).2.imp .inr
  have hflip : r.snippets.Pairwise (flip fun s t => s = t ∨ List.Disjoint s.lines t.lines) :=
    (List.nodup_flatMap.mp h).2.imp fun hd => .inr fun _ ht hs => hd hs ht
  rcases hapart.forall_of_forall_of_flip (fun _ _ => .inl rfl) hflip hs ht with he | hd
  · exact he
  · exact absurd hdt (hd hds)

end SnippetRun

namespace Grammar

variable {g : Grammar}

theorem doctest?_start {l : Line} {d : DoctestLine} (h : g.doctest? l = some d) : d.start = l.start := by
  obtain ⟨p, -, h⟩ := List.exists_of_findSome?_eq_some h
  obtain ⟨q, -, rfl⟩ := Option.map_eq_some_iff.mp h
  rfl

theorem exists_docs_append {ls ms : List Line} {docs : List DoctestLine}
    (h : (ls ++ ms).map g.doctest? = docs.map some) :
    ∃ front back, docs = front ++ back ∧ ls.map g.doctest? = front.map some ∧ ms.map g.doctest? = back.map some := by
  rw [List.map_append] at h
  obtain ⟨front, back, rfl, hfront, hback⟩ := List.map_eq_append_iff.mp h.symm
  exact ⟨front, back, rfl, hfront.symm, hback.symm⟩

theorem doctestRun_append {ls : List Line} {ds : List DoctestLine} (h : ls.map g.doctest? = ds.map some)
    (below : List Line) : g.doctestRun (ls ++ below) = ds ++ g.doctestRun below := by
  induction ls generalizing ds with
  | nil =>
    obtain rfl := List.map_eq_nil_iff.mp h.symm
    rfl
  | cons l ls ih =>
    obtain ⟨d, ds, rfl, hd, hds⟩ := List.map_eq_cons_iff.mp h.symm
    rw [List.cons_append, doctestRun, ← hd, ih hds.symm, List.cons_append]

theorem doctestRun_of_head {below : List Line} (h : ∀ l ∈ below.head?, g.doctest? l = none) :
    g.doctestRun below = [] := by
  cases below with
  | nil => rfl
  | cons l below => rw [doctestRun, h l rfl]

theorem doctestRun_drop {n : Nat} {ls : List Line} (h : n ≤ (g.doctestRun ls).length) :
    g.doctestRun (ls.drop n) = (g.doctestRun ls).drop n := by
  induction n generalizing ls with
  | zero => rfl
  | succ n ih =>
    cases ls with
    | nil => rfl
    | cons l ls =>
      cases hl : g.doctest? l with
      | none => simp [doctestRun, hl] at h
      | some d =>
        simp only [doctestRun, hl, List.length_cons] at h ⊢
        exact ih (Nat.le_of_succ_le_succ h)

def snippetsFrom (g : Grammar) (first : DoctestLine) (below : List Line) : List Snippet :=
  let s := g.snippetFrom first below
  match _h : below.drop s.others.length with
  | [] => [s]
  | line :: rest =>
    match g.doctest? line with
    | none => [s]
    | some d => s :: g.snippetsFrom d rest
termination_by below.length
decreasing_by
  have hlen := congrArg List.length _h
  rw [List.length_drop, List.length_cons] at hlen
  omega

theorem snippets_doctestRun (g : Grammar) (first : DoctestLine) (below : List Line) :
    (SnippetRun.group first (g.doctestRun below)).snippets = g.snippetFrom first below ::
      match g.doctestRun (below.drop (g.snippetFrom first below).others.length) with
      | [] => []
      | next :: rest => (SnippetRun.group next rest).snippets := by
  have hlen : (g.snippetFrom first below).others.length ≤ (g.doctestRun below).length :=
    (List.takeWhile_prefix _).length_le
  have hbehind : (g.doctestRun below).drop (g.snippetFrom first below).others.length =
      (g.doctestRun below).dropWhile DoctestLine.isContinuation := by
    conv_lhs =>
      arg 2
      rw [← List.takeWhile_append_dropWhile (p := DoctestLine.isContinuation) (l := g.doctestRun below)]
    exact List.drop_left
  rw [doctestRun_drop hlen, hbehind, SnippetRun.snippets, SnippetRun.group_first, SnippetRun.group_others, snippetFrom]

theorem snippets_eq_snippetsFrom (g : Grammar) (first : DoctestLine) (below : List Line) :
    (SnippetRun.group first (g.doctestRun below)).snippets = g.snippetsFrom first below := by
  rw [snippets_doctestRun]
  fun_induction snippetsFrom with
  | case1 first below s h => rw [h]; rfl
  | case2 first below s line rest h hl => rw [h, doctestRun, hl]
  | case3 first below s line rest h d hl ih =>
    rw [h, doctestRun, hl]
    dsimp only
    rw [snippets_doctestRun, ih]

theorem climb_spec (more : DoctestLine → Bool) (above : List Line) {line : Line} {d : DoctestLine}
    (below : List Line) (h : g.doctest? line = some d) :
    ∃ (up rest : List Line) (t : Line) (e : DoctestLine) (mid : List Line) (ms : List DoctestLine),
      above = up ++ rest ∧ up.reverse ++ [line] = t :: mid ∧ g.doctest? t = some e ∧
      mid.map g.doctest? = ms.map some ∧ (∀ m ∈ ms, more m = true) ∧
      (more e = true → ∀ l ∈ rest.head?, g.doctest? l = none) ∧
      g.climb more above line d below = (e, mid ++ below) := by
  induction above generalizing line d below with
  | nil => exact ⟨[], [], line, d, [], [], rfl, rfl, h, rfl, by simp, by simp, rfl⟩
  | cons next above ih =>
    rw [climb]
    by_cases hm : more d = true
    · rw [if_pos hm]
      cases hn : g.doctest? next with
      | none => exact ⟨[], next :: above, line, d, [], [], rfl, rfl, h, rfl, by simp, fun _ => by simpa using hn, rfl⟩
      | some n =>
        obtain ⟨up, rest, t, e, mid, ms, rfl, htop, ht, hmid, hms, hrest, hc⟩ := ih (line :: below) hn
        refine ⟨next :: up, rest, t, e, mid ++ [line], ms ++ [d], rfl, ?_, ht, ?_, ?_, hrest, ?_⟩
        · rw [List.reverse_cons, htop, List.cons_append]
        · rw [List.map_append, hmid, List.map_append, List.map_singleton, List.map_singleton, h]
        · intro m hmem
          rcases List.mem_append.mp hmem with hmem | hmem
          · exact hms m hmem
          · rwa [List.mem_singleton.mp hmem]
        · rw [List.append_assoc, List.singleton_append]
          exact hc
    · rw [if_neg hm]
      exact ⟨[], next :: above, line, d, [], [], rfl, rfl, h, rfl, by simp, fun he => absurd he hm, rfl⟩

structure MaximalRun (g : Grammar) (text : Text) (above run below : List Line) : Prop where
  lines : text.lines = above ++ (run ++ below)
  doctest : ∀ l ∈ run, (g.doctest? l).isSome = true
  above : ∀ l ∈ above.getLast?, g.doctest? l = none
  below : ∀ l ∈ below.head?, g.doctest? l = none

namespace MaximalRun

variable {text : Text} {pos : Int} {above run below : List Line} {docs : List DoctestLine}

theorem focus (hrun : g.MaximalRun text above run below) (h : text.lineAt pos ∈ run) :
    ∃ up down, run = up ++ text.lineAt pos :: down ∧
      text.focus pos = ⟨up.reverse ++ above.reverse, text.lineAt pos, down ++ below⟩ := by
  obtain ⟨a, l, b, hlines, -, -, hf⟩ := Text.exists_focus text pos
  have hl : text.lineAt pos = l := by rw [Text.lineAt, hf]
  obtain ⟨up, down, hsplit⟩ := List.append_of_mem h
  refine ⟨up, down, hsplit, ?_⟩
  rw [hl] at hsplit ⊢
  have hsplit' : text.lines = (above ++ up) ++ l :: (down ++ below) := by
    rw [hrun.lines, hsplit]
    simp
  obtain ⟨rfl, -, rfl⟩ := Text.lines_unique hlines hsplit' rfl
  rw [hf, List.reverse_append]

theorem of_climb (hrun : g.MaximalRun text above run below) {up passed others : List Line}
    (hclimb : up.reverse ++ above.reverse = passed ++ others)
    (hpassed : ∀ k ∈ passed, (g.doctest? k).isSome = true) :
    ∃ left, up = left.reverse ++ passed.reverse ∧ others = left ++ above.reverse := by
  rcases List.append_eq_append_iff.mp hclimb with ⟨extra, rfl, hextra⟩ | ⟨left, hleft, rfl⟩
  · cases extra with
    | nil => exact ⟨[], by simp, by simpa using hextra.symm⟩
    | cons k extra =>
      have hk : above.getLast? = some k := by rw [← List.head?_reverse, hextra]; rfl
      have hdoc := hpassed k (by simp)
      simp [hrun.above k hk] at hdoc
  · refine ⟨left, ?_, rfl⟩
    rw [← List.reverse_append, ← hleft, List.reverse_reverse]

theorem climb (hrun : g.MaximalRun text above run below) (h : text.lineAt pos ∈ run)
    (hdocs : run.map g.doctest? = docs.map some) (more : DoctestLine → Bool) :
    ∃ d e front ms back lines, g.doctest? (text.lineAt pos) = some d ∧ docs = front ++ (e :: ms ++ back) ∧
      d ∈ e :: ms ∧ (∀ m ∈ ms, more m = true) ∧ (more e = true → front = []) ∧
      g.climb more (text.focus pos).above (text.focus pos).line d (text.focus pos).below = (e, lines) ∧
      g.doctestRun lines = ms ++ back := by
  obtain ⟨up, down, hsplit, hf⟩ := hrun.focus h
  obtain ⟨d, hd⟩ := Option.isSome_iff_exists.mp (hrun.doctest _ h)
  obtain ⟨passed, others, t, e, mid, ms, hclimb, htop, ht, hmid, hms, hothers, hc⟩ :=
    climb_spec more (up.reverse ++ above.reverse) (down ++ below) hd
  have hpassed : ∀ k ∈ passed, (g.doctest? k).isSome = true := by
    intro k hk
    have hk : k ∈ t :: mid := htop ▸ List.mem_append_left _ (List.mem_reverse.mpr hk)
    rcases List.mem_cons.mp hk with rfl | hk
    · rw [ht]
      rfl
    · have hm : g.doctest? k ∈ ms.map some := hmid ▸ List.mem_map_of_mem hk
      obtain ⟨m, -, hm⟩ := List.mem_map.mp hm
      rw [← hm]
      rfl
  obtain ⟨left, rfl, rfl⟩ := hrun.of_climb hclimb hpassed
  have hlines : run = left.reverse ++ ((t :: mid) ++ down) := by
    rw [hsplit, ← htop]
    simp
  have htm : (t :: mid).map g.doctest? = (e :: ms).map some := by rw [List.map_cons, ht, hmid, List.map_cons]
  rw [hlines] at hdocs
  obtain ⟨front, tail, rfl, hfront, htail⟩ := exists_docs_append hdocs
  obtain ⟨mine, back, rfl, hmine, hback⟩ := exists_docs_append htail
  obtain rfl : e :: ms = mine := List.map_injective_iff.mpr (Option.some_injective _) (htm.symm.trans hmine)
  refine ⟨d, e, front, ms, back, mid ++ (down ++ below), hd, rfl, ?_, hms, fun he => ?_, ?_, ?_⟩
  · have hline : text.lineAt pos ∈ t :: mid := htop ▸ List.mem_append_right _ List.mem_cons_self
    have hm : g.doctest? (text.lineAt pos) ∈ (e :: ms).map some := htm ▸ List.mem_map_of_mem hline
    obtain ⟨m, hm, he⟩ := List.mem_map.mp hm
    rw [hd] at he
    exact Option.some.inj he ▸ hm
  · cases left with
    | nil => exact List.map_eq_nil_iff.mp hfront.symm
    | cons k left =>
      have hk := hrun.doctest k (hlines ▸ by simp)
      simp [hothers he k rfl] at hk
  · rw [hf]
    exact hc
  · rw [doctestRun_append hmid, doctestRun_append hback, doctestRun_of_head hrun.below, List.append_nil]

theorem readRun_eq (hrun : g.MaximalRun text above run below) (h : text.lineAt pos ∈ run) {first : DoctestLine}
    {rest : List DoctestLine} (hdocs : run.map g.doctest? = (first :: rest).map some) :
    g.readRun text pos = .ok (.group first rest) := by
  obtain ⟨d, e, front, ms, back, lines, hd, hsplit, -, -, hfront, hc, hlines⟩ := hrun.climb h hdocs fun _ => true
  obtain rfl := hfront rfl
  obtain ⟨rfl, rfl⟩ := List.cons.inj hsplit
  have hd : g.doctest? (text.focus pos).line = some d := hd
  simp only [readRun, hd, hc, hlines]
  rfl

theorem readSnippet_eq (hrun : g.MaximalRun text above run below) (h : text.lineAt pos ∈ run) {first : DoctestLine}
    {rest : List DoctestLine} (hdocs : run.map g.doctest? = (first :: rest).map some) :
    ∃ s d, g.readSnippet text pos = .ok s ∧ g.doctestAt text pos = some d ∧
      s ∈ (SnippetRun.group first rest).snippets ∧ d ∈ s.lines := by
  obtain ⟨d, e, front, ms, back, lines, hd, hsplit, hmem, hms, hfront, hc, hlines⟩ :=
    hrun.climb h hdocs DoctestLine.isContinuation
  have hothers : (g.snippetFrom e lines).others = ms ++ back.takeWhile DoctestLine.isContinuation := by
    rw [snippetFrom, hlines, List.takeWhile_append_of_pos hms]
  have hsnippet : first :: rest =
      front ++ ((g.snippetFrom e lines).lines ++ back.dropWhile DoctestLine.isContinuation) := by
    rw [hsplit, Snippet.lines, hothers, List.cons_append, List.cons_append, List.append_assoc,
      List.takeWhile_append_dropWhile]
    rfl
  refine ⟨g.snippetFrom e lines, d, ?_, hd, SnippetRun.mem_snippets_group hsnippet ?_ ?_ ?_, ?_⟩
  · have hd : g.doctest? (text.focus pos).line = some d := hd
    simp only [readSnippet, hd, hc]
  · intro hne
    cases he : e.isContinuation with
    | false => exact he
    | true => exact absurd (hfront he) hne
  · intro m hm
    rw [hothers] at hm
    rcases List.mem_append.mp hm with hm | hm
    · exact hms m hm
    · exact List.mem_takeWhile_imp hm
  · intro m hm
    have hnot := List.head?_dropWhile_not DoctestLine.isContinuation back
    rw [Option.mem_def.mp hm] at hnot
    exact hnot
  · rw [Snippet.lines, hothers]
    rcases List.mem_cons.mp hmem with rfl | hmem
    · exact List.mem_cons_self
    · exact List.mem_cons_of_mem _ (List.mem_append_left _ hmem)

theorem docs_nodup (hrun : g.MaximalRun text above run below) (hdocs : run.map g.doctest? = docs.map some) :
    docs.Nodup := by
  have hpairs : run.Pairwise fun k l => k.start < l.start := by
    have hp := Text.linesFrom_pairwise 0 text
    rw [← Text.lines_eq_linesFrom, hrun.lines] at hp
    refine (List.pairwise_append.mp (List.pairwise_append.mp hp).2.1).1.imp fun {k l} hlt => ?_
    have hle : k.start ≤ k.stop := Nat.le_add_right _ _
    omega
  have hstarts : ∀ {ls : List Line} {ds : List DoctestLine}, ls.map g.doctest? = ds.map some →
      ds.map DoctestLine.start = ls.map Line.start := by
    intro ls ds h
    induction ls generalizing ds with
    | nil =>
      obtain rfl := List.map_eq_nil_iff.mp h.symm
      rfl
    | cons l ls ih =>
      obtain ⟨d, ds, rfl, hd, hds⟩ := List.map_eq_cons_iff.mp h.symm
      rw [List.map_cons, List.map_cons, doctest?_start hd.symm, ih hds.symm]
  apply List.Nodup.of_map DoctestLine.start
  rw [hstarts hdocs, List.Nodup, List.pairwise_map]
  exact hpairs.imp Nat.ne_of_lt

theorem exists_line (hrun : g.MaximalRun text above run below) (hdocs : run.map g.doctest? = docs.map some)
    {e : DoctestLine} (he : e ∈ docs) :
    ∃ front l back, text.lines = front ++ l :: back ∧ l ∈ run ∧ g.doctest? l = some e := by
  obtain ⟨l, hl, hle⟩ := List.mem_map.mp (hdocs ▸ List.mem_map_of_mem he)
  obtain ⟨up, down, rfl⟩ := List.append_of_mem hl
  refine ⟨above ++ up, l, down ++ below, ?_, hl, hle⟩
  rw [hrun.lines]
  simp

theorem exists_docs (hrun : g.MaximalRun text above run below) (h : text.lineAt pos ∈ run) :
    ∃ first rest, run.map g.doctest? = (first :: rest).map some := by
  have hall : (run.filterMap g.doctest?).map some = run.map g.doctest? := by
    rw [List.map_filterMap_some_eq_filter_map_isSome, List.filter_eq_self]
    intro d hd
    obtain ⟨l, hl, rfl⟩ := List.mem_map.mp hd
    exact hrun.doctest l hl
  cases hdocs : run.filterMap g.doctest? with
  | nil =>
    rw [hdocs] at hall
    simp [List.map_eq_nil_iff.mp hall.symm] at h
  | cons first rest => exact ⟨first, rest, hdocs ▸ hall.symm⟩

end MaximalRun

theorem exists_maximalRun {text : Text} {pos : Int} {d : DoctestLine} (h : g.doctestAt text pos = some d) :
    ∃ above run below, g.MaximalRun text above run below ∧ text.lineAt pos ∈ run := by
  obtain ⟨a, l, b, hlines, -, -, hf⟩ := Text.exists_focus text pos
  have hl : text.lineAt pos = l := by rw [Text.lineAt, hf]
  rw [doctestAt, hl] at h
  have hhead : ∀ ls : List Line, ∀ k ∈ (ls.dropWhile fun l => (g.doctest? l).isSome).head?, g.doctest? k = none := by
    intro ls k hk
    have hnot := List.head?_dropWhile_not (fun l => (g.doctest? l).isSome) ls
    rw [Option.mem_def.mp hk] at hnot
    simpa using hnot
  refine ⟨(a.reverse.dropWhile fun l => (g.doctest? l).isSome).reverse,
    (a.reverse.takeWhile fun l => (g.doctest? l).isSome).reverse ++ l :: b.takeWhile fun l => (g.doctest? l).isSome,
    b.dropWhile fun l => (g.doctest? l).isSome, ⟨?_, ?_, ?_, hhead b⟩, by simp [hl]⟩
  · rw [List.append_assoc, ← List.append_assoc, ← List.reverse_append, List.takeWhile_append_dropWhile,
      List.reverse_reverse, List.cons_append, List.takeWhile_append_dropWhile, hlines]
  · intro k hk
    simp only [List.mem_append, List.mem_reverse, List.mem_cons] at hk
    rcases hk with hk | rfl | hk
    · exact List.mem_takeWhile_imp (p := fun l => (g.doctest? l).isSome) hk
    · rw [h]
      rfl
    · exact List.mem_takeWhile_imp (p := fun l => (g.doctest? l).isSome) hk
  · rw [List.getLast?_reverse]
    exact hhead _

theorem readRun_snippets {text : Text} {pos : Int} {r : SnippetRun} (h : g.readRun text pos = .ok r) :
    ∃ d, g.doctestAt text pos = some d ∧
      let f := text.focus pos
      let top := g.climb (fun _ => true) f.above f.line d f.below
      r.snippets = g.snippetsFrom top.1 top.2 := by
  rw [readRun] at h
  dsimp only at h
  cases hd : g.doctest? (text.focus pos).line with
  | none => simp [hd] at h
  | some d =>
    simp only [hd, Except.ok.injEq] at h
    exact ⟨d, hd, h ▸ snippets_eq_snippetsFrom g _ _⟩

theorem readRun_eq_error_iff {text : Text} {pos : Int} :
    g.readRun text pos = .error ⟨pos⟩ ↔ g.doctestAt text pos = none := by
  simp only [readRun, doctestAt, Text.lineAt]
  cases g.doctest? (text.focus pos).line <;> simp

theorem readSnippet_eq_error_iff {text : Text} {pos : Int} :
    g.readSnippet text pos = .error ⟨pos⟩ ↔ g.doctestAt text pos = none := by
  simp only [readSnippet, doctestAt, Text.lineAt]
  cases g.doctest? (text.focus pos).line <;> simp

theorem doctestRun_split (g : Grammar) (ls : List Line) : ∃ run below, ls = run ++ below ∧
    run.map g.doctest? = (g.doctestRun ls).map some ∧ ∀ l ∈ below.head?, g.doctest? l = none := by
  induction ls with
  | nil => exact ⟨[], [], rfl, rfl, by simp⟩
  | cons l ls ih =>
    cases hl : g.doctest? l with
    | none => exact ⟨[], l :: ls, rfl, by rw [doctestRun, hl]; rfl, by simpa using hl⟩
    | some d =>
      obtain ⟨run, below, hsplit, hrun, hbelow⟩ := ih
      refine ⟨l :: run, below, by rw [hsplit, List.cons_append], ?_, hbelow⟩
      rw [doctestRun, hl, List.map_cons, hl, hrun, List.map_cons]

theorem readSnippet_top {text : Text} {pos : Int} {front back : List Line} {first : DoctestLine}
    {rest : List DoctestLine} (hlines : text.lines = front ++ back)
    (hdocs : front.map g.doctest? = (first :: rest).map some) (hrest : ∀ e ∈ rest, e.isContinuation = true)
    (hpos : text.lineAt pos ∈ front) : g.readSnippet text pos =
      .ok ⟨first, rest ++ (g.doctestRun back).takeWhile DoctestLine.isContinuation⟩ := by
  obtain ⟨run, below, hback, hrun, hbelow⟩ := g.doctestRun_split back
  have hall : (front ++ run).map g.doctest? = (first :: (rest ++ g.doctestRun back)).map some := by
    rw [List.map_append, hdocs, hrun, ← List.map_append, List.cons_append]
  have hmax : g.MaximalRun text [] (front ++ run) below := by
    refine ⟨by rw [hlines, hback]; simp, fun l hl => ?_, by simp, hbelow⟩
    have hl : g.doctest? l ∈ (first :: (rest ++ g.doctestRun back)).map some := hall ▸ List.mem_map_of_mem hl
    obtain ⟨d, -, hd⟩ := List.mem_map.mp hl
    rw [← hd]
    rfl
  obtain ⟨s, d, hs, hd, hsr, hds⟩ := hmax.readSnippet_eq (List.mem_append_left _ hpos) hall
  have hfirst : (SnippetRun.group first (rest ++ g.doctestRun back)).first =
      ⟨first, rest ++ (g.doctestRun back).takeWhile DoctestLine.isContinuation⟩ := by
    rw [SnippetRun.group_first, List.takeWhile_append_of_pos hrest]
  have hmem : d ∈ first :: rest := by
    have hd' : some d ∈ (first :: rest).map some := by
      rw [← hdocs, ← hd]
      exact List.mem_map_of_mem hpos
    obtain ⟨e, he, hde⟩ := List.mem_map.mp hd'
    exact Option.some.inj hde ▸ he
  have hdf : d ∈ (SnippetRun.group first (rest ++ g.doctestRun back)).first.lines := by
    rw [hfirst, Snippet.lines, ← List.cons_append]
    exact List.mem_append_left _ hmem
  have hnodup := hmax.docs_nodup hall
  rw [← SnippetRun.flatMap_lines_group] at hnodup
  rw [hs, SnippetRun.eq_of_mem_lines hnodup hsr List.mem_cons_self hds hdf, hfirst]

/-- A run of doctest lines is read as its snippets, none of its lines lost or repeated, from wherever on it the
reading starts, and the snippet at a line is the one that holds it. Without a doctest line there is no snippet. -/
theorem readRun_partitions (g : Grammar) (text : Text) (pos : Int) :
    (g.readRun text pos = .error ⟨pos⟩ ↔ g.doctestAt text pos = none) ∧
    (g.readSnippet text pos = .error ⟨pos⟩ ↔ g.doctestAt text pos = none) ∧
    ∀ d, g.doctestAt text pos = some d →
      ∃ above run below r, g.MaximalRun text above run below ∧ text.lineAt pos ∈ run ∧
        (∀ p, text.lineAt p ∈ run → g.readRun text p = .ok r) ∧
        run.map g.doctest? = (r.snippets.flatMap Snippet.lines).map some ∧
        (∀ s ∈ r.snippets, ∀ e ∈ s.others, e.prompt = .continuation) ∧
        (∀ s ∈ r.others, s.first.prompt = .primary) ∧
        ∃ s, g.readSnippet text pos = .ok s ∧ ∀ t, t ∈ r.snippets ∧ d ∈ t.lines ↔ t = s := by
  refine ⟨readRun_eq_error_iff, readSnippet_eq_error_iff, fun d hd => ?_⟩
  obtain ⟨above, run, below, hrun, hmem⟩ := exists_maximalRun hd
  obtain ⟨first, rest, hdocs⟩ := hrun.exists_docs hmem
  obtain ⟨s, e, hs, he, hsr, hes⟩ := hrun.readSnippet_eq hmem hdocs
  obtain rfl : e = d := Option.some.inj (he.symm.trans hd)
  have hnodup := hrun.docs_nodup hdocs
  rw [← SnippetRun.flatMap_lines_group first rest] at hnodup
  refine ⟨above, run, below, .group first rest, hrun, hmem, fun p hp => hrun.readRun_eq hp hdocs, ?_, ?_,
    fun t ht => SnippetRun.first_of_mem_others ht, s, hs, fun t => ⟨?_, ?_⟩⟩
  · rw [SnippetRun.flatMap_lines_group, hdocs]
  · intro t ht m hm
    exact of_decide_eq_true (SnippetRun.isContinuation_of_mem_others ht hm)
  · rintro ⟨ht, het⟩
    exact SnippetRun.eq_of_mem_lines hnodup ht hsr het hes
  · rintro rfl
    exact ⟨hsr, hes⟩

end Grammar

end Literate
