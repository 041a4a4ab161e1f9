import Literate.Proofs.Text.Splice
import Literate.Proofs.Title.FullCycle

namespace Literate

open Unicode

structure IsTitle (title : Text) : Prop where
  newline : '\n' ∉ title
  head : ∃ c ∈ title.head?, c ≠ '#' ∧ isSpace c = false
  last : ∃ c ∈ title.getLast?, isSpace c = false

def TitleBlock.body (b : TitleBlock) : Text :=
  b.heading.body ++ '\n' :: (b.underline.body ++ if b.closed then ['\n'] else [])

theorem TitleBlock.start_add_length (b : TitleBlock) : b.start + b.body.length = b.stop := by
  have hclosed : (if b.closed then ['\n'] else []).length = if b.closed then 1 else 0 := by split <;> rfl
  simp only [body, TitleLine.body, Underline.body, Underline.run, List.length_append, List.length_cons,
    List.length_replicate, hclosed, stop, underlineStop, runStop, runStart, underlineStart, headingStop, titleStop,
    titleStart]
  omega

/-- The newline at the end of a block may be missing, but only where the searched text ends. -/
structure TitleBlock.Accounts (b : TitleBlock) (g : Grammar) (text : Text) (last : Nat) : Prop where
  stop_le : b.stop ≤ last
  whole : text.slice b.start b.stop =
    b.heading.marker ++ b.heading.title ++ b.heading.pad ++ ['\n'] ++
      b.underline.marker ++ List.replicate b.underline.length b.underline.char ++ b.underline.pad ++
        if b.closed then ['\n'] else []
  cut : b.closed = false → b.stop = last
  marker : text.slice b.start b.titleStart = b.heading.marker
  title : text.slice b.titleStart b.titleStop = b.heading.title
  underlineMarker : text.slice b.underlineStart b.runStart = b.underline.marker
  run : text.slice b.runStart b.runStop = List.replicate b.underline.length b.underline.char
  marks : Grammar.IsMark b.heading.marker ∧ Grammar.IsMark b.underline.marker
  pads : b.heading.pad.all isBlank = true ∧ b.underline.pad.all isBlank = true
  isTitle : IsTitle b.heading.title
  length : 0 < b.underline.length
  level : ∃ i, g.styles[i]? = some b.underline.char ∧ g.styleIndex b.underline.char = some i ∧
    g.level b.underline.char = some (i + 1)

namespace Grammar

variable {styles : List Char} {text : Text} {above : List Line} {l m : Line} {below : List Line} {b : TitleBlock}

theorem titleText?_isTitle {title pad : Text} (hn : '\n' ∉ text)
    (h : (ofStyles styles).titleText? text = some (title, pad)) : IsTitle title ∧ pad.all isBlank = true := by
  obtain ⟨hparts, hne⟩ := titleText?_parts h
  rw [Text.firstLine_eq hn] at hparts
  cases text with
  | nil => simp [titleText?] at h
  | cons c rest =>
    rw [titleText?] at h
    split at h
    · simp at h
    · rename_i hc
      obtain ⟨hsign, hspace⟩ := not_or.mp hc
      dsimp only at h
      split at h
      · simp at h
      · rename_i hlast
        simp only [Option.some.injEq, Prod.mk.injEq] at h
        obtain ⟨htitle, rfl⟩ := h
        rw [htitle] at hlast
        obtain ⟨d, title, rfl⟩ := List.exists_cons_of_ne_nil hne
        obtain ⟨rfl, -⟩ := List.cons.inj hparts
        have hsome := List.getLast?_eq_some_getLast hne
        rw [List.getLastD_eq_getLast?, hsome, Option.getD_some] at hlast
        refine ⟨⟨fun hm => hn (hparts ▸ List.mem_append_left _ hm), ⟨d, rfl, ?_, by simpa using hspace⟩,
          ⟨_, hsome, by simpa using hlast⟩⟩, by rw [List.all_reverse, List.all_takeWhile]⟩
        rintro rfl
        exact hsign (by simp [ofStyles])

theorem titleLine?_isTitle {body : Text} (hb : '\n' ∉ body) {t : TitleLine}
    (ht : (ofStyles styles).titleLine? body = some t) : IsTitle t.title ∧ t.pad.all isBlank = true := by
  obtain ⟨q, hq, -, htext⟩ := exists_of_titleLine? ht
  exact titleText?_isTitle ((isOf_of_mem_markers hq).newline_not_mem hb) htext

theorem split_block {g : Grammar} (h : text.lines = above ++ l :: m :: below)
    (hb : g.blockOn false l (m :: below) = some b) : ∃ front back, text = front ++ (b.body ++ back) ∧
      front.length = b.start ∧ (b.closed = false → back = []) := by
  have hspans := blockOn_spans h hb
  obtain ⟨back, htext, hback⟩ := Text.split_two_lines h
  have hlen := Text.stop_le_length h
  have hline := l.start_le_stop
  have hfront : (text.take l.start).length = b.start := by
    rw [List.length_take, hspans.start]
    omega
  obtain ⟨t, u, ht, hu, he⟩ := pair?_eq_some hb
  have hupper : b.heading.body = l.body := by
    rw [he]
    exact (titleLine?_parts (Text.newline_not_mem_body (n := 0) h (by simp)) ht).1
  have hlower : b.underline.body = m.body := by
    rw [he]
    exact (underline?_parts (Text.newline_not_mem_body (n := 0) h (by simp)) hu).1
  rw [TitleBlock.body, hupper, hlower, hspans.closed]
  rcases hback with ⟨rfl, rfl⟩ | ⟨rest, rfl, rfl⟩
  · exact ⟨_, [], by simpa using htext, hfront, fun _ => rfl⟩
  · have hmore := Text.linesFrom_ne_nil (m.stop + 1) rest
    exact ⟨_, rest, by simpa [hmore] using htext, hfront, by simp [hmore]⟩

section Accounts

variable (h : Accepted styles)

include h

theorem blockOn_parts {more : Bool} (hl : '\n' ∉ l.body) (hm : '\n' ∉ m.body)
    (hb : (ofStyles styles).blockOn more l (m :: below) = some b) :
    (IsMark b.heading.marker ∧ IsMark b.underline.marker) ∧
      (b.heading.pad.all isBlank = true ∧ b.underline.pad.all isBlank = true) ∧
      IsTitle b.heading.title ∧ 0 < b.underline.length ∧ b.underline.char ∈ styles := by
  obtain ⟨t, u, ht, hu, rfl⟩ := pair?_eq_some hb
  obtain ⟨-, hpos, hchar⟩ := underline?_parts hm hu
  obtain ⟨hmark, hpad⟩ := underline?_marked h hm hu
  obtain ⟨htitle, htpad⟩ := titleLine?_isTitle hl ht
  exact ⟨⟨titleLine?_marked ht, hmark⟩, ⟨htpad, hpad⟩, htitle, hpos, hchar⟩

theorem accounts_of_lines {last : Nat} (hlast : last ≤ text.length)
    (hlines : Text.lines (text.take last) = above ++ l :: m :: below)
    (hb : (ofStyles styles).blockOn false l (m :: below) = some b) : b.Accounts (ofStyles styles) text last := by
  obtain ⟨front, back, hsplit, hfront, hback⟩ := split_block hlines hb
  have htext : text = front ++ (b.body ++ (back ++ text.drop last)) := by
    rw [← List.append_assoc b.body, ← List.append_assoc front, ← hsplit, List.take_append_drop]
  have hstop : b.stop + back.length = last := by
    have hlen := congrArg List.length hsplit
    rw [List.length_take, Nat.min_eq_left hlast, List.length_append, List.length_append] at hlen
    have hbody := b.start_add_length
    omega
  -- every span of the block is a slice of the same append
  have hwhole := Text.slice_eq front _ htext hfront b.start_add_length
  rw [TitleBlock.body, TitleLine.body, Underline.body, Underline.run] at htext hwhole
  simp only [List.append_assoc, List.cons_append] at htext
  have hunder : (front ++ b.heading.body ++ ['\n']).length = b.underlineStart := by
    rw [List.length_append, List.length_append, hfront, TitleLine.body, List.length_append, List.length_append,
      ← Nat.add_assoc, ← Nat.add_assoc]
    rfl
  obtain ⟨hmarks, hpads, htitle, hpos, hchar⟩ := blockOn_parts h
    (Text.newline_not_mem_body (n := 0) hlines (by simp)) (Text.newline_not_mem_body (n := 0) hlines (by simp)) hb
  obtain ⟨i, hi, hstyle⟩ := List.getElem_of_mem hchar
  have hlevel := h.level hi
  have hindex := h.styleIndex hi
  rw [hstyle] at hlevel hindex
  exact {
    stop_le := by omega
    whole := by simpa using hwhole
    cut := fun hc => by simpa [hback hc] using hstop
    marker := Text.slice_eq front _ htext hfront rfl
    title := Text.slice_eq (front ++ b.heading.marker) _ (by simpa using htext)
      (by rw [List.length_append, hfront]; rfl) rfl
    underlineMarker := Text.slice_eq (front ++ b.heading.body ++ ['\n']) _
      (by simpa [TitleLine.body] using htext) hunder rfl
    run := Text.slice_eq (front ++ b.heading.body ++ ['\n'] ++ b.underline.marker) _
      (by simpa [TitleLine.body] using htext) (by rw [List.length_append, hunder]; rfl)
      (by rw [List.length_replicate]; rfl)
    marks := hmarks
    pads := hpads
    isTitle := htitle
    length := hpos
    level := ⟨i, by rw [← hstyle]; exact List.getElem?_eq_getElem hi, hindex, hlevel⟩ }

theorem accounts_of_owner {pos : Int} (hb : (ofStyles styles).Owner text pos b) :
    b.Accounts (ofStyles styles) text text.length := by
  obtain ⟨above, l, m, below, hlines, hblock, -⟩ := exists_of_owner h.withinLine hb
  rw [← List.take_length (l := text)] at hlines
  exact accounts_of_lines h (Nat.le_refl _) hlines hblock

end Accounts

theorem titleBlocks_account {names : List Text} {g : Grammar} (hg : make names = .ok g) (text : Text) :
    (∀ (start : Int) (stop : Option Int),
      ∀ b ∈ g.titleBlocks text (text.clamp start) ((stop.map text.clamp).getD text.length),
        text.clamp start ≤ b.start ∧ b.Accounts g text ((stop.map text.clamp).getD text.length)) ∧
    (∀ pos b, g.titleBlock? text pos = some b → b.Accounts g text text.length) ∧
    ∀ pos b, g.titleBlockAt text pos = some b → b.Accounts g text text.length ∧
      ∃ i, g.styles[i]? = some b.underline.char ∧ g.styleIndex b.underline.char = some i ∧
        g.cycleTitle text pos = (if b.synchronized then
            match g.styles[i + 1]? with
            | some next => b.setUnderline next
            | none => b.dropUnderline text
          else b.setUnderline b.underline.char) ∧
        g.resizeUnderline text pos = if b.synchronized then none else some (b.setUnderline b.underline.char) := by
  have h := accepted_of_make hg
  rw [(make_eq_ok hg).2.1]
  refine ⟨fun start stop b hb => ?_, fun pos b hb => accounts_of_owner h (.inl hb), fun pos b hb => ?_⟩
  · obtain ⟨above, l, m, below, hlines, hblock, hfirst⟩ := exists_of_mem_titleBlocks h.withinLine hb
    refine ⟨hfirst, accounts_of_lines h ?_ hlines hblock⟩
    cases stop with
    | none => exact Nat.le_refl _
    | some stop => exact Text.clamp_le text stop
  · have haccounts := accounts_of_owner h (owner_of_titleBlockAt hb)
    obtain ⟨i, hi, hindex, -⟩ := haccounts.level
    exact ⟨haccounts, i, hi, hindex, cycleTitle_of_block hb hindex, resizeUnderline_of_block hb⟩

theorem titleBlocks_account_drifted : make [['='], ['-'], ['~']] = .ok {} ∧
    ({} : Grammar).titleBlockAt "# Title \n# --- \nx".toList 12 =
      some ⟨0, ⟨['#', ' '], "Title".toList, [' ']⟩, ⟨['#', ' '], '-', 3, [' ']⟩, true⟩ ∧
    TitleBlock.Accounts ⟨0, ⟨['#', ' '], "Title".toList, [' ']⟩, ⟨['#', ' '], '-', 3, [' ']⟩, true⟩ {}
      "# Title \n# --- \nx".toList 17 := by
  have hg : make [['='], ['-'], ['~']] = .ok {} := rfl
  have hb : ({} : Grammar).titleBlockAt "# Title \n# --- \nx".toList 12 =
      some ⟨0, ⟨['#', ' '], "Title".toList, [' ']⟩, ⟨['#', ' '], '-', 3, [' ']⟩, true⟩ := by decide
  exact ⟨hg, hb, ((titleBlocks_account hg _).2.2 12 _ hb).1⟩

end Grammar

end Literate
