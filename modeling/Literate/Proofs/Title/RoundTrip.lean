import Literate.Proofs.Text.Splice
import Literate.Proofs.Title.Ownership
import Literate.Proofs.Title.Written
import Literate.Title.Edit

namespace Literate

structure TitleBlock.Tells (b : TitleBlock) (g : Grammar) (marker title : Text) (i : Nat) : Prop where
  headingMarker : b.heading.marker = marker
  headingTitle : b.heading.title = title
  underlineMarker : b.underline.marker = marker
  char : g.styles[i]? = some b.underline.char
  level : g.level b.underline.char = some (i + 1)
  length : b.underline.length = title.width

namespace Grammar

variable {g : Grammar} {styles : List Char} {marker title : Text} {i : Nat}

theorem titleBlock?_two_lines (hg : g.WithinLine) {upper lower : Text} (hu : '\n' ∉ upper) (hl : '\n' ∉ lower) :
    g.titleBlock? (upper ++ '\n' :: lower) 0 = g.pair? 0 upper lower false := by
  have hlines : Text.lines (upper ++ '\n' :: lower) = [] ++ ⟨0, upper⟩ :: [⟨0 + upper.length + 1, lower⟩] := by
    rw [Text.lines_eq_linesFrom, Text.linesFrom_line hu, Text.linesFrom_last hl]
    rfl
  have hclamp : Text.clamp (upper ++ '\n' :: lower) 0 = 0 := Nat.zero_min _
  rw [titleBlock?_eq hg hlines (Nat.zero_le _) (hclamp ▸ Nat.zero_le _)]
  rfl

theorem titleLine?_of_alone {text : Text} {p : Line × TitleLine} (hp : g.titleLineAt text 0 = some p)
    (ht : p.2.marker ++ p.2.title = text) : '\n' ∉ text ∧ g.titleLine? text = some ⟨p.2.marker, p.2.title, []⟩ := by
  obtain ⟨above, l, below, hlines, hs, -, hf⟩ := Text.exists_focus text 0
  obtain ⟨⟨mark, heading, pad⟩, htitle, rfl⟩ := Option.map_eq_some_iff.mp hp
  have hline : text.lineAt 0 = l := by rw [Text.lineAt, hf]
  rw [hline] at htitle
  have hb : '\n' ∉ l.body := Text.newline_not_mem_body (n := 0) hlines (by simp)
  have hbody : mark ++ heading ++ pad = l.body := (titleLine?_parts hb htitle).1
  have hclamp : text.clamp 0 = 0 := Nat.zero_min _
  have hstart : l.start = 0 := by omega
  have hwhole := Text.take_body_drop hlines
  rw [hstart, List.take_zero, List.nil_append, ← hbody, List.append_assoc] at hwhole
  dsimp only at ht hwhole ⊢
  have hrest : pad ++ text.drop l.stop = [] := List.append_right_eq_self.mp (hwhole.symm.trans ht.symm)
  obtain ⟨rfl, -⟩ := List.append_eq_nil_iff.mp hrest
  rw [List.append_nil, ht] at hbody
  rw [hbody]
  exact ⟨hb, htitle⟩

theorem formatTitle_eq (hi : i < g.styles.length) :
    g.formatTitle title i marker = .ok (writeTitle marker title g.styles[i]) := by
  have hstyle : g.styleAt? i = some g.styles[i] := by
    rw [styleAt?, if_pos (Int.natCast_nonneg i), Int.toNat_natCast, List.getElem?_eq_getElem hi]
  rw [formatTitle, hstyle]

theorem not_tells_of_width_zero {lower : Text} (hb : '\n' ∉ lower) (hw : title.width = 0) {n : Nat} {upper : Text}
    {closed : Bool} {b : TitleBlock} (h : g.pair? n upper lower closed = some b) : ¬b.Tells g marker title i := by
  obtain ⟨t, u, -, hu, rfl⟩ := pair?_eq_some h
  intro htells
  have hpos := (underline?_parts hb hu).2.1
  have hlen : u.1.length = title.width := htells.length
  omega

theorem underline?_of_tells (hi : i < styles.length) {upper lower : Text}
    (hl : lower = marker ++ List.replicate title.width styles[i]) (hb : '\n' ∉ lower) {n : Nat} {closed : Bool} {b : TitleBlock}
    (hblock : (ofStyles styles).pair? n upper lower closed = some b) (htells : b.Tells (ofStyles styles) marker title i) :
    (ofStyles styles).underline? lower = some (⟨marker, styles[i], title.width, []⟩, none) := by
  obtain ⟨t, ⟨⟨mark, char, length, pad⟩, rest⟩, -, hu, rfl⟩ := pair?_eq_some hblock
  obtain rfl : mark = marker := htells.underlineMarker
  obtain rfl : length = title.width := htells.length
  have hchar : styles[i]? = some char := htells.char
  rw [List.getElem?_eq_getElem hi] at hchar
  obtain rfl : styles[i] = char := Option.some.inj hchar
  obtain rfl : rest = none := underline?_last hb hu
  have hbody : mark ++ List.replicate title.width styles[i] ++ pad = lower := (underline?_parts hb hu).1
  obtain rfl : pad = [] := List.append_right_eq_self.mp (hbody.trans hl)
  exact hu

theorem tells_of_underline? (h : Accepted styles) (hi : i < styles.length) {upper lower : Text}
    (ht : (ofStyles styles).titleLine? upper = some ⟨marker, title, []⟩)
    (hu : (ofStyles styles).underline? lower = some (⟨marker, styles[i], title.width, []⟩, none)) (n : Nat) (closed : Bool) :
    ∃ b, (ofStyles styles).pair? n upper lower closed = some b ∧ b.Tells (ofStyles styles) marker title i := by
  refine ⟨⟨n, ⟨marker, title, []⟩, ⟨marker, styles[i], title.width, []⟩, closed⟩, by rw [pair?, ht, hu]; rfl, ?_⟩
  constructor
  · rfl
  · rfl
  · rfl
  · exact List.getElem?_eq_getElem hi
  · exact h.level hi
  · rfl

theorem writeTitle_tells_iff (h : Accepted styles) (hn : '\n' ∉ marker ++ title)
    (ht : (ofStyles styles).titleLine? (marker ++ title) = some ⟨marker, title, []⟩) (hi : i < styles.length) :
    (∃ b, (ofStyles styles).titleBlock? (writeTitle marker title styles[i]) 0 = some b ∧
        b.Tells (ofStyles styles) marker title i) ↔
      0 < title.width ∧ ¬(styles[i] = '!' ∧ marker.getLast? = some '#' ∧ 1 < title.width) := by
  have hc : styles[i] ∈ styles := List.getElem_mem hi
  have hmark : IsMark marker := titleLine?_marked ht
  have hlower : '\n' ∉ marker ++ List.replicate title.width styles[i] := by
    simp only [List.mem_append, not_or] at hn ⊢
    exact ⟨hn.1, fun hx => h.withinLine.styles (List.eq_of_mem_replicate hx ▸ hc)⟩
  rw [writeTitle, titleBlock?_two_lines h.withinLine hn hlower]
  obtain hw | ⟨n, hw⟩ : title.width = 0 ∨ ∃ n, title.width = n + 1 := by
    cases title.width with
    | zero => exact .inl rfl
    | succ n => exact .inr ⟨n, rfl⟩
  · apply iff_of_false
    · rintro ⟨b, hb, htells⟩
      exact not_tells_of_width_zero hlower hw hb htells
    · rintro ⟨hpos, -⟩
      omega
  · have hwritten : '\n' ∉ marker ++ (List.replicate (n + 1) styles[i] ++ []) := by rwa [List.append_nil, ← hw]
    have hread := underline?_written_iff h hmark hc rfl hwritten
    rw [List.append_nil, ← hw] at hread
    have hlong : 0 < n ↔ 1 < title.width := by omega
    rw [and_iff_right (show 0 < title.width by omega), ← hlong, ← hread]
    constructor
    · rintro ⟨b, hb, htells⟩
      exact underline?_of_tells hi rfl hlower hb htells
    · intro hu
      exact tells_of_underline? h hi ht hu 0 false

/-- A written title is read as it was written, unless it takes no column or its underline joins the comment. -/
theorem formatTitle_tells_iff {names : List Text} (hg : make names = .ok g) {p : Line × TitleLine}
    (hp : g.titleLineAt (marker ++ title) 0 = some p) (hmarker : p.2.marker = marker) (htitle : p.2.title = title)
    (hi : i < g.styles.length) : ∃ text, g.formatTitle title i marker = .ok text ∧
      ((∃ b, g.titleBlock? text 0 = some b ∧ b.Tells g marker title i) ↔
        0 < title.width ∧ ¬(g.styles[i] = '!' ∧ marker.getLast? = some '#' ∧ 1 < title.width)) := by
  have h : Accepted g.styles := accepted_of_make hg
  obtain ⟨-, hstyles, -⟩ := make_eq_ok hg
  obtain ⟨hn, ht⟩ := titleLine?_of_alone hp (by rw [hmarker, htitle])
  rw [hmarker, htitle] at ht
  refine ⟨_, formatTitle_eq hi, ?_⟩
  have hiff := writeTitle_tells_iff h hn (hstyles ▸ ht) hi
  rwa [← hstyles] at hiff

theorem formatTitle_not_tells_bang : make [['!']] = .ok (ofStyles ['!']) ∧
    (ofStyles ['!']).titleLineAt "#Title".toList 0 = some (⟨0, "#Title".toList⟩, ⟨['#'], "Title".toList, []⟩) ∧
    ∃ text, (ofStyles ['!']).formatTitle "Title".toList 0 ['#'] = .ok text ∧
      ¬∃ b, (ofStyles ['!']).titleBlock? text 0 = some b ∧ b.Tells (ofStyles ['!']) ['#'] "Title".toList 0 := by
  have hg : make [['!']] = .ok (ofStyles ['!']) := by decide
  have hp : (ofStyles ['!']).titleLineAt "#Title".toList 0 =
      some (⟨0, "#Title".toList⟩, ⟨['#'], "Title".toList, []⟩) := by decide
  refine ⟨hg, hp, ?_⟩
  have hparts : (ofStyles ['!']).titleLineAt (['#'] ++ "Title".toList) 0 =
      some (⟨0, "#Title".toList⟩, ⟨['#'], "Title".toList, []⟩) := hp
  obtain ⟨text, htext, hiff⟩ := formatTitle_tells_iff hg hparts rfl rfl (show 0 < (ofStyles ['!']).styles.length by decide)
  exact ⟨text, htext, fun hb => (hiff.mp hb).2 ⟨rfl, rfl, by decide⟩⟩

end Grammar

end Literate
