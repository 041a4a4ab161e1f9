import Literate.Proofs.Title.Ownership
import Literate.Proofs.Title.Written

namespace Literate.Grammar

variable {g : Grammar} {styles : List Char} {text : Text} {pos : Int} {b : TitleBlock} {c : Char}

theorem resizeUnderline_eq_none_iff :
    g.resizeUnderline text pos = none ↔ ∀ b, g.titleBlockAt text pos = some b → b.synchronized = true := by
  cases hb : g.titleBlockAt text pos with
  | none => simp [resizeUnderline, hb]
  | some b => simp [resizeUnderline_of_block hb]

theorem resizeUnderline_of_drifted (hb : g.titleBlockAt text pos = some b) (hs : b.synchronized = false) :
    g.resizeUnderline text pos = some (b.setUnderline b.underline.char) := by
  rw [resizeUnderline_of_block hb, hs, if_neg Bool.false_ne_true]

theorem titleBlock?_setUnderline (h : Accepted styles) (hloud : '!' ∉ styles)
    (hb : (ofStyles styles).titleBlockAt text pos = some b) (hc : c ∈ styles) (hw : 0 < b.titleWidth) {p : Int}
    (hfrom : b.start ≤ p) (hto : p ≤ b.headingStop) :
    (ofStyles styles).titleBlock? ((b.setUnderline c).apply text) p = some (b.fitted c) := by
  obtain ⟨above, k, m, below, hlines, hblock, -⟩ := exists_of_owner h.withinLine (owner_of_titleBlockAt hb)
  obtain ⟨m', below', hlines', hfitted⟩ := blockOn_setUnderline h hloud hlines hblock hc hw
  have hspan := blockOn_spans hlines hblock
  have hstart := hspan.start
  have hstop := hspan.headingStop
  obtain ⟨n, rfl⟩ := Int.eq_ofNat_of_zero_le (Int.le_trans (Int.natCast_nonneg _) hfrom)
  have hclamp := Text.clamp_of_le_stop hlines' (show n ≤ k.stop by omega)
  rw [titleBlock?_eq h.withinLine hlines' (by omega) (by omega), hfitted]

theorem titleBlockAt_setUnderline (h : Accepted styles) (hloud : '!' ∉ styles)
    (hb : (ofStyles styles).titleBlockAt text pos = some b) (hc : c ∈ styles) (hw : 0 < b.titleWidth) {p : Int}
    (hfrom : b.start ≤ p) (hto : p ≤ b.headingStop) :
    (ofStyles styles).titleBlockAt ((b.setUnderline c).apply text) p = some (b.fitted c) := by
  rw [titleBlockAt, titleBlock?_setUnderline h hloud hb hc hw hfrom hto, Option.some_or]

theorem resizeUnderline_restores (h : Accepted styles) (hloud : '!' ∉ styles) (text : Text) (pos : Int) :
    let g := ofStyles styles
    (g.resizeUnderline text pos = none ↔ ∀ b, g.titleBlockAt text pos = some b → b.synchronized = true) ∧
      ∀ b, g.titleBlockAt text pos = some b → b.synchronized = false → 0 < b.titleWidth →
        ∃ e, g.resizeUnderline text pos = some e ∧
          text = text.take b.runStart ++ (b.underline.run ++ text.drop b.runStop) ∧
          e.apply text =
            text.take b.runStart ++ (List.replicate b.titleWidth b.underline.char ++ text.drop b.runStop) ∧
          g.titleBlock? (e.apply text) b.start = some (b.fitted b.underline.char) ∧
          ∀ p : Int, b.start ≤ p → p ≤ b.headingStop → g.resizeUnderline (e.apply text) p = none := by
  intro g
  refine ⟨resizeUnderline_eq_none_iff, fun b hb hs hw => ⟨_, resizeUnderline_of_drifted hb hs, ?_⟩⟩
  obtain ⟨above, k, m, below, hlines, hblock, -⟩ := exists_of_owner h.withinLine (owner_of_titleBlockAt hb)
  have hm : '\n' ∉ m.body := Text.newline_not_mem_body (n := 0) hlines (by simp)
  have hc : b.underline.char ∈ styles := mem_styles_of_titleBlockAt hb
  have hstart : b.start ≤ b.headingStop := by
    simp only [TitleBlock.headingStop, TitleBlock.titleStop, TitleBlock.titleStart]
    omega
  obtain ⟨htake, hdrop, hsplit⟩ := split_run hlines hblock
  refine ⟨hsplit, ?_, ?_, ?_⟩
  · rw [apply_setUnderline hlines hblock, htake, hdrop]
    simp only [List.append_assoc]
  · exact titleBlock?_setUnderline h hloud hb hc hw (Int.le_refl _) (Int.ofNat_le.mpr hstart)
  · intro p hfrom hto
    apply resizeUnderline_eq_none_iff.mpr
    intro d hd
    rw [titleBlockAt_setUnderline h hloud hb hc hw hfrom hto] at hd
    exact Option.some.inj hd ▸ b.fitted_synchronized b.underline.char

theorem resizeUnderline_restores_grown : Accepted ['=', '-', '~'] ∧ '!' ∉ ['=', '-', '~'] ∧
    (ofStyles ['=', '-', '~']).resizeUnderline "# Hi!!!\n# ==\nrest".toList 3 ≠ none ∧
    ∃ e, (ofStyles ['=', '-', '~']).resizeUnderline "# Hi!!!\n# ==\nrest".toList 3 = some e ∧
      e.apply "# Hi!!!\n# ==\nrest".toList = "# Hi!!!\n# =====\nrest".toList ∧
      (ofStyles ['=', '-', '~']).resizeUnderline "# Hi!!!\n# =====\nrest".toList 7 = none := by
  have h : Accepted ['=', '-', '~'] := by decide
  have hloud : '!' ∉ ['=', '-', '~'] := by decide
  obtain ⟨hnone, hsome⟩ := resizeUnderline_restores h hloud "# Hi!!!\n# ==\nrest".toList 3
  obtain ⟨e, he, -, happly, -, hrest⟩ := hsome ⟨0, ⟨"# ".toList, "Hi!!!".toList, []⟩, ⟨"# ".toList, '=', 2, []⟩, true⟩
    (by decide +kernel) (by decide) (by decide)
  have htext : e.apply "# Hi!!!\n# ==\nrest".toList = "# Hi!!!\n# =====\nrest".toList := happly
  refine ⟨h, hloud, by rw [he]; exact Option.some_ne_none e, e, he, htext, ?_⟩
  rw [← htext]
  exact hrest 7 (by decide) (by decide)

end Literate.Grammar
