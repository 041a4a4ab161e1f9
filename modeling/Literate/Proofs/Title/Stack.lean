import Literate.Proofs.Title.Ownership

namespace Literate.Grammar

variable {g : Grammar}

def pairs (g : Grammar) (upper lower : Line) : Bool :=
  (g.titleLine? upper.body).isSome && (g.underline? lower.body).isSome

def stackUp (g : Grammar) (l : Line) : List Line → Nat
  | [] => 0
  | k :: above => if g.pairs k l then g.stackUp k above + 1 else 0

def stackDown (g : Grammar) (l : Line) : List Line → Nat
  | [] => 0
  | m :: below => if g.pairs l m then g.stackDown m below + 1 else 0

theorem stackUp_cases (g : Grammar) (l : Line) (above : List Line) :
    g.stackUp l above = 0 ∨
      ∃ k rest, above = k :: rest ∧ g.pairs k l = true ∧ g.stackUp l above = g.stackUp k rest + 1 := by
  cases above with
  | nil => exact .inl rfl
  | cons k above =>
    by_cases hk : g.pairs k l = true
    · exact .inr ⟨k, above, rfl, hk, if_pos hk⟩
    · exact .inl (if_neg hk)

theorem stackDown_cases (g : Grammar) (l : Line) (below : List Line) :
    g.stackDown l below = 0 ∨
      ∃ m rest, below = m :: rest ∧ g.pairs l m = true ∧ g.stackDown l below = g.stackDown m rest + 1 := by
  cases below with
  | nil => exact .inl rfl
  | cons m below =>
    by_cases hm : g.pairs l m = true
    · exact .inr ⟨m, below, rfl, hm, if_pos hm⟩
    · exact .inl (if_neg hm)

theorem blockOn_isSome_eq (more : Bool) (l m : Line) (below : List Line) :
    (g.blockOn more l (m :: below)).isSome = g.pairs l m := by
  rw [blockOn, pair?, pairs]
  cases g.titleLine? l.body <;> cases g.underline? m.body <;> rfl

theorem pairs_of_blockOn {more : Bool} {l m : Line} {below : List Line} {b : TitleBlock}
    (h : g.blockOn more l (m :: below) = some b) : g.pairs l m = true := by
  rw [← blockOn_isSome_eq more l m below, h]
  rfl

theorem pairs_of_blockOn_eq_none {more : Bool} {l m : Line} {below : List Line}
    (h : g.blockOn more l (m :: below) = none) : g.pairs l m = false := by
  rw [← blockOn_isSome_eq more l m below, h]
  rfl

section Unstacked

variable {text : Text} {above : List Line} {l : Line} {below : List Line}

theorem not_pairs_of_unstacked (hu : g.Unstacked false text.lines) {k m : Line}
    (h : text.lines = above ++ k :: l :: m :: below) (hkl : g.pairs k l = true) : g.pairs l m = false := by
  rw [← blockOn_isSome_eq false k l (m :: below)] at hkl
  exact pairs_of_blockOn_eq_none (hu above k l (m :: below) h hkl)

theorem stackUp_le_one (hu : g.Unstacked false text.lines) (h : text.lines = above.reverse ++ l :: below) :
    g.stackUp l above ≤ 1 := by
  rcases g.stackUp_cases l above with hl | ⟨k, rest, rfl, hkl, hl⟩
  · omega
  · rcases g.stackUp_cases k rest with hk | ⟨j, rest, rfl, hjk, -⟩
    · omega
    · have h' : text.lines = rest.reverse ++ j :: k :: l :: below := by rw [h]; simp
      have hn := not_pairs_of_unstacked hu h' hjk
      simp [hkl] at hn

theorem stackDown_le_one (hu : g.Unstacked false text.lines) (h : text.lines = above ++ l :: below) :
    g.stackDown l below ≤ 1 := by
  rcases g.stackDown_cases l below with hl | ⟨m, rest, rfl, hlm, hl⟩
  · omega
  · rcases g.stackDown_cases m rest with hm | ⟨n, rest, rfl, hmn, -⟩
    · omega
    · have hn := not_pairs_of_unstacked hu h hlm
      simp [hmn] at hn

end Unstacked

end Literate.Grammar
