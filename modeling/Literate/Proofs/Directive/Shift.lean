import Literate.Proofs.Directive.Lines

namespace Literate

def Directive.shift {π : Type} (n : Nat) (d : Directive π) : Directive π :=
  { d with start := d.start + n, stop := d.stop + n }

def DocComment.shift (n : Nat) (d : DocComment) : DocComment := { d with start := d.start + n }

def DoctestLine.shift (n : Nat) (d : DoctestLine) : DoctestLine := { d with start := d.start + n }

def Visibility.shift (n : Int) (v : Visibility) : Visibility := { v with revealed := v.revealed.map (Span.shift · n) }

namespace Visibility

variable {v : Visibility}

theorem covers_shift (v : Visibility) (n : Nat) (s : Span) : v.covers (s.shift n) = (v.shift (-n)).covers s := by
  have hw : ∀ w : Span, (s.shift n).within w = s.within (w.shift (-n)) := by
    intro w
    rw [Bool.eq_iff_iff]
    simp only [Span.within, Bool.and_eq_true, decide_eq_true_eq]
    simp only [Span.shift]
    omega
  simp only [covers, shift, Option.any_map]
  cases v.revealed with
  | none => rfl
  | some w => exact hw w

theorem hidesTitle_shift (v : Visibility) (n : Nat) (s : Span) :
    v.hidesTitle (s.shift n) = (v.shift (-n)).hidesTitle s := by
  rw [hidesTitle, hidesTitle, covers_shift]
  rfl

theorem hidesQuote_shift (v : Visibility) (n : Nat) (s : Span) :
    v.hidesQuote (s.shift n) = (v.shift (-n)).hidesQuote s := by
  rw [hidesQuote, hidesQuote, covers_shift]
  rfl

theorem shift_eq_self (h : v.revealed = none) (n : Int) : v.shift n = v := by
  rw [shift, h, Option.map_none, ← h]

end Visibility

theorem markerSpan?_shift (start n : Nat) (marker : Text) :
    markerSpan? (start + n) marker = (markerSpan? start marker).map fun p => (p.1 + n, p.2 + n) := by
  rw [markerSpan?, markerSpan?]
  split
  · simp only [Option.map_some, Nat.add_right_comm]
  · rfl

namespace Grammar

variable {g : Grammar}

theorem docComment?_shift (start n : Nat) (text : Text) :
    g.docComment? (start + n) text = (g.docComment? start text).map (DocComment.shift n) := by
  rw [docComment?, docComment?, Option.map_map]
  rfl

theorem doctest?_shift (l : Line) (n : Nat) : g.doctest? (l.shift n) = (g.doctest? l).map (DoctestLine.shift n) := by
  rw [doctest?, doctest?, doctestFrom?, doctestFrom?, List.map_findSome?]
  apply Text.findSome?_congr
  intro p _
  simp only [Function.comp_apply, Option.map_map]
  rfl

end Grammar

namespace Annotator

variable {π : Type} {a : Annotator π} {g : Grammar} {v : Visibility}

theorem embed_shift (start n : Nat) (code : Text) :
    a.embed (start + n) code = (a.embed start code).map (Directive.shift n) := by
  rw [embed, embed]
  cases a.highlight with
  | none => rfl
  | some highlight =>
    by_cases hc : code = []
    · simp [hc]
    · simp only [if_neg hc, List.map_filterMap]
      apply List.filterMap_congr
      rintro ⟨first, length, payload⟩ -
      dsimp only
      have hfirst : start + n + first.toNat = start + first.toNat + n := by omega
      have hlast : min (start + n + code.length) (start + first.toNat + n + length.toNat) =
          min (start + code.length) (start + first.toNat + length.toNat) + n := by omega
      rw [hfirst, hlast]
      by_cases hlt : start + first.toNat < min (start + code.length) (start + first.toNat + length.toNat)
      · rw [if_pos hlt, if_pos (Nat.add_lt_add_right hlt n)]
        rfl
      · rw [if_neg hlt, if_neg fun h => hlt (Nat.lt_of_add_lt_add_right h)]
        rfl

theorem ofComment_shift (c : DocComment) (n : Nat) :
    ofComment (π := π) v (c.shift n) = (ofComment (v.shift (-n)) c).map (Directive.shift n) := by
  have hstop : (c.shift n).stop = c.stop + n := by
    simp only [DocComment.stop, DocComment.markerStop, DocComment.shift]
    omega
  have hmarker : markerSpan? (c.shift n).start (c.shift n).marker =
      (markerSpan? c.start c.marker).map fun p => (p.1 + n, p.2 + n) := markerSpan?_shift c.start n c.marker
  rw [ofComment, ofComment, hstop, hmarker, List.map_cons]
  cases markerSpan? c.start c.marker with
  | none => rfl
  | some p =>
    have hhide := v.hidesTitle_shift n ⟨p.1, p.2⟩
    simp only [Span.shift] at hhide
    simp only [Option.map_some, Option.toList_some, List.map_cons, List.map_nil, Int.natCast_add, hhide]
    rfl

theorem ofDoctest_shift (d : DoctestLine) (n : Nat) :
    a.ofDoctest (d.shift n) = (a.ofDoctest d).map (Directive.shift n) := by
  have hstart : (d.shift n).promptStart = d.promptStart + n := Nat.add_right_comm _ _ _
  have hprompt : (d.shift n).promptStop = d.promptStop + n := by
    rw [DoctestLine.promptStop, hstart]
    exact Nat.add_right_comm _ _ _
  have hpayload : (d.shift n).payloadStart = d.payloadStart + n := by
    rw [DoctestLine.payloadStart, hprompt]
    exact Nat.add_right_comm _ _ _
  have hstop : (d.shift n).stop = d.stop + n := by
    rw [DoctestLine.stop, hpayload]
    exact Nat.add_right_comm _ _ _
  have hcode : (d.shift n).payload = d.payload := rfl
  rw [ofDoctest, ofDoctest, hstart, hprompt, hpayload, hstop, hcode, List.map_cons]
  by_cases hp : d.payload = []
  · rw [if_pos hp, if_pos hp]
    rfl
  · rw [if_neg hp, if_neg hp, List.map_cons, embed_shift]
    rfl

theorem ofQuote_shift (q : QuotedSpan) (n : Nat) :
    a.ofQuote v (q.shift n) = (a.ofQuote (v.shift (-n)) q).map (Directive.shift n) := by
  have hstart : (q.shift n).contentStart = q.contentStart + n := Nat.add_right_comm _ _ _
  have hstop : (q.shift n).contentStop = q.contentStop + n := by
    rw [QuotedSpan.contentStop, hstart]
    exact Nat.add_right_comm _ _ _
  have hend : (q.shift n).stop = q.stop + n := by
    rw [QuotedSpan.stop, hstop]
    exact Nat.add_right_comm _ _ _
  have hspan : (q.shift n).span = q.span.shift n := by
    rw [QuotedSpan.span, hend, Int.natCast_add]
    rfl
  have hwidth : (q.shift n).width = q.width := rfl
  have hcontent : (q.shift n).content = q.content := rfl
  rw [ofQuote, ofQuote, hspan, Visibility.hidesQuote_shift, hstart, hstop, hend, hwidth, hcontent]
  by_cases hw : q.width = 2
  · simp only [if_pos hw, embed_shift, List.map_append, List.map_cons, List.map_nil]
    rfl
  · simp only [if_neg hw, List.map_append, List.map_cons, List.map_nil]
    rfl

theorem commentsOn_shift (l : Line) (n : Nat) :
    commentsOn (π := π) g v (l.shift n) = (commentsOn g (v.shift (-n)) l).map (Directive.shift n) := by
  rw [commentsOn, commentsOn, Line.shift_start, Line.shift_body, Grammar.docComment?_shift]
  cases g.docComment? l.start l.body with
  | none => rfl
  | some c => simpa using ofComment_shift c n

theorem doctestsOn_shift (l : Line) (n : Nat) :
    a.doctestsOn g (l.shift n) = (a.doctestsOn g l).map (Directive.shift n) := by
  rw [doctestsOn, doctestsOn, Grammar.doctest?_shift]
  cases g.doctest? l with
  | none => rfl
  | some d => simpa using ofDoctest_shift d n

theorem quotesOn_shift (l : Line) (n : Nat) :
    a.quotesOn g v (l.shift n) = (a.quotesOn g (v.shift (-n)) l).map (Directive.shift n) := by
  rw [quotesOn, quotesOn, Grammar.doctest?_shift, Option.isSome_map]
  split
  · rfl
  · rw [Line.quotes_shift, List.flatMap_map, List.map_flatMap]
    apply List.flatMap_congr
    intro q _
    exact ofQuote_shift q n

end Annotator

end Literate
