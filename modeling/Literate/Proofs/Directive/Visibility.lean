import Mathlib.Data.List.Forall2
import Literate.Proofs.Directive.Lines

/-!
What is hidden has no part in what is recognised. Every directive is drawn for a comment, a title block, a doctest or
a quote, and its flags follow from the visibility of that alone.
-/

namespace Literate

variable {π : Type}

def Settings.hiding (s : Settings) (titles quotes : Bool) : Settings :=
  { s with hideTitleMarkup := titles, hideQuotes := quotes }

def Directive.bare (d : Directive π) : Directive π := { d with hidden := false, ruled := false }

namespace Annotator

inductive Source
  | comment (c : DocComment)
  | block (b : TitleBlock)
  | doctest (d : DoctestLine)
  | quote (q : QuotedSpan)

namespace Source

def markup? : Source → Option Span
  | comment c => (markerSpan? c.start c.marker).map fun (first, last) => ⟨first, last⟩
  | block b => some b.span
  | doctest _ => none
  | quote q => some q.span

def within (x : Source) (w : Span) : Bool := x.markup?.any (·.within w)

def hiddenBy (v : Visibility) : Source → Bool
  | comment c => (comment c).markup?.any v.hidesTitle
  | block b => v.hidesTitle b.span
  | doctest _ => false
  | quote q => v.hidesQuote q.span

def marks (x : Source) (d : Directive π) : Bool :=
  match x, d.style with
  | comment _, .markup | block _, .markup | quote _, .quoteDelimiter => true
  | _, _ => false

def rules (x : Source) (d : Directive π) : Bool :=
  match x, d.style with
  | block _, .markup => false
  | block b, _ => d.start = b.titleStart && d.stop = b.titleStop
  | _, _ => false

def veil (x : Source) (hide : Bool) (d : Directive π) : Directive π :=
  { d with hidden := hide && x.marks d, ruled := hide && x.rules d }

variable {x : Source} {d : Directive π}

theorem style_of_marks (h : x.marks d = true) (hq : ∀ q, x ≠ .quote q) : d.style = .markup := by
  unfold marks at h
  split at h
  · assumption
  · assumption
  · exact absurd rfl (hq _)
  · simp at h

theorem style_of_marks_quote {q : QuotedSpan} (h : (quote q).marks d = true) : d.style = .quoteDelimiter := by
  unfold marks at h
  split at h <;> simp_all

theorem title_of_rules (h : x.rules d = true) :
    ∃ b, x = .block b ∧ d.style ≠ .markup ∧ d.start = b.titleStart ∧ d.stop = b.titleStop := by
  unfold rules at h
  split at h
  · simp at h
  · rename_i b hs
    simp only [Bool.and_eq_true, decide_eq_true_eq] at h
    exact ⟨b, rfl, hs, h⟩
  · simp at h

theorem veil_hideQuotes (x : Source) (d : Directive π) (titles quotes quotes' : Bool) (w : Option Span) :
    let d₁ := x.veil (x.hiddenBy ⟨titles, quotes, w⟩) d
    let d₂ := x.veil (x.hiddenBy ⟨titles, quotes', w⟩) d
    d₂ = { d₁ with hidden := d₂.hidden } ∧ (d₂.hidden ≠ d₁.hidden → d.style = .quoteDelimiter) := by
  cases x with
  | quote q =>
    have hrules : (quote q).rules d = false := rfl
    refine ⟨by simp only [veil, hrules, Bool.and_false], fun hne => ?_⟩
    by_contra hstyle
    have hmarks : (quote q).marks d = false := Bool.eq_false_iff.mpr fun h => hstyle (style_of_marks_quote h)
    simp only [veil, hmarks, Bool.and_false, ne_eq, not_true_eq_false] at hne
  | comment c | block c | doctest c => exact ⟨rfl, fun hne => absurd rfl hne⟩

theorem veil_hideTitles (x : Source) (d : Directive π) (titles titles' quotes : Bool) (w : Option Span) :
    let d₁ := x.veil (x.hiddenBy ⟨titles, quotes, w⟩) d
    let d₂ := x.veil (x.hiddenBy ⟨titles', quotes, w⟩) d
    (d₂.hidden ≠ d₁.hidden → d.style = .markup) ∧ (d₂.ruled ≠ d₁.ruled →
      ∃ b, x = .block b ∧ d.style ≠ .markup ∧ d.start = b.titleStart ∧ d.stop = b.titleStop) := by
  constructor
  · intro hne
    cases hmarks : x.marks d with
    | false => simp only [veil, hmarks, Bool.and_false, ne_eq, not_true_eq_false] at hne
    | true =>
      refine style_of_marks hmarks ?_
      rintro q rfl
      exact hne rfl
  · intro hne
    cases hrules : x.rules d with
    | false => simp only [veil, hrules, Bool.and_false, ne_eq, not_true_eq_false] at hne
    | true => exact title_of_rules hrules

theorem hiddenBy_some (titles quotes : Bool) (w : Span) :
    x.hiddenBy ⟨titles, quotes, some w⟩ = (x.hiddenBy ⟨titles, quotes, none⟩ && !x.within w) := by
  cases x with
  | comment c =>
    simp only [hiddenBy, within]
    cases (comment c).markup? <;> simp [Visibility.hidesTitle, Visibility.covers]
  | block b => simp [hiddenBy, within, markup?, Visibility.hidesTitle, Visibility.covers]
  | doctest d => rfl
  | quote q => simp [hiddenBy, within, markup?, Visibility.hidesQuote, Visibility.covers]

end Source

variable {a : Annotator π} {g : Grammar} {v : Visibility} {text : Text}

def drawn (a : Annotator π) (g : Grammar) (v : Visibility) : Source → List (Directive π)
  | .comment c => ofComment v c
  | .block b => ofBlock g v b
  | .doctest d => a.ofDoctest d
  | .quote q => a.ofQuote v q

def sources (g : Grammar) (text : Text) (start stop : Nat) : List Source :=
  (g.docComments text start stop).map .comment ++ (g.titleBlocks text start stop).map .block ++
    (g.doctestLines text start stop).map .doctest ++
    (quotesOutside (g.doctestLines text start stop) (text.quotes start stop)).map .quote

theorem directives_eq_flatMap (start stop : Nat) :
    a.directives g v text start stop = (sources g text start stop).flatMap (a.drawn g v) := by
  simp only [directives, sources, List.flatMap_append, List.flatMap_map]
  rfl

def shown : Visibility := ⟨false, false, none⟩

theorem map_veil_embed (a : Annotator π) (n : Nat) (code : Text) {x : Source} (hx : ∀ b, x ≠ .block b) (hide : Bool) :
    (a.embed n code).map (x.veil hide) = a.embed n code := by
  refine (List.map_congr_left fun d hd => ?_).trans (List.map_id' _)
  obtain ⟨first, last, payload, rfl, -⟩ := mem_embed hd
  cases x with
  | block b => exact absurd rfl (hx b)
  | comment c | doctest c | quote c => simp [Source.veil, Source.marks, Source.rules, Directive.plain]

theorem ofComment_veil (c : DocComment) : ofComment (π := π) v c =
    (ofComment shown c).map ((Source.comment c).veil ((Source.comment c).hiddenBy v)) := by
  rw [ofComment, ofComment, Source.hiddenBy, Source.markup?]
  cases markerSpan? c.start c.marker with
  | none => simp [Source.veil, Source.marks, Source.rules, Directive.plain]
  | some p => simp [Source.veil, Source.marks, Source.rules, Directive.plain]

theorem ofIndex_ne_markup (i : Option Int) : Style.ofIndex (π := π) i ≠ .markup := by
  unfold Style.ofIndex
  split <;> simp

theorem ofBlock_veil (b : TitleBlock) : ofBlock (π := π) g v b =
    (ofBlock g shown b).map ((Source.block b).veil ((Source.block b).hiddenBy v)) := by
  have hmark : ∀ p : Nat × Nat, (Source.block b).veil (v.hidesTitle b.span)
      (⟨p.1, p.2, .markup, false, false⟩ : Directive π) = ⟨p.1, p.2, .markup, v.hidesTitle b.span, false⟩ := by
    intro p
    simp [Source.veil, Source.marks, Source.rules]
  have htitle : ∀ style : Style π, style ≠ .markup → (Source.block b).veil (v.hidesTitle b.span)
      (⟨b.titleStart, b.titleStop, style, false, false⟩ : Directive π) =
        ⟨b.titleStart, b.titleStop, style, false, v.hidesTitle b.span⟩ := by
    intro style hs
    cases style <;> simp_all [Source.veil, Source.marks, Source.rules]
  have hshown : shown.hidesTitle b.span = false := rfl
  simp only [ofBlock, Source.hiddenBy, hshown, List.map_append, List.map_map, List.map_cons, List.map_nil,
    Function.comp_def, hmark, htitle _ (ofIndex_ne_markup _), hmark (b.runStart, b.runStop)]

theorem ofQuote_veil (q : QuotedSpan) :
    a.ofQuote v q = (a.ofQuote shown q).map ((Source.quote q).veil ((Source.quote q).hiddenBy v)) := by
  have hembed := map_veil_embed a q.contentStart q.content (x := .quote q) nofun
  rw [ofQuote, ofQuote]
  split <;> simp [hembed, Source.hiddenBy, Source.veil, Source.marks, Source.rules, Directive.plain]

theorem ofDoctest_veil (d : DoctestLine) (hide : Bool) :
    a.ofDoctest d = (a.ofDoctest d).map ((Source.doctest d).veil hide) := by
  have hembed := map_veil_embed a d.payloadStart d.payload (x := .doctest d) nofun
  rw [ofDoctest]
  split <;> simp [hembed, Source.veil, Source.marks, Source.rules, Directive.plain]

theorem drawn_eq_map_veil (x : Source) :
    a.drawn g v x = (a.drawn g shown x).map (x.veil (x.hiddenBy v)) := by
  cases x with
  | comment c => exact ofComment_veil c
  | block b => exact ofBlock_veil b
  | doctest d => exact ofDoctest_veil d _
  | quote q => exact ofQuote_veil q

def attributed (a : Annotator π) (s : Settings) (revealed : Option Span) (text : Text) (start : Int)
    (stop : Option Int) : List (Source × Directive π) :=
  (sources s.grammar text (text.clamp start) ((stop.map text.clamp).getD text.length)).flatMap fun x =>
    (a.drawn s.grammar (.ofSettings s revealed) x).map (x, ·)

theorem snd_attributed (a : Annotator π) (s : Settings) (revealed : Option Span) (text : Text) (start : Int)
    (stop : Option Int) :
    (a.attributed s revealed text start stop).map Prod.snd = a.annotate s revealed text start stop := by
  rw [attributed, annotate, directives_eq_flatMap, List.map_flatMap]
  simp only [List.map_map, Function.comp_def, List.map_id']

section Runs

variable (a : Annotator π) (s : Settings) (text : Text) (start : Int) (stop : Option Int)

theorem attributed_eq_map_veil (titles quotes : Bool) (revealed : Option Span) :
    a.attributed (s.hiding titles quotes) revealed text start stop =
      (a.attributed (s.hiding false false) none text start stop).map fun p =>
        (p.1, p.1.veil (p.1.hiddenBy ⟨titles, quotes, revealed⟩) p.2) := by
  rw [attributed, attributed, List.map_flatMap]
  refine List.flatMap_congr fun x _ => ?_
  rw [List.map_map]
  exact (congrArg _ (drawn_eq_map_veil x)).trans (by rw [List.map_map]; rfl)

theorem forall₂_attributed {titles quotes titles' quotes' : Bool} {revealed revealed' : Option Span}
    {R : Source × Directive π → Source × Directive π → Prop}
    (h : ∀ (x : Source) (d : Directive π), R (x, x.veil (x.hiddenBy ⟨titles, quotes, revealed⟩) d)
      (x, x.veil (x.hiddenBy ⟨titles', quotes', revealed'⟩) d)) :
    List.Forall₂ R (a.attributed (s.hiding titles quotes) revealed text start stop)
      (a.attributed (s.hiding titles' quotes') revealed' text start stop) := by
  rw [attributed_eq_map_veil, attributed_eq_map_veil a s text start stop titles', List.forall₂_map_left_iff,
    List.forall₂_map_right_iff, List.forall₂_same]
  exact fun p _ => h p.1 p.2

/-- Two runs that differ in visibility draw the same directives but for their flags. A switch reaches the flags of its
own markup only, and a window clears those of the sources that lie inside of it. -/
theorem annotate_visibility :
    (∀ t q w, (a.attributed (s.hiding t q) w text start stop).map Prod.snd =
      a.annotate (s.hiding t q) w text start stop) ∧
    (∀ t q w t' q' w', (a.annotate (s.hiding t q) w text start stop).map Directive.bare =
      (a.annotate (s.hiding t' q') w' text start stop).map Directive.bare) ∧
    (∀ t w q q', List.Forall₂
      (fun d e => e = { d with hidden := e.hidden } ∧ (e.hidden ≠ d.hidden → d.style = .quoteDelimiter))
      (a.annotate (s.hiding t q) w text start stop) (a.annotate (s.hiding t q') w text start stop)) ∧
    (∀ q w t t', List.Forall₂
      (fun x y => y = (x.1, { x.2 with hidden := y.2.hidden, ruled := y.2.ruled }) ∧
        (y.2.hidden ≠ x.2.hidden → x.2.style = .markup) ∧
        (y.2.ruled ≠ x.2.ruled → ∃ b, x.1 = .block b ∧ x.2.style ≠ .markup ∧ x.2.start = b.titleStart ∧
          x.2.stop = b.titleStop))
      (a.attributed (s.hiding t q) w text start stop) (a.attributed (s.hiding t' q) w text start stop)) ∧
    ∀ t q w, a.attributed (s.hiding t q) (some w) text start stop =
      (a.attributed (s.hiding t q) none text start stop).map fun x =>
        (x.1, { x.2 with hidden := x.2.hidden && !x.1.within w, ruled := x.2.ruled && !x.1.within w }) := by
  refine ⟨fun t q w => a.snd_attributed _ w text start stop, fun t q w t' q' w' => ?_, fun t w q q' => ?_,
    fun q w t t' => ?_, fun t q w => ?_⟩
  · rw [← snd_attributed, ← snd_attributed, attributed_eq_map_veil, attributed_eq_map_veil a s text start stop t']
    simp only [List.map_map]
    rfl
  · rw [← snd_attributed, ← snd_attributed, List.forall₂_map_left_iff, List.forall₂_map_right_iff]
    exact forall₂_attributed a s text start stop fun x d => x.veil_hideQuotes d t q q' w
  · exact forall₂_attributed a s text start stop fun x d => ⟨rfl, x.veil_hideTitles d t t' q w⟩
  · rw [attributed_eq_map_veil, attributed_eq_map_veil a s text start stop t q none, List.map_map]
    refine List.map_congr_left fun p _ => ?_
    simp only [Function.comp_apply, Source.veil, Source.hiddenBy_some, Bool.and_right_comm]

end Runs

end Annotator

end Literate
