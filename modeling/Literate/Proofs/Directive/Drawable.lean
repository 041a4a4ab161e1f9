import Literate.Proofs.Directive.Visibility
import Literate.Proofs.Text.Splice

namespace Literate

variable {π : Type}

structure Directive.Drawable (d : Directive π) (text : Text) (first last : Nat) : Prop where
  start : first ≤ d.start
  filled : d.start < d.stop
  stop : d.stop ≤ last
  newline : '\n' ∉ text.slice d.start d.stop

def Hosted (r : Directive π → Directive π → Prop) (ds : List (Directive π)) : Prop :=
  ∀ before d after, ds = before ++ d :: after → d.style.payload?.isSome = true →
    ∃ front host inner, before = front ++ host :: inner ∧ host.style.payload? = none ∧
      (∀ e ∈ inner, e.style.payload?.isSome = true) ∧ r host d

namespace Hosted

variable {r : Directive π → Directive π → Prop} {host : Directive π} {ds es : List (Directive π)}

theorem of_plain (h : ∀ d ∈ ds, d.style.payload? = none) : Hosted r ds := by
  rintro before d after rfl hd
  simp [h d (by simp)] at hd

theorem append (hd : Hosted r ds) (he : Hosted r es) : Hosted r (ds ++ es) := by
  intro before d after h hstyle
  rcases List.append_eq_append_iff.mp h with ⟨more, rfl, hes⟩ | ⟨more, rfl, hes⟩
  · obtain ⟨front, host, inner, rfl, hhost⟩ := he more d after hes hstyle
    exact ⟨ds ++ front, host, inner, by rw [List.append_assoc], hhost⟩
  · rcases List.cons_eq_append_iff.mp hes with ⟨rfl, rfl⟩ | ⟨more, rfl, rfl⟩
    · obtain ⟨front, host, inner, hnil, -⟩ := he [] d after rfl hstyle
      simp at hnil
    · exact hd before d more rfl hstyle

theorem flatMap {α : Type} {xs : List α} {f : α → List (Directive π)} (h : ∀ x ∈ xs, Hosted r (f x)) :
    Hosted r (xs.flatMap f) := by
  induction xs with
  | nil => exact of_plain (by simp)
  | cons x xs ih =>
    obtain ⟨hx, hxs⟩ := List.forall_mem_cons.mp h
    rw [List.flatMap_cons]
    exact hx.append (ih hxs)

theorem cons (hhost : host.style.payload? = none) (h : ∀ d ∈ ds, d.style.payload?.isSome = true ∧ r host d) :
    Hosted r (host :: ds) := by
  intro before d after he hd
  cases before with
  | nil =>
    obtain ⟨rfl, -⟩ := List.cons.inj he
    simp [hhost] at hd
  | cons e inner =>
    obtain ⟨rfl, rfl⟩ := List.cons.inj he
    exact ⟨[], host, inner, rfl, hhost, fun e hmem => (h e (by simp [hmem])).1, (h d (by simp)).2⟩

end Hosted

namespace Annotator

variable {a : Annotator π} {g : Grammar} {v : Visibility} {text : Text} {first last : Nat} {host d : Directive π}

structure Embeds (a : Annotator π) (g : Grammar) (text : Text) (first last : Nat) (host d : Directive π) : Prop where
  code : (∃ e ∈ g.doctestLines text first last, host = .plain e.payloadStart e.stop .code ∧
      text.slice host.start host.stop = e.payload) ∨
    ∃ q ∈ text.quotes first last, q.width = 2 ∧ host = .plain q.contentStart q.contentStop .quoteDouble ∧
      text.slice host.start host.stop = q.content
  start : host.start ≤ d.start
  stop : d.stop ≤ host.stop
  answer : ∃ highlight, a.highlight = some highlight ∧
    ∃ entry ∈ highlight (text.slice host.start host.stop) a.language,
      d = .plain (host.start + entry.1.toNat) (min host.stop (host.start + entry.1.toNat + entry.2.1.toNat))
        (.embedded entry.2.2)

theorem hosted_embed {start stop : Nat} {style : Style π} {code : Text} (hstyle : style.payload? = none)
    (hslice : text.slice start stop = code) (hstop : stop = start + code.length)
    (hcode : (∃ e ∈ g.doctestLines text first last,
        Directive.plain start stop style = .plain e.payloadStart e.stop .code ∧ text.slice start stop = e.payload) ∨
      ∃ q ∈ text.quotes first last, q.width = 2 ∧
        Directive.plain start stop style = .plain q.contentStart q.contentStop .quoteDouble ∧
          text.slice start stop = q.content) :
    Hosted (a.Embeds g text first last) (.plain start stop style :: a.embed start code) := by
  refine .cons hstyle fun d hd => ?_
  obtain ⟨hfirst, -, hlast⟩ := embed_inside hd
  obtain ⟨highlight, hl, entry, hentry, he, -⟩ := exists_entry_of_mem_embed hd
  rw [← hstop] at hlast he
  exact ⟨by rw [he]; rfl, hcode, hfirst, hlast, highlight, hl, entry, hslice.symm ▸ hentry, he⟩

section Lines

variable {l : Line} (hl : l ∈ Text.lines (text.take last))

include hl

theorem slice_payload {e : DoctestLine} (he : g.doctest? l = some e) : text.slice e.payloadStart e.stop = e.payload := by
  obtain ⟨above, below, hlines⟩ := List.append_of_mem hl
  have hb : '\n' ∉ l.body := Text.newline_not_mem_body (n := 0) hlines (by simp)
  obtain ⟨hstart, hbody⟩ := Grammar.doctestFrom?_parts hb he
  have hprompt : e.prompt.text.length = 3 := by cases e.prompt <;> rfl
  refine Text.slice_of_body hlines (e.lead ++ (e.prompt.text ++ if e.gap then [' '] else [])) [] ?_ ?_ rfl
  · rw [← hbody, DoctestLine.body]
    simp
  · simp only [DoctestLine.payloadStart, DoctestLine.promptStop, DoctestLine.promptStart, List.length_append, hprompt,
      hstart]
    cases e.gap <;> simp <;> omega

theorem slice_content {q : QuotedSpan} (hq : q ∈ l.quotes first) :
    text.slice q.contentStart q.contentStop = q.content := by
  obtain ⟨above, below, hlines⟩ := List.append_of_mem hl
  obtain ⟨-, -, ⟨front, rest, hbody, hstart, -⟩, -⟩ := Line.mem_quotes hq
  refine Text.slice_of_body hlines (front ++ backticks q.width) (backticks q.width ++ rest) ?_ ?_ rfl
  · rw [hbody, QuotedSpan.written]
    simp
  · rw [QuotedSpan.contentStart, hstart, List.length_append, backticks, List.length_replicate, Nat.add_assoc]

theorem drawable_of_on (hlast : last ≤ text.length) (hd : d.On l) (hfirst : first ≤ d.start) :
    d.Drawable text first last := by
  obtain ⟨above, below, hlines⟩ := List.append_of_mem hl
  have hb : '\n' ∉ l.body := Text.newline_not_mem_body (n := 0) hlines (by simp)
  have hlen := Text.stop_le_length hlines
  have hstart := hd.start
  have hfilled := hd.filled
  have hstop := hd.stop
  have hline : l.stop = l.start + l.body.length := rfl
  have hslice : text.slice d.start d.stop =
      (l.body.drop (d.start - l.start)).take (d.stop - l.start - (d.start - l.start)) := by
    refine Text.slice_of_body hlines _ _ (Text.take_take_drop l.body (show _ ≤ d.stop - l.start by omega)).symm ?_ ?_
    · rw [List.length_take]
      omega
    · rw [List.length_take, List.length_drop]
      omega
  rw [List.length_take] at hlen
  refine ⟨hfirst, hfilled, by omega, fun hn => hb ?_⟩
  rw [hslice] at hn
  exact List.mem_of_mem_drop (List.mem_of_mem_take hn)

end Lines

theorem ofIndex_payload? (i : Option Int) : (Style.ofIndex (π := π) i).payload? = none := by
  unfold Style.ofIndex
  split <;> rfl

theorem hosted_ofComment (r : Directive π → Directive π → Prop) (c : DocComment) : Hosted r (ofComment v c) := by
  refine .of_plain fun d hd => ?_
  rcases List.mem_cons.mp hd with rfl | hd
  · rfl
  · obtain ⟨p, -, rfl⟩ := List.mem_map.mp hd
    rfl

theorem hosted_ofBlock (r : Directive π → Directive π → Prop) (b : TitleBlock) : Hosted r (ofBlock g v b) := by
  refine .of_plain fun d hd => ?_
  simp only [ofBlock, List.mem_append, List.mem_map, List.mem_cons, List.not_mem_nil, or_false] at hd
  rcases hd with ⟨p, -, rfl⟩ | rfl | rfl
  · rfl
  · exact ofIndex_payload? _
  · rfl

theorem hosted_ofDoctest {e : DoctestLine} (he : e ∈ g.doctestLines text first last)
    (hslice : text.slice e.payloadStart e.stop = e.payload) : Hosted (a.Embeds g text first last) (a.ofDoctest e) := by
  rw [ofDoctest, ← List.singleton_append]
  refine .append (.of_plain fun d hd => ?_) ?_
  · rw [List.mem_singleton.mp hd]
    rfl
  · split
    · exact .of_plain (by simp)
    · exact hosted_embed rfl hslice rfl (.inl ⟨e, he, rfl, hslice⟩)

theorem hosted_ofQuote {q : QuotedSpan} (hq : q ∈ text.quotes first last)
    (hslice : text.slice q.contentStart q.contentStop = q.content) :
    Hosted (a.Embeds g text first last) (a.ofQuote v q) := by
  have hplain : ∀ d : Directive π, d.style.payload? = none → Hosted (a.Embeds g text first last) [d] :=
    fun d hd => .of_plain (by simpa using hd)
  rw [ofQuote, ← List.singleton_append]
  refine .append (.append (hplain _ rfl) ?_) (hplain _ rfl)
  split
  · exact hosted_embed rfl hslice rfl (.inr ⟨q, hq, ‹_›, rfl, hslice⟩)
  · exact hplain _ rfl

theorem hosted_drawn (hg : g.WithinLine) {x : Source} (hx : x ∈ sources g text first last) :
    Hosted (a.Embeds g text first last) (a.drawn g v x) := by
  simp only [sources, List.mem_append, List.mem_map] at hx
  rcases hx with ((⟨c, -, rfl⟩ | ⟨b, -, rfl⟩) | ⟨e, he, rfl⟩) | ⟨q, hq, rfl⟩
  · exact hosted_ofComment _ c
  · exact hosted_ofBlock _ b
  · obtain ⟨l, hl, -, hread⟩ := (Grammar.doctestLines_oneLine hg).exists_of_mem_searchLines he
    exact hosted_ofDoctest he (slice_payload hl hread)
  · have hq := (List.mem_filter.mp hq).1
    obtain ⟨l, hl, hmem⟩ := List.mem_flatMap.mp hq
    exact hosted_ofQuote hq (slice_content hl hmem)

theorem drawable_drawn (hg : g.WithinLine) (hlast : last ≤ text.length) {x : Source} (hx : x ∈ sources g text first last)
    (hd : d ∈ a.drawn g v x) : d.Drawable text first last := by
  have hbody : ∀ {l}, l ∈ Text.lines (text.take last) → '\n' ∉ l.body := Text.newline_not_mem_body (n := 0) rfl
  simp only [sources, List.mem_append, List.mem_map] at hx
  rcases hx with ((⟨c, hc, rfl⟩ | ⟨b, hb, rfl⟩) | ⟨e, he, rfl⟩) | ⟨q, hq, rfl⟩
  · obtain ⟨l, hl, hfirst, hread⟩ := (Grammar.docComments_oneLine hg).exists_of_mem_searchLines hc
    have hon : d.On l := commentsOn_on (hbody hl) (List.mem_flatMap.mpr ⟨c, Option.mem_toList.mpr hread, hd⟩)
    exact drawable_of_on hl hlast hon (hfirst.trans hon.start)
  · obtain ⟨above, l, m, below, hlines, hblock, hfirst⟩ := Grammar.exists_of_mem_titleBlocks hg hb
    have hspans := Grammar.blockOn_spans (n := 0) hlines hblock
    have hstart := hspans.start
    have hnext := hspans.next
    have hline := l.start_le_stop
    rcases ofBlock_on hspans hd with hon | hon
    · exact drawable_of_on (by rw [hlines]; simp) hlast hon (by have := hon.start; omega)
    · exact drawable_of_on (by rw [hlines]; simp) hlast hon (by have := hon.start; omega)
  · obtain ⟨l, hl, hfirst, hread⟩ := (Grammar.doctestLines_oneLine hg).exists_of_mem_searchLines he
    have hon : d.On l := doctestsOn_on (hbody hl) (List.mem_flatMap.mpr ⟨e, Option.mem_toList.mpr hread, hd⟩)
    exact drawable_of_on hl hlast hon (hfirst.trans hon.start)
  · obtain ⟨l, hl, hmem⟩ := List.mem_flatMap.mp (List.mem_filter.mp hq).1
    obtain ⟨hwidth, hquotable, hsetOff, hfirst⟩ := Line.mem_quotes hmem
    obtain ⟨hstart, hstop, hfilled⟩ := ofQuote_inside hd
    obtain ⟨hfrom, hto⟩ := hsetOff.bounds
    have hon : d.On l := ⟨by omega, hfilled (by omega) hquotable.filled, hstop.trans hto⟩
    exact drawable_of_on hl hlast hon (hfirst.trans hstart)

theorem annotate_drawable {s : Settings} (hs : Grammar.Accepted s.titleStyles) (a : Annotator π) (revealed : Option Span)
    (text : Text) (start : Int) (stop : Option Int) :
    (∀ d ∈ a.annotate s revealed text start stop,
      max 0 start ≤ d.start ∧ d.start < d.stop ∧ (d.stop : Int) ≤ min (stop.getD text.length) text.length ∧
        '\n' ∉ text.slice d.start d.stop) ∧
    ∀ before d after, a.annotate s revealed text start stop = before ++ d :: after → d.style.payload?.isSome = true →
      ∃ front host inner, before = front ++ host :: inner ∧ host.style.payload? = none ∧
        (∀ e ∈ inner, e.style.payload?.isSome = true) ∧
        a.Embeds s.grammar text (text.clamp start) ((stop.map text.clamp).getD text.length) host d := by
  have hg : s.grammar.WithinLine := hs.withinLine
  have hlast : (stop.map text.clamp).getD text.length ≤ text.length := by
    cases stop with
    | none => exact Nat.le_refl _
    | some stop => exact Text.clamp_le text stop
  rw [annotate, directives_eq_flatMap]
  refine ⟨fun d hd => ?_, Hosted.flatMap fun x hx => hosted_drawn hg hx⟩
  obtain ⟨x, hx, hd⟩ := List.mem_flatMap.mp hd
  obtain ⟨hstart, hfilled, hstop, hnewline⟩ := drawable_drawn hg hlast hx hd
  have hfrom : text.clamp start = min start.toNat text.length := rfl
  refine ⟨by omega, hfilled, ?_, hnewline⟩
  cases stop with
  | none =>
    rw [Option.map_none, Option.getD_none] at hstop
    rw [Option.getD_none]
    omega
  | some stop =>
    have hto : text.clamp stop = min stop.toNat text.length := rfl
    rw [Option.map_some, Option.getD_some] at hstop
    rw [Option.getD_some]
    omega

theorem annotate_drawable_cut : Grammar.Accepted ({} : Settings).titleStyles ∧
    (Annotator.mk (some fun _ _ => [(-5, 1, 'a'), (1, 100, 'b')]) []).annotate {} none ">>> ab".toList (-2) (some 9) =
      [.plain 0 3 .prompt, .plain 4 6 .code, .plain 4 5 (.embedded 'a')] ++ .plain 5 6 (.embedded 'b') :: [] ∧
    ∃ front host inner, [.plain 0 3 .prompt, .plain 4 6 .code, .plain 4 5 (.embedded 'a')] = front ++ host :: inner ∧
      host.style.payload? = none ∧ (∀ e ∈ inner, e.style.payload?.isSome = true) ∧
      (Annotator.mk (some fun _ _ => [(-5, 1, 'a'), (1, 100, 'b')]) []).Embeds ({} : Settings).grammar ">>> ab".toList 0 6
        host (.plain 5 6 (.embedded 'b')) := by
  have hs : Grammar.Accepted ({} : Settings).titleStyles := by decide
  have hlist : (Annotator.mk (some fun _ _ => [(-5, 1, 'a'), (1, 100, 'b')]) []).annotate {} none ">>> ab".toList (-2)
      (some 9) = [.plain 0 3 .prompt, .plain 4 6 .code, .plain 4 5 (.embedded 'a')] ++ .plain 5 6 (.embedded 'b') :: [] := by
    decide
  exact ⟨hs, hlist, (annotate_drawable hs _ none _ (-2) (some 9)).2 _ _ _ hlist rfl⟩

end Annotator

end Literate
