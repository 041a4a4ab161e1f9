import Literate.Proofs.Editor.Unedited
import Literate.Proofs.File.Utf8
import Literate.Proofs.Window.Failure

namespace Literate

/-- The file holds the bytes once the system has been asked to write them. -/
def System.CarriesOut (sys : System) (p : Path) (bytes : Bytes) : Prop := (sys.write p bytes).1.read p = .ok bytes

namespace Window

structure Names (sys : System) (w : Window) (path : Text) (p : Path) (bytes : Bytes) : Prop where
  expands : (Path.ofText path).expandHome w.home w.users = some p
  clean : hasNull p = false
  reads : sys.read p = .ok bytes

def follow (backend : Backend) (w : Window) (steps : List Editor.Step) : Window :=
  steps.foldl (fun w s => (w.editorStep backend s).1) w

structure Holds (w : Window) (p : Path) (text : Text) : Prop where
  path : w.path = some p
  editor : w.editor.Rests text

variable {sys : System} {w : Window} {path text : Text} {p : Path} {bytes : Bytes} {steps : List Editor.Step}

section Opening

theorem openBy_eq (h : w.Names sys path p bytes) : w.openBy sys path = w.opened p (.ok bytes) := by
  rw [openBy, h.expands]
  dsimp only
  rw [if_neg (by simp [h.clean]), h.reads]

theorem opened_of_decode (h : Utf8.decode bytes = .ok text) : (w.opened p (.ok bytes)).2 = .ok () ∧
    (w.opened p (.ok bytes)).1.Holds p (unifyNewlines text) := by
  rw [opened, h]
  exact ⟨rfl, rfl, .load _ _⟩

theorem opened_iff : (w.opened p (.ok bytes)).2 = .ok () ↔ bytes.toByteArray.IsValidUTF8 := by
  rw [← Utf8.exists_decode_iff]
  constructor
  · intro h
    rw [opened] at h
    cases hdecode : Utf8.decode bytes with
    | error e =>
      rw [hdecode] at h
      cases h
    | ok text => exact ⟨text, rfl⟩
  · rintro ⟨text, htext⟩
    exact (opened_of_decode htext).1

end Opening

section Interlude

theorem Holds.notifyAll (h : w.Holds p text) (messages : List String) :
    (messages.foldl (fun w m => w.notify (.status m 4000)) w).Holds p text := by
  induction messages generalizing w with
  | nil => exact h
  | cons m messages ih => exact ih ⟨h.path, h.editor⟩

theorem Holds.editorStep (h : w.Holds p text) (backend : Backend) {s : Editor.Step} (hs : s.isEdit = false) :
    (w.editorStep backend s).1.Holds p text := by
  have hstep : Window.Holds { w with editor := (w.editor.step backend s).1 } p text :=
    ⟨h.path, h.editor.step backend hs⟩
  exact hstep.notifyAll _

theorem Holds.follow (h : w.Holds p text) (backend : Backend) (hsteps : ∀ s ∈ steps, s.isEdit = false) :
    (w.follow backend steps).Holds p text := by
  induction steps generalizing w with
  | nil => exact h
  | cons s steps ih =>
    obtain ⟨hs, hrest⟩ := List.forall_mem_cons.mp hsteps
    exact ih (h.editorStep backend hs) hrest

end Interlude

section Saving

theorem saved_tree (w : Window) (p : Path) (answer : Except String Unit) : (w.saved p answer).1.tree = w.tree := by
  cases answer <;> rfl

theorem Holds.saveBy (h : w.Holds p text) (hclean : hasNull p = false) (sys : System) (chosen : Text) :
    w.saveBy sys chosen = saved { w with tree := (sys.write p (Utf8.encode text)).1 } p
      (sys.write p (Utf8.encode text)).2 := by
  have hsame : { w with path := some p } = w := by rw [← h.path]
  rw [Window.saveBy, h.path]
  dsimp only
  rw [savePath, hsame, if_neg (by simp [hclean]), h.editor.text, ← h.path]

end Saving

/-- A file that is valid can be opened, and only then. Whatever happens until it is saved, as long as that is no edit,
what the system is then asked to write are the bytes that were read, with their line ends unified. -/
theorem saveBy_unedited (h : w.Names sys path p bytes) (backend : Backend) (hsteps : ∀ s ∈ steps, s.isEdit = false)
    (chosen : Text) :
    ((w.openBy sys path).2 = .ok () ↔ bytes.toByteArray.IsValidUTF8) ∧
    (unifyLineEnds bytes = bytes ↔ 0x0d ∉ bytes) ∧
    (bytes.toByteArray.IsValidUTF8 → ∀ sys' : System,
      let later := (w.openBy sys path).1.follow backend steps
      let written := sys'.write p (unifyLineEnds bytes)
      later.saveBy sys' chosen = saved { later with tree := written.1 } p written.2 ∧
      (sys'.CarriesOut p (unifyLineEnds bytes) →
        (later.saveBy sys' chosen).1.tree.read p = .ok (unifyLineEnds bytes))) := by
  rw [openBy_eq h]
  refine ⟨opened_iff, unifyLineEnds_eq_self_iff, fun hvalid sys' => ?_⟩
  intro later written
  obtain ⟨text, htext⟩ := Utf8.exists_decode_iff.mpr hvalid
  have hlater : later.Holds p (unifyNewlines text) := (opened_of_decode htext).2.follow backend hsteps
  have hbytes : Utf8.encode (unifyNewlines text) = unifyLineEnds bytes := by
    rw [Utf8.encode_unifyNewlines, ← Utf8.decode_eq_ok_iff.mp htext]
  have hsave := hlater.saveBy h.clean sys' chosen
  rw [hbytes] at hsave
  refine ⟨hsave, fun hcarries => ?_⟩
  rw [hsave, saved_tree]
  exact hcarries

theorem saveBy_unedited_home :
    let bytes : Bytes := [0xc3, 0xa9, 0x0d, 0x0a, 0x0a, 0x0d]
    let p := Path.ofText "home/f.py".toList
    let w := (start (.add .empty p bytes) (.ofText "home".toList) [] []).1
    let sys := w.tree.system
    let steps : List Editor.Step := [.move 1, .command .toggleTitles, .rested, .idle]
    w.Names sys "~/f.py".toList p bytes ∧ (∀ s ∈ steps, s.isEdit = false) ∧ bytes.toByteArray.IsValidUTF8 ∧
      sys.CarriesOut p (unifyLineEnds bytes) ∧
      (((w.openBy sys "~/f.py".toList).1.follow (fun _ => .value .null) steps).saveBy sys []).1.tree.read p =
        .ok [0xc3, 0xa9, 0x0a, 0x0a, 0x0a] := by
  intro bytes p w sys steps
  have hnames : w.Names sys "~/f.py".toList p bytes := ⟨by decide, by decide, by decide⟩
  have hsteps : ∀ s ∈ steps, s.isEdit = false := by simp [steps, Editor.Step.isEdit]
  have hvalid : bytes.toByteArray.IsValidUTF8 := by decide
  have hcarries : sys.CarriesOut p (unifyLineEnds bytes) :=
    show (sys.write p (unifyLineEnds bytes)).1.read p = .ok (unifyLineEnds bytes) by decide
  have hlines : unifyLineEnds bytes = [0xc3, 0xa9, 0x0a, 0x0a, 0x0a] := by decide
  have hsaved := ((saveBy_unedited hnames (fun _ => .value .null) hsteps []).2.2 hvalid sys).2 hcarries
  rw [hlines] at hsaved
  exact ⟨hnames, hsteps, hvalid, hcarries, hsaved⟩

theorem saveFile_drops_return :
    let bytes : Bytes := [0x61, 0x0d, 0x0a]
    let p := Path.ofText "f.py".toList
    let w := (start (.add .empty p bytes) (.ofText "home".toList) [] []).1
    let opened := w.openFile "f.py".toList
    w.Names w.tree.system "f.py".toList p bytes ∧ bytes.toByteArray.IsValidUTF8 ∧ opened.2 = .ok () ∧
      (opened.1.saveFile []).1.tree.read p = .ok [0x61, 0x0a] ∧ (opened.1.saveFile []).1.tree.read p ≠ .ok bytes := by
  intro bytes p w opened
  have hread : (opened.1.saveFile []).1.tree.read p = .ok [0x61, 0x0a] := by decide
  refine ⟨⟨by decide, by decide, by decide⟩, by decide, rfl, hread, ?_⟩
  rw [hread]
  decide

end Window

end Literate
