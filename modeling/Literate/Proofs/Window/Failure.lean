import Literate.Proofs.Editor.Pending
import Literate.Window.Menu

namespace Literate

namespace Window

def Fails (w : Window) (o : Outcome Unit) : Prop :=
  (∃ fault, o.2 = .error fault) ∨ ∃ shown message, o.1.notices = w.notices ++ shown ++ [.warning message]

structure Keeps (w after : Window) (path : Option Path) : Prop where
  path : after.path = path
  title : after.title = w.title
  text : after.editor.text = w.editor.text

structure Shows (w : Window) (p : Path) (content : Text) : Prop where
  path : w.path = some p
  title : w.title = titled p.name
  text : w.editor.text = content

variable {sys : System} {w : Window} {o : Outcome Unit} {p : Path}

theorem not_fails_of_notices (shown : List Notice) (hok : o.2 = .ok ()) (h : o.1.notices = w.notices ++ shown)
    (hlast : ∀ message, shown.getLast? ≠ some (.warning message)) : ¬w.Fails o := by
  rintro (⟨fault, hfault⟩ | ⟨others, message, hothers⟩)
  · rw [hok] at hfault
    cases hfault
  · rw [h, List.append_assoc] at hothers
    apply hlast message
    rw [List.append_cancel_left hothers, List.getLast?_append, List.getLast?_singleton, Option.some_or]

theorem fails_of_warning (shown : List Notice) (message : String)
    (h : o.1.notices = w.notices ++ shown ++ [.warning message]) : w.Fails o := .inr ⟨shown, message, h⟩

section Opening

theorem text_load (e : Editor) (text : Text) : (e.load text).text = text := (Editor.setCursor_keeps _ 0).1

theorem opened_cases (w : Window) (p : Path) (answer : Except String Bytes) :
    w.Fails (w.opened p answer) ∧ w.Keeps (w.opened p answer).1 w.path ∨
      ¬w.Fails (w.opened p answer) ∧ ∃ content, (w.opened p answer).1.Shows p content := by
  cases answer with
  | error reason => exact .inl ⟨fails_of_warning [] _ (congrArg (· ++ _) (List.append_nil _).symm), rfl, rfl, rfl⟩
  | ok bytes =>
    rw [opened]
    cases Utf8.decode bytes with
    | error e => exact .inl ⟨.inl ⟨_, rfl⟩, rfl, rfl, rfl⟩
    | ok text =>
      refine .inr ⟨?_, unifyNewlines text, rfl, rfl, text_load _ _⟩
      exact not_fails_of_notices [] rfl (List.append_nil _).symm (by simp)

theorem openBy_cases (sys : System) (w : Window) (path : Text) :
    w.Fails (w.openBy sys path) ∧ w.Keeps (w.openBy sys path).1 w.path ∨
      ¬w.Fails (w.openBy sys path) ∧ ∃ p content, (w.openBy sys path).1.Shows p content := by
  rw [openBy]
  cases (Path.ofText path).expandHome w.home w.users with
  | none => exact .inl ⟨.inl ⟨_, rfl⟩, rfl, rfl, rfl⟩
  | some p =>
    dsimp only
    split
    · exact .inl ⟨.inl ⟨_, rfl⟩, rfl, rfl, rfl⟩
    · exact (opened_cases w p _).imp_right (And.imp_right fun h => ⟨p, h⟩)

end Opening

section Saving

theorem saved_cases (w : Window) (answer : Except String Unit) (before : Window) (shown : List Notice)
    (hp : w.path = some p) (h : w.notices = before.notices ++ shown) :
    before.Fails (w.saved p answer) ∧ w.Keeps (w.saved p answer).1 (some p) ∨
      ¬before.Fails (w.saved p answer) ∧ (w.saved p answer).1.Shows p w.editor.text := by
  cases answer with
  | error reason => exact .inl ⟨fails_of_warning shown _ (congrArg (· ++ _) h), hp, rfl, rfl⟩
  | ok _ =>
    refine .inr ⟨?_, hp, congrArg (fun q : Option Path => titled (q.elim "untitled".toList Path.name)) hp, rfl⟩
    apply not_fails_of_notices (shown ++ [.status s!"Saved {String.ofList p.text}" 3000]) rfl
    · exact (congrArg (· ++ _) h).trans (List.append_assoc _ _ _)
    · simp

theorem savePath_cases (sys : System) (w : Window) (p : Path) (before : Window) (shown : List Notice)
    (h : w.notices = before.notices ++ shown) :
    before.Fails (w.savePath sys p) ∧ w.Keeps (w.savePath sys p).1 (some p) ∨
      ¬before.Fails (w.savePath sys p) ∧ (w.savePath sys p).1.Shows p w.editor.text := by
  rw [savePath]
  dsimp only
  split
  · exact .inl ⟨.inl ⟨_, rfl⟩, rfl, rfl, rfl⟩
  · -- The window has its new path before the system answers.
    let w' : Window := { w with path := some p, tree := (sys.write p (Utf8.encode w.editor.text)).1 }
    rcases saved_cases w' (sys.write p (Utf8.encode w.editor.text)).2 before shown rfl h with
      ⟨hfails, hkeeps⟩ | ⟨hdone, hshows⟩
    · exact .inl ⟨hfails, hkeeps.path, hkeeps.title, hkeeps.text⟩
    · exact .inr ⟨hdone, hshows⟩

theorem saveBy_cases (sys : System) (w : Window) (chosen : Text) :
    w.Fails (w.saveBy sys chosen) ∧ w.Keeps (w.saveBy sys chosen).1 (some (w.path.getD (.ofText chosen))) ∨
      ¬w.Fails (w.saveBy sys chosen) ∧ (w.Keeps (w.saveBy sys chosen).1 w.path ∨
        (w.saveBy sys chosen).1.Shows (w.path.getD (.ofText chosen)) w.editor.text) := by
  rw [saveBy]
  cases hp : w.path with
  | some p =>
    rcases savePath_cases sys w p w [] (List.append_nil _).symm with hfails | ⟨hdone, hshows⟩
    · exact .inl hfails
    · exact .inr ⟨hdone, .inr hshows⟩
  | none =>
    dsimp only
    split
    · have hdone : ¬w.Fails (w.notify .saveDialog, .ok ()) := not_fails_of_notices [.saveDialog] rfl rfl (by simp)
      exact .inr ⟨hdone, .inl ⟨hp, rfl, rfl⟩⟩
    · rcases savePath_cases sys (w.notify .saveDialog) (.ofText chosen) w [.saveDialog] rfl with
        ⟨hfails, hkeeps⟩ | ⟨hdone, hshows⟩
      · exact .inl ⟨hfails, hkeeps.path, hkeeps.title, hkeeps.text⟩
      · exact .inr ⟨hdone, .inr hshows⟩

end Saving

/-- A failed opening leaves the window as it was. A failed save does so exactly if the window had a file before; else
the path that was chosen stays, and later saves go there without asking. -/
theorem fails_keeps_iff (sys : System) (w : Window) :
    (∀ path, (w.Fails (w.openBy sys path) → w.Keeps (w.openBy sys path).1 w.path) ∧
      (¬w.Fails (w.openBy sys path) → ∃ p content, (w.openBy sys path).1.Shows p content)) ∧
    ∀ chosen, (w.Fails (w.saveBy sys chosen) →
        w.Keeps (w.saveBy sys chosen).1 (some (w.path.getD (.ofText chosen))) ∧
        (w.Keeps (w.saveBy sys chosen).1 w.path ↔ w.path.isSome = true)) ∧
      (¬w.Fails (w.saveBy sys chosen) → w.Keeps (w.saveBy sys chosen).1 w.path ∨
        (w.saveBy sys chosen).1.Shows (w.path.getD (.ofText chosen)) w.editor.text) := by
  constructor
  · intro path
    rcases openBy_cases sys w path with ⟨hfails, hkeeps⟩ | ⟨hdone, hshows⟩
    · exact ⟨fun _ => hkeeps, fun h => absurd hfails h⟩
    · exact ⟨fun h => absurd h hdone, fun _ => hshows⟩
  · intro chosen
    rcases saveBy_cases sys w chosen with ⟨hfails, hkeeps⟩ | ⟨hdone, hleft⟩
    · refine ⟨fun _ => ⟨hkeeps, fun hsame => ?_, fun hsome => ?_⟩, fun h => absurd hfails h⟩
      · rw [← hsame.path, hkeeps.path]
        rfl
      · obtain ⟨p, hp⟩ := Option.isSome_iff_exists.mp hsome
        rw [hp] at hkeeps ⊢
        exact hkeeps
    · exact ⟨fun h => absurd h hdone, fun _ => hleft⟩

theorem saveFile_missing_keeps_path :
    let w := (start .empty (.ofText "home".toList) [] []).1
    w.path = none ∧ w.Fails (w.saveFile "no/f".toList) ∧
      (w.saveFile "no/f".toList).1.path = some (.ofText "no/f".toList) ∧
      ¬w.Keeps (w.saveFile "no/f".toList).1 w.path := by
  intro w
  have hnone : w.path = none := rfl
  have hfails : w.Fails (w.saveFile "no/f".toList) := fails_of_warning [.saveDialog] _ (by rfl)
  obtain ⟨hkeeps, hiff⟩ := ((fails_keeps_iff w.tree.system w).2 "no/f".toList).1 hfails
  refine ⟨hnone, hfails, hkeeps.path, fun h => ?_⟩
  have hsome : w.path.isSome = true := hiff.mp h
  rw [hnone] at hsome
  cases hsome

end Window

end Literate
