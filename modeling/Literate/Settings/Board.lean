import Literate.Settings.Store

/-!
Listeners that answer a change with requests of their own. A change is told to the listeners of its moment one
after the other, and each one's requests are carried out before the next one is told; a request that fails
ends all rounds that are under way. `release` gives back the handle of a subscription.
-/

namespace Literate

inductive Request (ι : Type)
  | get (key : Value)
  | set (key value : Value)
  | update (values : List (Value × Value))
  | toggle (key : Value)
  | reset
  | subscribe (listener : ι) (reaction : List (Request ι))
  | unsubscribe (listener : ι) (reaction : List (Request ι))
  | release (listener : ι)

/-- A reaction is kept from the first request that names its listener; `told` is the record of all rounds. -/
structure Board (ι : Type) where
  store : Store ι
  reactions : List (ι × List (Request ι))
  told : List (ι × Settings)

namespace Board

variable {ι : Type}

def ofDefaults (defaults : Settings) : Board ι := ⟨.ofDefaults defaults, [], []⟩

abbrev Result (ι α : Type) := Board ι × Except SettingsError α

def runAll (run : Board ι → Request ι → Result ι Value) (b : Board ι) :
    List (Request ι) → Result ι Unit
  | [] => (b, .ok ())
  | request :: rest =>
    match run b request with
    | (b, .ok _) => runAll run b rest
    | (b, .error e) => (b, .error e)

variable [DecidableEq ι]

def reaction (b : Board ι) (listener : ι) : List (Request ι) := (b.reactions.lookup listener).getD []

def introduce (b : Board ι) (listener : ι) (reaction : List (Request ι)) : Board ι :=
  match b.reactions.lookup listener with
  | some _ => b
  | none => { b with reactions := b.reactions ++ [(listener, reaction)] }

@[simp] theorem introduce_store (b : Board ι) (listener : ι) (reaction : List (Request ι)) :
    (b.introduce listener reaction).store = b.store := by
  rw [introduce]
  split <;> rfl

@[simp] theorem introduce_told (b : Board ι) (listener : ι) (reaction : List (Request ι)) :
    (b.introduce listener reaction).told = b.told := by
  rw [introduce]
  split <;> rfl

theorem reaction_introduce (b : Board ι) (listener : ι) (reaction : List (Request ι)) (l : ι) :
    (b.introduce listener reaction).reaction l = b.reaction l ∨
      (b.introduce listener reaction).reaction l = reaction := by
  rw [introduce]
  split
  · exact .inl rfl
  · rw [Board.reaction, List.lookup_append, Board.reaction]
    cases b.reactions.lookup l with
    | some found => exact .inl rfl
    | none =>
      rw [Option.none_or, List.lookup_cons]
      split
      · exact .inr rfl
      · exact .inl rfl

def tell (run : Board ι → Request ι → Result ι Value) (settings : Settings) (b : Board ι) :
    List ι → Result ι Unit
  | [] => (b, .ok ())
  | listener :: rest =>
    match runAll run { b with told := b.told ++ [(listener, settings)] } (b.reaction listener) with
    | (b, .ok _) => tell run settings b rest
    | (b, .error e) => (b, .error e)

def announce (run : Board ι → Request ι → Result ι Value) (b : Board ι) (c : Change ι) (value : Value) :
    Result ι Value :=
  match tell run c.store.current { b with store := c.store } c.audience with
  | (b, .ok _) => (b, .ok value)
  | (b, .error e) => (b, .error e)

/-- Rounds may nest as deep as `depth`; requests inside the last one are dropped. -/
def perform : (depth : Nat) → Board ι → Request ι → Result ι Value
  | 0, b, _ => (b, .ok .null)
  | depth + 1, b, request =>
    match request with
    | .get key => (b, b.store.get key)
    | .set key value =>
      match b.store.set key value with
      | .error e => (b, .error e)
      | .ok c => announce (perform depth) b c (.bool c.changed)
    | .update values =>
      match b.store.update values with
      | .error e => (b, .error e)
      | .ok c => announce (perform depth) b c (.bool c.changed)
    | .toggle key =>
      match b.store.toggle key with
      | .error e => (b, .error e)
      | .ok (c, value) => announce (perform depth) b c (.bool value)
    | .reset => announce (perform depth) b b.store.reset (.bool b.store.reset.changed)
    | .subscribe listener reaction =>
      let b := b.introduce listener reaction
      ({ b with store := b.store.subscribe listener }, .ok .null)
    | .unsubscribe listener reaction =>
      let b := b.introduce listener reaction
      ({ b with store := b.store.unsubscribe listener }, .ok .null)
    | .release listener => ({ b with store := b.store.unsubscribe listener }, .ok .null)

end Board

end Literate
