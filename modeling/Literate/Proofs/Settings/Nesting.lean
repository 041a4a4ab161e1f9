import Mathlib.Data.List.Basic
import Mathlib.Logic.Relation
import Literate.Proofs.Settings.History

/-!
Listeners that change the settings while they are told. A change starts a round of its own before the round under way
goes on, so the older round tells its remaining listeners settings that are in force no longer. Nobody misses the last
change, but one who stands behind a listener that changes the settings may be told older ones after it.
-/

namespace Literate

variable {ι : Type}

structure Delivery (ι : Type) where
  listener : ι
  settings : Settings
  inForce : Settings
deriving DecidableEq, Repr

namespace Delivery

def Overtaken (d : Delivery ι) : Prop := d.settings ≠ d.inForce

instance (d : Delivery ι) : Decidable d.Overtaken := inferInstanceAs (Decidable (_ ≠ _))

def note (d : Delivery ι) : ι × Settings := (d.listener, d.settings)

end Delivery

structure Round (ι : Type) where
  settings : Settings
  working : ι
  waiting : List ι

/-- An operation on a store that is not over yet. The last round that was started comes first; `changers` are the
listeners that changed the settings while they were told. -/
structure Exchange (ι : Type) where
  store : Store ι
  rounds : List (Round ι)
  deliveries : List (Delivery ι)
  changers : List ι

namespace Exchange

def ofStore (store : Store ι) : Exchange ι := ⟨store, [], [], []⟩

def publish (x : Exchange ι) (settings : Settings) : Exchange ι where
  store := (x.store.publish settings).store
  rounds :=
    match x.store.listeners with
    | [] => x.rounds
    | l :: waiting => ⟨settings, l, waiting⟩ :: x.rounds
  deliveries := x.deliveries ++ (x.store.listeners.head?.map fun l => ⟨l, settings, settings⟩).toList
  changers := x.changers ++ (x.rounds.head?.map Round.working).toList

def Precedes (x : Exchange ι) (k l : ι) : Prop := [k, l].Sublist x.store.listeners

section Publish

variable {x y : Exchange ι} {settings : Settings} {r : Round ι}

theorem Precedes.mono {k l : ι} {more : List ι} (h : x.Precedes k l)
    (hmore : y.store.listeners = x.store.listeners ++ more) : y.Precedes k l := by
  rw [Precedes, hmore]
  exact List.Sublist.trans h (List.sublist_append_left _ _)

theorem precedes_of_round (h : (r.working :: r.waiting).Sublist x.store.listeners) {l : ι} (hl : l ∈ r.waiting) :
    x.Precedes r.working l :=
  ((List.singleton_sublist.mpr hl).cons_cons r.working).trans h

@[simp] theorem publish_listeners (x : Exchange ι) (settings : Settings) :
    (x.publish settings).store.listeners = x.store.listeners := Store.publish_listeners _ _

@[simp] theorem publish_current (x : Exchange ι) (settings : Settings) : (x.publish settings).store.current = settings :=
  Store.publish_current _ _

theorem mem_rounds_publish (h : r ∈ (x.publish settings).rounds) :
    r ∈ x.rounds ∨ r.settings = settings ∧ r.working :: r.waiting = x.store.listeners := by
  rw [publish] at h
  cases hl : x.store.listeners with
  | nil => exact .inl (by simpa [hl] using h)
  | cons l waiting =>
    simp only [hl, List.mem_cons] at h
    rcases h with rfl | h
    · exact .inr ⟨rfl, rfl⟩
    · exact .inl h

theorem mem_tail_publish (h : r ∈ (x.publish settings).rounds.tail) : r ∈ x.rounds := by
  rw [publish] at h
  cases hl : x.store.listeners with
  | nil =>
    simp only [hl] at h
    exact List.mem_of_mem_tail h
  | cons l waiting => simpa [hl] using h

theorem mem_deliveries_publish {d : Delivery ι} (h : d ∈ (x.publish settings).deliveries) :
    d ∈ x.deliveries ∨ ¬d.Overtaken ∧ d.listener ∈ x.store.listeners := by
  rw [publish] at h
  cases hl : x.store.listeners with
  | nil => exact .inl (by simpa [hl] using h)
  | cons l waiting =>
    simp only [hl, List.head?_cons, Option.map_some, Option.toList_some, List.mem_append, List.mem_singleton] at h
    rcases h with h | rfl
    · exact .inl h
    · exact .inr ⟨not_not_intro rfl, List.mem_cons_self⟩

end Publish

variable [DecidableEq ι]

inductive Step : Exchange ι → Exchange ι → Prop
  | subscribe {x : Exchange ι} (l : ι) (work : x.rounds ≠ []) : Step x { x with store := x.store.subscribe l }
  | publish {x : Exchange ι} (settings : Settings) (work : x.rounds ≠ []) (change : settings ≠ x.store.current) :
    Step x (x.publish settings)
  | next {x : Exchange ι} {settings : Settings} {k l : ι} {waiting : List ι} {rounds : List (Round ι)}
    (top : x.rounds = ⟨settings, k, l :: waiting⟩ :: rounds) :
    Step x { x with
      rounds := ⟨settings, l, waiting⟩ :: rounds
      deliveries := x.deliveries ++ [⟨l, settings, x.store.current⟩] }
  | back {x : Exchange ι} {settings : Settings} {k : ι} {rounds : List (Round ι)}
    (top : x.rounds = ⟨settings, k, []⟩ :: rounds) : Step x { x with rounds }

inductive Operation (store : Store ι) : Exchange ι → Prop
  | idle : Operation store (ofStore store)
  | change {x : Exchange ι} (settings : Settings) (change : settings ≠ store.current)
    (run : Relation.ReflTransGen Step ((ofStore store).publish settings) x) (ended : x.rounds = []) : Operation store x

def last? (x : Exchange ι) (l : ι) : Option (Delivery ι) := (x.deliveries.filter fun d => d.listener = l).getLast?

structure Sound (x : Exchange ι) : Prop where
  listens : ∀ d ∈ x.deliveries, d.listener ∈ x.store.listeners
  reached : ∀ l ∈ x.store.listeners, ∀ d, x.last? l = some d →
    d.inForce = x.store.current ∨ ∃ r ∈ x.rounds, l ∈ r.waiting
  order : ∀ r ∈ x.rounds, (r.working :: r.waiting).Sublist x.store.listeners
  started : ∀ r ∈ x.rounds.tail, r.working ∈ x.changers
  behind : ∀ r ∈ x.rounds, r.settings ≠ x.store.current → ∃ k ∈ x.changers, ∀ l ∈ r.waiting, x.Precedes k l
  overtaken : ∀ d ∈ x.deliveries, d.Overtaken → ∃ k ∈ x.changers, x.Precedes k d.listener

variable {x y : Exchange ι}

theorem listener_of_last? {l : ι} {d : Delivery ι} (h : x.last? l = some d) : d ∈ x.deliveries ∧ d.listener = l := by
  have hd := List.mem_of_getLast? h
  rw [List.mem_filter] at hd
  exact ⟨hd.1, of_decide_eq_true hd.2⟩

theorem last?_of_concat {l : ι} {d : Delivery ι} (h : y.deliveries = x.deliveries ++ [d]) :
    y.last? l = if d.listener = l then some d else x.last? l := by
  rw [last?, h, List.filter_append]
  by_cases hd : d.listener = l
  · simp [hd]
  · simp [hd, last?]

namespace Sound

theorem subscribe (h : x.Sound) (l : ι) : Sound { x with store := x.store.subscribe l } := by
  obtain ⟨more, hmore, hcurrent⟩ : ∃ more, (x.store.subscribe l).listeners = x.store.listeners ++ more ∧
      (x.store.subscribe l).current = x.store.current := by
    refine ⟨if l ∈ x.store.listeners then [] else [l], ?_, Store.subscribe_current _ _⟩
    rw [Store.subscribe]
    split
    · exact (List.append_nil _).symm
    · rfl
  have hmono : ∀ {k k' : ι}, x.Precedes k k' → Precedes { x with store := x.store.subscribe l } k k' :=
    fun hk => hk.mono hmore
  constructor
  case listens =>
    intro d hd
    dsimp only
    rw [hmore]
    exact List.mem_append_left _ (h.listens d hd)
  case reached =>
    intro k hk d hd
    obtain ⟨hmem, rfl⟩ := listener_of_last? hd
    dsimp only
    rw [hcurrent]
    exact h.reached d.listener (h.listens d hmem) d hd
  case order =>
    intro r hr
    dsimp only
    rw [hmore]
    exact (h.order r hr).trans (List.sublist_append_left _ _)
  case started => exact h.started
  case behind =>
    intro r hr hne
    dsimp only at hne
    rw [hcurrent] at hne
    obtain ⟨k, hk, hfront⟩ := h.behind r hr hne
    exact ⟨k, hk, fun l' hl' => hmono (hfront l' hl')⟩
  case overtaken =>
    intro d hd hover
    obtain ⟨k, hk, hfront⟩ := h.overtaken d hd hover
    exact ⟨k, hk, hmono hfront⟩

theorem publish (h : x.Sound) (settings : Settings) : (x.publish settings).Sound := by
  have hmono : ∀ {k k' : ι}, x.Precedes k k' → (x.publish settings).Precedes k k' := fun hk =>
    hk.mono (by rw [publish_listeners, List.append_nil])
  have hchangers : ∀ k ∈ x.changers, k ∈ (x.publish settings).changers := fun k hk => List.mem_append_left _ hk
  have hworking : ∀ r ∈ x.rounds, r.working ∈ (x.publish settings).changers := by
    intro r hr
    cases hrounds : x.rounds with
    | nil => simp [hrounds] at hr
    | cons top rest =>
      rw [hrounds] at hr
      rcases List.mem_cons.mp hr with rfl | hr
      · simp [Exchange.publish, hrounds]
      · exact hchangers _ (h.started r (by rw [hrounds]; exact hr))
  constructor
  case listens =>
    intro d hd
    rw [publish_listeners]
    rcases mem_deliveries_publish hd with hd | ⟨-, hl⟩
    · exact h.listens d hd
    · exact hl
  case reached =>
    intro k hk d hd
    rw [publish_listeners] at hk
    obtain ⟨l, waiting, hl⟩ := List.exists_cons_of_ne_nil (List.ne_nil_of_mem hk)
    have hdeliveries : (x.publish settings).deliveries = x.deliveries ++ [⟨l, settings, settings⟩] := by
      simp [Exchange.publish, hl]
    have hround : ⟨settings, l, waiting⟩ ∈ (x.publish settings).rounds := by simp [Exchange.publish, hl]
    rw [last?_of_concat hdeliveries] at hd
    rw [publish_current]
    rw [hl] at hk
    split at hd
    · obtain rfl := Option.some.inj hd
      exact .inl rfl
    · rename_i hne
      exact .inr ⟨_, hround, (List.mem_cons.mp hk).resolve_left fun he => hne he.symm⟩
  case order =>
    intro r hr
    rw [publish_listeners]
    rcases mem_rounds_publish hr with hr | ⟨-, hl⟩
    · exact h.order r hr
    · rw [hl]
  case started => exact fun r hr => hworking r (mem_tail_publish hr)
  case behind =>
    intro r hr hne
    rw [publish_current] at hne
    rcases mem_rounds_publish hr with hr | ⟨hs, -⟩
    · exact ⟨r.working, hworking r hr, fun k hk => hmono (precedes_of_round (h.order r hr) hk)⟩
    · exact absurd hs hne
  case overtaken =>
    intro d hd hover
    rcases mem_deliveries_publish hd with hd | ⟨hnot, -⟩
    · obtain ⟨k, hk, hfront⟩ := h.overtaken d hd hover
      exact ⟨k, hchangers k hk, hmono hfront⟩
    · exact absurd hover hnot

variable {settings : Settings} {k l : ι} {waiting : List ι} {rounds : List (Round ι)}

theorem next (h : x.Sound) (top : x.rounds = ⟨settings, k, l :: waiting⟩ :: rounds) :
    Sound { x with
      rounds := ⟨settings, l, waiting⟩ :: rounds
      deliveries := x.deliveries ++ [⟨l, settings, x.store.current⟩] } := by
  have htop : ⟨settings, k, l :: waiting⟩ ∈ x.rounds := top ▸ List.mem_cons_self
  have hrest : ∀ r ∈ rounds, r ∈ x.rounds := fun r hr => top ▸ List.mem_cons_of_mem _ hr
  have horder : (l :: waiting).Sublist x.store.listeners := (List.sublist_cons_self _ _).trans (h.order _ htop)
  constructor
  case listens =>
    intro d hd
    rcases List.mem_append.mp hd with hd | hd
    · exact h.listens d hd
    · obtain rfl := List.mem_singleton.mp hd
      exact horder.subset List.mem_cons_self
  case reached =>
    intro k' hk' d hd
    rw [last?_of_concat (x := x) rfl] at hd
    split at hd
    · obtain rfl := Option.some.inj hd
      exact .inl rfl
    · rename_i hne
      rcases h.reached k' hk' d hd with hforce | ⟨r, hr, hwait⟩
      · exact .inl hforce
      · rw [top] at hr
        rcases List.mem_cons.mp hr with rfl | hr
        · exact .inr ⟨_, List.mem_cons_self, (List.mem_cons.mp hwait).resolve_left fun he => hne he.symm⟩
        · exact .inr ⟨r, List.mem_cons_of_mem _ hr, hwait⟩
  case order =>
    intro r hr
    rcases List.mem_cons.mp hr with rfl | hr
    · exact horder
    · exact h.order r (hrest r hr)
  case started => exact fun r hr => h.started r (by rw [top]; exact hr)
  case behind =>
    intro r hr hne
    rcases List.mem_cons.mp hr with rfl | hr
    · obtain ⟨c, hc, hfront⟩ := h.behind _ htop hne
      exact ⟨c, hc, fun l' hl' => hfront l' (List.mem_cons_of_mem _ hl')⟩
    · exact h.behind r (hrest r hr) hne
  case overtaken =>
    intro d hd hover
    rcases List.mem_append.mp hd with hd | hd
    · exact h.overtaken d hd hover
    · obtain rfl := List.mem_singleton.mp hd
      obtain ⟨c, hc, hfront⟩ := h.behind _ htop hover
      exact ⟨c, hc, hfront l List.mem_cons_self⟩

theorem back (h : x.Sound) (top : x.rounds = ⟨settings, k, []⟩ :: rounds) : Sound { x with rounds } := by
  have hmem : ∀ r ∈ rounds, r ∈ x.rounds := fun r hr => top ▸ List.mem_cons_of_mem _ hr
  constructor
  case listens => exact h.listens
  case reached =>
    intro l hl d hd
    rcases h.reached l hl d hd with hforce | ⟨r, hr, hwait⟩
    · exact .inl hforce
    · rw [top] at hr
      rcases List.mem_cons.mp hr with rfl | hr
      · simp at hwait
      · exact .inr ⟨r, hr, hwait⟩
  case order => exact fun r hr => h.order r (hmem r hr)
  case started => exact fun r hr => h.started r (by rw [top]; exact List.mem_of_mem_tail hr)
  case behind => exact fun r hr => h.behind r (hmem r hr)
  case overtaken => exact h.overtaken

end Sound

theorem sound_ofStore (store : Store ι) : (ofStore store).Sound where
  listens _ hd := absurd hd List.not_mem_nil
  reached _ _ _ hd := absurd (listener_of_last? hd).1 List.not_mem_nil
  order _ hr := absurd hr List.not_mem_nil
  started _ hr := absurd hr List.not_mem_nil
  behind _ hr := absurd hr List.not_mem_nil
  overtaken _ hd := absurd hd List.not_mem_nil

theorem Step.sound (h : Step x y) (hx : x.Sound) : y.Sound := by
  cases h with
  | subscribe l => exact hx.subscribe l
  | publish settings => exact hx.publish settings
  | next top => exact hx.next top
  | back top => exact hx.back top

theorem sound_of_run (h : Relation.ReflTransGen Step x y) (hx : x.Sound) : y.Sound := by
  induction h with
  | refl => exact hx
  | tail _ hstep ih => exact hstep.sound ih

namespace Operation

variable {store : Store ι}

theorem sound (h : Operation store x) : x.Sound := by
  cases h with
  | idle => exact sound_ofStore store
  | change settings _ run => exact sound_of_run run ((sound_ofStore store).publish settings)

theorem ended (h : Operation store x) : x.rounds = [] := by
  cases h with
  | idle => rfl
  | change _ _ _ ended => exact ended

end Operation

end Exchange

namespace Request

mutual

def steady : Request ι → Bool
  | subscribe _ reaction => steadyAll reaction
  | unsubscribe _ _ => false
  | release _ => false
  | _ => true

def steadyAll : List (Request ι) → Bool
  | [] => true
  | r :: rest => r.steady && steadyAll rest

end

end Request

namespace Board

open Relation Exchange

variable [DecidableEq ι] {b after : Board ι} {x : Exchange ι} {told : List (ι × Settings)}

def Steady (b : Board ι) : Prop := ∀ l, Request.steadyAll (b.reaction l) = true

structure Mirrors (told : List (ι × Settings)) (b : Board ι) (x : Exchange ι) : Prop where
  store : x.store = b.store
  told : b.told = told ++ x.deliveries.map Delivery.note

def Leads (told : List (ι × Settings)) (x : Exchange ι) (rounds : List (Round ι)) (after : Board ι) : Prop :=
  after.Steady ∧ ∃ y, ReflTransGen Step x y ∧ y.rounds = rounds ∧ Mirrors told after y

def Follows (run : Board ι → Request ι → Result ι Value) : Prop :=
  ∀ {b after : Board ι} {r : Request ι} {value : Value} {x : Exchange ι} {told : List (ι × Settings)}, b.Steady →
    r.steady = true → run b r = (after, .ok value) → Mirrors told b x → x.rounds ≠ [] → Leads told x x.rounds after

theorem Steady.introduce (hb : b.Steady) (l : ι) {reaction : List (Request ι)}
    (hr : Request.steadyAll reaction = true) : (b.introduce l reaction).Steady := by
  intro k
  rcases reaction_introduce b l reaction k with h | h
  · rw [h]
    exact hb k
  · rwa [h]

theorem Leads.trans {y : Exchange ι} {rounds : List (Round ι)} (hxy : ReflTransGen Step x y) (h : Leads told y rounds after) :
    Leads told x rounds after := by
  obtain ⟨hsteady, z, hyz, hrounds, hz⟩ := h
  exact ⟨hsteady, z, hxy.trans hyz, hrounds, hz⟩

section Follows

variable {run : Board ι → Request ι → Result ι Value}

theorem runAll_leads (hrun : Follows run) {rs : List (Request ι)} (hb : b.Steady) (hrs : Request.steadyAll rs = true)
    (h : runAll run b rs = (after, .ok ())) (hx : Mirrors told b x) (hwork : x.rounds ≠ []) :
    Leads told x x.rounds after := by
  induction rs generalizing b x with
  | nil =>
    obtain ⟨rfl, -⟩ := Prod.mk.inj h
    exact ⟨hb, x, .refl, rfl, hx⟩
  | cons r rs ih =>
    obtain ⟨hr, hrs⟩ : r.steady = true ∧ Request.steadyAll rs = true := by simpa [Request.steadyAll] using hrs
    rw [runAll] at h
    cases ho : run b r with
    | mk mid o =>
      rw [ho] at h
      cases o with
      | error e => simp at h
      | ok value =>
        obtain ⟨hmid, y, hxy, hrounds, hy⟩ := hrun hb hr ho hx hwork
        have hleads := ih hmid hrs h hy (hrounds ▸ hwork)
        rw [hrounds] at hleads
        exact .trans hxy hleads

theorem work_leads (hrun : Follows run) {settings : Settings} {l : ι} {ls : List ι} {rounds : List (Round ι)}
    (hothers : ∀ {b : Board ι} {x : Exchange ι}, b.Steady → tell run settings b ls = (after, .ok ()) → Mirrors told b x →
      x.rounds = ⟨settings, l, ls⟩ :: rounds → Leads told x rounds after)
    (hb : b.Steady) (h : tell run settings b (l :: ls) = (after, .ok ()))
    (hx : Mirrors told { b with told := b.told ++ [(l, settings)] } x)
    (htop : x.rounds = ⟨settings, l, ls⟩ :: rounds) : Leads told x rounds after := by
  have hb' : Steady { b with told := b.told ++ [(l, settings)] } := hb
  rw [tell] at h
  cases ho : runAll run { b with told := b.told ++ [(l, settings)] } (b.reaction l) with
  | mk mid o =>
    rw [ho] at h
    cases o with
    | error e => simp at h
    | ok value =>
      obtain ⟨hmid, y, hxy, hrounds, hy⟩ := runAll_leads hrun hb' (hb l) ho hx (by rw [htop]; simp)
      exact .trans hxy (hothers hmid h hy (hrounds.trans htop))

theorem tell_leads (hrun : Follows run) {settings : Settings} {k : ι} {ls : List ι} {rounds : List (Round ι)} (hb : b.Steady)
    (h : tell run settings b ls = (after, .ok ())) (hx : Mirrors told b x)
    (htop : x.rounds = ⟨settings, k, ls⟩ :: rounds) : Leads told x rounds after := by
  -- who is at work changes from one listener to the next, so `k` is not fixed
  induction ls generalizing b x k with
  | nil =>
    obtain ⟨rfl, -⟩ := Prod.mk.inj h
    exact ⟨hb, _, .single (.back htop), rfl, hx.store, hx.told⟩
  | cons l ls ih =>
    refine .trans (.single (.next htop)) (work_leads hrun ih hb h ⟨hx.store, ?_⟩ rfl)
    rw [hx.told, List.append_assoc, List.map_append]
    rfl

theorem announce_leads (hrun : Follows run) {settings : Settings} {value answer : Value} (hb : b.Steady)
    (h : announce run b (b.store.publish settings) value = (after, .ok answer)) (hx : Mirrors told b x) :
    (settings = b.store.current ∧ after = b) ∨
      settings ≠ b.store.current ∧ Leads told (x.publish settings) x.rounds after := by
  have hb' : Steady { b with store := (b.store.publish settings).store } := hb
  have htell : tell run settings { b with store := (b.store.publish settings).store }
      (b.store.publish settings).audience = (after, .ok ()) := by
    rw [announce, Store.publish_current] at h
    split at h
    · rename_i ho
      obtain ⟨rfl, -⟩ := Prod.mk.inj h
      exact ho
    · simp at h
  by_cases hs : settings = b.store.current
  · refine .inl ⟨hs, ?_⟩
    rw [Change.audience, Store.publish_changed, decide_eq_false (not_not_intro hs)] at htell
    obtain ⟨rfl, -⟩ := Prod.mk.inj htell
    rw [Store.publish, if_pos hs]
  · refine .inr ⟨hs, ?_⟩
    rw [Change.audience, Store.publish_changed, decide_eq_true hs, if_pos rfl, Store.publish_listeners] at htell
    have hstore : (x.publish settings).store = (b.store.publish settings).store := by rw [Exchange.publish, hx.store]
    cases hl : b.store.listeners with
    | nil =>
      rw [hl] at htell
      obtain ⟨rfl, -⟩ := Prod.mk.inj htell
      refine ⟨hb', _, .refl, ?_, hstore, ?_⟩
      · simp [Exchange.publish, hx.store, hl]
      · simpa [Exchange.publish, hx.store, hl] using hx.told
    | cons l ls =>
      rw [hl] at htell
      refine work_leads hrun (tell_leads hrun) hb' htell ⟨hstore, ?_⟩ ?_
      · simp [Exchange.publish, hx.store, hl, hx.told, Delivery.note]
      · simp [Exchange.publish, hx.store, hl]

end Follows

theorem exists_announce {depth : Nat} {r : Request ι} {value : Value} (hr : r.operates = true)
    (h : perform (depth + 1) b r = (after, .ok value)) :
    ∃ settings answer, announce (perform depth) b (b.store.publish settings) answer = (after, .ok value) := by
  rcases perform_operates depth b hr with ⟨-, e, he⟩ | ⟨settings, answer, -, -, ha⟩
  · rw [he] at h
    nomatch (Prod.mk.inj h).2
  · exact ⟨settings, answer, ha ▸ h⟩

theorem perform_follows (depth : Nat) : Follows (perform depth : Board ι → Request ι → Result ι Value) := by
  -- on the depth, since the requests of a listener at work run one level further down
  induction depth with
  | zero =>
    intro b after r value x told hb _ h hx _
    obtain ⟨rfl, -⟩ := Prod.mk.inj h
    exact ⟨hb, x, .refl, rfl, hx⟩
  | succ depth ih =>
    intro b after r value x told hb hr h hx hwork
    cases ho : r.operates with
    | true =>
      obtain ⟨settings, answer, hannounce⟩ := exists_announce ho h
      rcases announce_leads ih hb hannounce hx with ⟨-, rfl⟩ | ⟨hs, hleads⟩
      · exact ⟨hb, x, .refl, rfl, hx⟩
      · rw [← hx.store] at hs
        exact .trans (.single (.publish settings hwork hs)) hleads
    | false =>
      cases r with
      | get key =>
        obtain ⟨rfl, -⟩ := Prod.mk.inj h
        exact ⟨hb, x, .refl, rfl, hx⟩
      | subscribe l reaction =>
        obtain ⟨rfl, -⟩ := Prod.mk.inj h
        refine ⟨hb.introduce l hr, _, .single (.subscribe l hwork), rfl, ?_, ?_⟩
        · rw [introduce_store, hx.store]
        · rw [introduce_told, hx.told]
      | unsubscribe l reaction => simp [Request.steady] at hr
      | release l => simp [Request.steady] at hr
      | _ => simp [Request.operates] at ho

theorem perform_operation {depth : Nat} {r : Request ι} {value : Value} (hb : b.Steady) (hr : r.operates = true)
    (h : perform depth b r = (after, .ok value)) :
    ∃ x, Operation b.store x ∧ x.store = after.store ∧ after.told = b.told ++ x.deliveries.map Delivery.note := by
  have hstart : Mirrors b.told b (ofStore b.store) := ⟨rfl, by simp [ofStore]⟩
  cases depth with
  | zero =>
    obtain ⟨rfl, -⟩ := Prod.mk.inj h
    exact ⟨_, .idle, hstart.store, hstart.told⟩
  | succ depth =>
    obtain ⟨settings, answer, hannounce⟩ := exists_announce hr h
    rcases announce_leads (perform_follows depth) hb hannounce hstart with ⟨-, rfl⟩ | ⟨hs, -, x, hrun, hover, hx⟩
    · exact ⟨_, .idle, hstart.store, hstart.told⟩
    · exact ⟨x, .change settings hs hrun hover, hx.store, hx.told⟩

/-- When an operation is over, each listener was last told at a moment when the final settings were in force already: it
was told these settings unless the round that told it had been overtaken, and then a listener in front of it has
changed the settings while it was told. Operations on a board go this way, whatever its listeners ask for. -/
theorem last_told_current_iff :
    (∀ {store : Store ι} {x : Exchange ι}, Operation store x → ∀ l ∈ x.store.listeners, ∀ d, x.last? l = some d →
      d.inForce = x.store.current ∧ (d.settings = x.store.current ↔ ¬d.Overtaken) ∧
        (d.Overtaken → ∃ k ∈ x.changers, x.Precedes k l)) ∧
      ∀ {depth : Nat} {b after : Board ι} {r : Request ι} {value : Value}, b.Steady → r.operates = true →
        perform depth b r = (after, .ok value) →
        ∃ x, Operation b.store x ∧ x.store = after.store ∧ after.told = b.told ++ x.deliveries.map Delivery.note := by
  refine ⟨fun {store x} h l hl d hd => ?_, perform_operation⟩
  obtain ⟨hmem, rfl⟩ := listener_of_last? hd
  have hforce : d.inForce = x.store.current := by
    rcases h.sound.reached d.listener hl d hd with hforce | ⟨r, hr, -⟩
    · exact hforce
    · rw [h.ended] at hr
      exact absurd hr List.not_mem_nil
  refine ⟨hforce, ?_, h.sound.overtaken d hmem⟩
  rw [Delivery.Overtaken, not_not, hforce]

theorem last_told_outdated :
    let b : Board Nat := ⟨{ (Store.ofDefaults {} : Store Nat) with listeners := [0, 1] },
      [(0, [.set (.text "hide_quotes".toList) (.bool false)])], []⟩
    let r : Request Nat := .set (.text "hide_title_markup".toList) (.bool true)
    b.Steady ∧ r.operates = true ∧
      ∃ x, Operation b.store x ∧ (∃ d, x.last? 1 = some d ∧ d.settings ≠ x.store.current) ∧ 0 ∈ x.changers := by
  intro b r
  have hsteady : b.Steady := by
    intro l
    by_cases hl : l = 0
    · subst hl
      rfl
    · have hnone : b.reaction l = [] := by
        have hbeq : (l == 0) = false := beq_false_of_ne hl
        simp only [b, reaction, List.lookup_cons, List.lookup_nil, hbeq, Option.getD_none]
      rw [hnone]
      rfl
  have hperform : perform 3 b r = ((perform 3 b r).1, .ok (.bool true)) := by rfl
  have hcurrent : (perform 3 b r).1.store.current = { hideTitleMarkup := true, hideQuotes := false } := by decide +kernel
  have hlisteners : (perform 3 b r).1.store.listeners = [0, 1] := by decide +kernel
  have htold : (perform 3 b r).1.told = [(0, { hideTitleMarkup := true }),
      (0, { hideTitleMarkup := true, hideQuotes := false }), (1, { hideTitleMarkup := true, hideQuotes := false }),
      (1, { hideTitleMarkup := true })] := by decide +kernel
  obtain ⟨x, hx, hstore, hnotes⟩ := last_told_current_iff.2 hsteady rfl hperform
  rw [← hstore] at hcurrent hlisteners
  have hnote : x.deliveries.getLast?.map Delivery.note = some (1, { hideTitleMarkup := true }) := by
    rw [← List.getLast?_map, ← List.nil_append (x.deliveries.map _), ← hnotes, htold]
    rfl
  obtain ⟨d, hd, hdn⟩ := Option.map_eq_some_iff.mp hnote
  obtain ⟨hlistener, hsettings⟩ := Prod.mk.inj hdn
  obtain ⟨front, hfront⟩ := List.getLast?_eq_some_iff.mp hd
  have hlast : x.last? 1 = some d := by rw [last?_of_concat (x := { x with deliveries := front }) hfront, if_pos hlistener]
  have houtdated : d.settings ≠ x.store.current := by
    rw [hsettings, hcurrent]
    decide
  obtain ⟨-, hiff, hfaster⟩ := last_told_current_iff.1 hx 1 (by rw [hlisteners]; decide) d hlast
  obtain ⟨k, hk, hprecedes⟩ := hfaster (not_not.mp fun hnot => houtdated (hiff.mpr hnot))
  rw [Precedes, hlisteners] at hprecedes
  obtain rfl : k = 0 := (List.cons.inj (hprecedes.eq_of_length rfl)).1
  exact ⟨hsteady, rfl, x, hx, ⟨d, hlast, houtdated⟩, hk⟩

end Board

end Literate
