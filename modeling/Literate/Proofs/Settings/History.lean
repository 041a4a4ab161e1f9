import Mathlib.Data.List.DropRight
import Mathlib.Data.List.Nodup
import Literate.Settings.Board

namespace Literate

variable {ι : Type} [DecidableEq ι]

namespace Request

def Quiet : Request ι → Prop
  | subscribe _ reaction => reaction = []
  | unsubscribe _ reaction => reaction = []
  | _ => True

def joins (l : ι) : Request ι → Bool
  | subscribe k _ => k = l
  | _ => false

def leaves (l : ι) : Request ι → Bool
  | unsubscribe k _ => k = l
  | release k => k = l
  | _ => false

def reports : Request ι → Bool
  | set _ _ => true
  | update _ => true
  | reset => true
  | _ => false

def operates : Request ι → Bool
  | set _ _ => true
  | update _ => true
  | toggle _ => true
  | reset => true
  | _ => false

def staying (l : ι) (history : List (Request ι)) : List (Request ι) := history.rtakeWhile fun r => !r.leaves l

def joined (l : ι) (history : List (Request ι)) : Option Nat :=
  ((staying l history).findIdx? (joins l)).map (history.length - (staying l history).length + ·)

theorem staying_concat (l : ι) (history : List (Request ι)) (r : Request ι) :
    staying l (history ++ [r]) = if r.leaves l then [] else staying l history ++ [r] := by
  rw [staying, List.rtakeWhile_concat]
  cases r.leaves l <;> rfl

theorem length_staying_le (l : ι) (history : List (Request ι)) : (staying l history).length ≤ history.length :=
  (List.rtakeWhile_suffix _ _).length_le

theorem joined_concat (l : ι) (history : List (Request ι)) (r : Request ι) :
    joined l (history ++ [r]) =
      if r.leaves l then none else (joined l history).or (if r.joins l then some history.length else none) := by
  have hlen := length_staying_le l history
  rw [joined, staying_concat]
  split
  · rfl
  · rw [List.findIdx?_append, joined, List.length_append, List.length_append, List.length_singleton,
      Nat.add_sub_add_right, List.findIdx?_singleton]
    cases (staying l history).findIdx? (joins l) with
    | some n => rfl
    | none =>
      cases r.joins l with
      | false => rfl
      | true =>
        simp only [if_true, Option.none_or, Option.map_some, Option.map_none]
        congr 1
        omega

theorem joined_lt {l : ι} {history : List (Request ι)} {n : Nat} (h : joined l history = some n) :
    n < history.length := by
  have hlen := length_staying_le l history
  obtain ⟨m, hm, rfl⟩ := Option.map_eq_some_iff.mp h
  have hlt := (List.findIdx?_eq_some_iff_findIdx_eq.mp hm).1
  omega

structure Seated (listeners : List ι) (history : List (Request ι)) : Prop where
  mem : ∀ l, l ∈ listeners ↔ (joined l history).isSome = true
  order : listeners.Pairwise fun k l => ∃ m n, joined k history = some m ∧ joined l history = some n ∧ m < n

namespace Seated

variable {listeners : List ι} {history : List (Request ι)} {r : Request ι}

theorem nodup (h : Seated listeners history) : listeners.Nodup := by
  refine h.order.imp fun {k l} hlt => ?_
  rintro rfl
  obtain ⟨m, n, hm, hn, hlt⟩ := hlt
  rw [hm] at hn
  injection hn with hn
  omega

theorem stay (h : Seated listeners history) (hr : ∀ l, r.joins l = false ∧ r.leaves l = false) :
    Seated listeners (history ++ [r]) := by
  have hsame : ∀ l, joined l (history ++ [r]) = joined l history := by
    intro l
    rw [joined_concat, (hr l).1, (hr l).2]
    exact Option.or_none
  constructor
  · intro l
    rw [hsame, h.mem]
  · refine h.order.imp fun {k l} hlt => ?_
    rwa [hsame, hsame]

theorem join (h : Seated listeners history) (l : ι) (reaction : List (Request ι)) :
    Seated (if l ∈ listeners then listeners else listeners ++ [l]) (history ++ [.subscribe l reaction]) := by
  have hafter : ∀ k, joined k (history ++ [.subscribe l reaction]) =
      (joined k history).or (if l = k then some history.length else none) := by
    intro k
    rw [joined_concat]
    simp [leaves, joins]
  have hkeep : ∀ k ∈ listeners, joined k (history ++ [.subscribe l reaction]) = joined k history := by
    intro k hk
    obtain ⟨n, hn⟩ := Option.isSome_iff_exists.mp ((h.mem k).mp hk)
    rw [hafter, hn, Option.some_or]
  have horder := h.order.imp_of_mem (S := fun k l' => ∃ m n, joined k (history ++ [.subscribe l reaction]) = some m ∧
      joined l' (history ++ [.subscribe l reaction]) = some n ∧ m < n) fun {k k'} hk hk' hlt => by
    rwa [hkeep k hk, hkeep k' hk']
  split
  · rename_i hl
    refine ⟨fun k => ?_, horder⟩
    by_cases hk : l = k
    · subst hk
      rw [hkeep l hl, h.mem]
    · rw [hafter, if_neg hk, Option.or_none, h.mem]
  · rename_i hl
    have hnew : joined l (history ++ [.subscribe l reaction]) = some history.length := by
      have hnone : joined l history = none := by
        rw [← Option.not_isSome_iff_eq_none, ← h.mem]
        exact hl
      rw [hafter, hnone, if_pos rfl, Option.none_or]
    constructor
    · intro k
      rw [List.mem_append, List.mem_singleton]
      by_cases hk : k = l
      · subst hk
        simp [hnew]
      · rw [hafter, if_neg (Ne.symm hk), Option.or_none, h.mem]
        simp [hk]
    · rw [List.pairwise_append]
      refine ⟨horder, List.pairwise_singleton _ _, fun k hk l' hl' => ?_⟩
      obtain rfl := List.mem_singleton.mp hl'
      obtain ⟨n, hn⟩ := Option.isSome_iff_exists.mp ((h.mem k).mp hk)
      exact ⟨n, history.length, by rw [hkeep k hk, hn], hnew, joined_lt hn⟩

theorem leave (h : Seated listeners history) (l : ι) (hj : ∀ k, r.joins k = false)
    (hl : ∀ k, r.leaves k = decide (l = k)) : Seated (listeners.erase l) (history ++ [r]) := by
  have hafter : ∀ k, joined k (history ++ [r]) = if l = k then none else joined k history := by
    intro k
    rw [joined_concat, hj, hl]
    simp
  constructor
  · intro k
    rw [h.nodup.mem_erase_iff, h.mem, hafter]
    by_cases hk : l = k
    · simp [hk]
    · simp [hk, Ne.symm hk]
  · refine (h.order.sublist List.erase_sublist).imp_of_mem fun {k k'} hk hk' hlt => ?_
    have hne := (h.nodup.mem_erase_iff.mp hk).1
    have hne' := (h.nodup.mem_erase_iff.mp hk').1
    rwa [hafter, hafter, if_neg (Ne.symm hne), if_neg (Ne.symm hne')]

end Seated

def seats : Request ι → Bool
  | subscribe _ _ => true
  | unsubscribe _ _ => true
  | release _ => true
  | _ => false

theorem stays_of_not_seats {r : Request ι} (h : r.seats = false) (l : ι) : r.joins l = false ∧ r.leaves l = false := by
  cases r with
  | subscribe k reaction => simp [seats] at h
  | unsubscribe k reaction => simp [seats] at h
  | release k => simp [seats] at h
  | _ => exact ⟨rfl, rfl⟩

end Request

namespace Board

theorem perform_operates (depth : Nat) (b : Board ι) {r : Request ι} (hr : r.operates = true) :
    (r ≠ .reset ∧ ∃ e, perform (depth + 1) b r = (b, .error e)) ∨
      ∃ settings answer,
        (settings = b.store.defaults ∨ ∃ values, b.store.current.withValues values = .ok settings) ∧
        (r.reports = true → answer = .bool (decide (settings ≠ b.store.current))) ∧
        perform (depth + 1) b r = announce (perform depth) b (b.store.publish settings) answer := by
  cases r with
  | set key value =>
    rw [perform]
    cases ho : b.store.set key value with
    | error e => exact .inl ⟨nofun, e, rfl⟩
    | ok c =>
      obtain ⟨settings, hv, rfl⟩ := Store.exists_of_update ho
      exact .inr ⟨settings, _, .inr ⟨_, hv⟩, fun _ => by rw [Store.publish_changed], rfl⟩
  | update values =>
    rw [perform]
    cases ho : b.store.update values with
    | error e => exact .inl ⟨nofun, e, rfl⟩
    | ok c =>
      obtain ⟨settings, hv, rfl⟩ := Store.exists_of_update ho
      exact .inr ⟨settings, _, .inr ⟨_, hv⟩, fun _ => by rw [Store.publish_changed], rfl⟩
  | toggle key =>
    rw [perform]
    cases ho : b.store.toggle key with
    | error e => exact .inl ⟨nofun, e, rfl⟩
    | ok p =>
      obtain ⟨values, hu⟩ := Store.exists_of_toggle ho
      obtain ⟨settings, hv, hc⟩ := Store.exists_of_update hu
      exact .inr ⟨settings, .bool p.2, .inr ⟨_, hv⟩, nofun, by rw [hc]⟩
  | reset => exact .inr ⟨b.store.defaults, _, .inl rfl, fun _ => by rw [Store.reset, Store.publish_changed], rfl⟩
  | _ => simp [Request.operates] at hr

end Board

end Literate
