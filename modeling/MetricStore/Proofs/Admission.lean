import Mathlib.Data.List.Induction
import MetricStore.Console.Admission

/-!
Which datasets are asked for and which are admitted, as acts go on.

A dataset that was asked for before is not asked for anew, so the datasets asked for only grow at
the end.  Below the limit whatever is asked for is admitted, and once the limit is reached nothing
new is.  Main statements:

* `admitted_concat_of_room`, `admitted_concat_of_full`: the datasets admitted after one more sample;
* `mem_admitted_iff_of_prefix`: whether a dataset is admitted is settled when it is first asked for.
-/

theorem List.nodup_eraseDups {α : Type} [BEq α] [LawfulBEq α] : ∀ l : List α, l.eraseDups.Nodup
  | [] => by
    rw [eraseDups_nil]
    exact nodup_nil
  | a :: rest => by
    have hnot : a ∉ (rest.filter fun b => !b == a).eraseDups := by
      rw [mem_eraseDups]
      simp
    rw [eraseDups_cons]
    exact nodup_cons.mpr ⟨hnot, nodup_eraseDups _⟩
termination_by l => l.length
decreasing_by exact Nat.lt_succ_of_le (length_filter_le _ _)

section

variable {α : Type} [BEq α] [LawfulBEq α] {l : List α} {a : α}

theorem List.eraseDups_concat_of_mem (h : a ∈ l) : (l ++ [a]).eraseDups = l.eraseDups := by
  rw [eraseDups_append, removeAll, filter_cons_of_neg (by simpa using h), filter_nil, eraseDups_nil,
    append_nil]

theorem List.eraseDups_concat_of_notMem (h : a ∉ l) : (l ++ [a]).eraseDups = l.eraseDups ++ [a] := by
  rw [eraseDups_append, removeAll, filter_cons_of_pos (by simpa using h), filter_nil]
  rfl

end

namespace MetricStore.Console

variable {limit : Option Nat} {acts : List Act} {a : Act} {key : Series × String}

/-! ### Datasets asked for -/

theorem mem_asked_iff : key ∈ asked acts ↔ ∃ a ∈ acts, a.asks = some key := by
  rw [asked, List.mem_eraseDups, List.mem_filterMap]

theorem asked_concat_of_none (h : a.asks = none) : asked (acts ++ [a]) = asked acts := by
  rw [asked, asked, List.filterMap_append, List.filterMap_cons_none h, List.filterMap_nil,
    List.append_nil]

theorem asked_concat_of_mem (h : a.asks = some key) (hk : key ∈ asked acts) :
    asked (acts ++ [a]) = asked acts := by
  rw [asked, List.mem_eraseDups] at hk
  rw [asked, List.filterMap_append, List.filterMap_cons_some h, List.filterMap_nil,
    List.eraseDups_concat_of_mem hk, asked]

theorem asked_concat_of_notMem (h : a.asks = some key) (hk : key ∉ asked acts) :
    asked (acts ++ [a]) = asked acts ++ [key] := by
  rw [asked, List.mem_eraseDups] at hk
  rw [asked, List.filterMap_append, List.filterMap_cons_some h, List.filterMap_nil,
    List.eraseDups_concat_of_notMem hk, asked]

theorem nodup_asked (acts : List Act) : (asked acts).Nodup :=
  List.nodup_eraseDups (acts.filterMap Act.asks)

theorem asked_prefix_append (earlier later : List Act) : asked earlier <+: asked (earlier ++ later) := by
  rw [asked, asked, List.filterMap_append, List.eraseDups_append]
  exact List.prefix_append _ _

/-! ### Datasets admitted -/

theorem admitted_nil (limit : Option Nat) : admitted limit [] = [] := by
  cases limit with
  | none => rfl
  | some n => exact List.take_nil

theorem admitted_subset_asked (h : key ∈ admitted limit acts) : key ∈ asked acts := by
  cases limit with
  | none => exact h
  | some n => exact List.mem_of_mem_take h

/-- Below the limit, all datasets asked for are admitted. -/
theorem admitted_eq_asked (h : ∀ n, limit = some n → (admitted limit acts).length < n) :
    admitted limit acts = asked acts := by
  cases limit with
  | none => rfl
  | some n =>
    have hlt := h n rfl
    rw [admitted, List.length_take] at hlt
    exact List.take_of_length_le (by omega)

theorem admitted_concat_of_asked_eq (h : asked (acts ++ [a]) = asked acts) :
    admitted limit (acts ++ [a]) = admitted limit acts := by
  rw [admitted.eq_def, h, ← admitted.eq_def]

/-- Below the limit, a dataset that is not admitted is new, and is admitted when it is asked for. -/
theorem admitted_concat_of_room (hroom : ∀ n, limit = some n → (admitted limit acts).length < n)
    (h : a.asks = some key) (hk : key ∉ admitted limit acts) :
    admitted limit (acts ++ [a]) = admitted limit acts ++ [key] := by
  have hall := admitted_eq_asked hroom
  rw [hall] at hk
  have hasked := asked_concat_of_notMem h hk
  cases limit with
  | none => exact hasked
  | some n =>
    have hlt := hroom n rfl
    rw [hall] at hlt ⊢
    rw [admitted, hasked]
    exact List.take_of_length_le (by rw [List.length_append, List.length_singleton]; omega)

/-- At the limit, nothing more is admitted. -/
theorem admitted_concat_of_full {n : Nat} (hfull : n ≤ (admitted (some n) acts).length) (a : Act) :
    admitted (some n) (acts ++ [a]) = admitted (some n) acts ∧
      (admitted (some n) acts).length = n := by
  rw [admitted, List.length_take] at hfull
  obtain ⟨new, hnew⟩ := asked_prefix_append acts [a]
  refine ⟨?_, ?_⟩
  · rw [admitted, admitted, ← hnew, List.take_append_of_le_length (by omega)]
  · rw [admitted, List.length_take]
    omega

/-- A dataset that has been asked for is admitted after all acts if it is now. -/
theorem mem_admitted_iff_of_prefix (later : List Act) (hk : key ∈ asked acts) :
    key ∈ admitted limit (acts ++ later) ↔ key ∈ admitted limit acts := by
  obtain ⟨new, hnew⟩ := asked_prefix_append acts later
  have hdup := nodup_asked (acts ++ later)
  rw [← hnew] at hdup
  cases limit with
  | none => exact iff_of_true ((asked_prefix_append acts later).subset hk) hk
  | some n =>
    rw [admitted, admitted, ← hnew, List.take_append, List.mem_append]
    refine or_iff_left fun hmem => ?_
    exact (List.nodup_append.mp hdup).2.2 key hk key (List.mem_of_mem_take hmem) rfl

/-! ### Samples of one dataset -/

variable {series : Series} {host : String}

theorem ownSamples_concat_record (acts : List Act) (series : Series) (host : String) (x : Sample) :
    ownSamples series host (acts ++ [.record series host x]) =
      ownSamples series host acts ++ [x] := by
  rw [ownSamples, List.filterMap_append, ← ownSamples]
  simp

theorem ownSamples_concat_of_ne (h : a.asks ≠ some (series, host)) :
    ownSamples series host (acts ++ [a]) = ownSamples series host acts := by
  rw [ownSamples, List.filterMap_append, ← ownSamples, List.filterMap_cons_none,
    List.filterMap_nil, List.append_nil]
  cases a with
  | record series' host' x =>
    refine if_neg fun heq => h ?_
    rw [Act.asks, heq.1, heq.2]
  | read reading => rfl
  | extend position x => rfl

/-- Nothing was recorded for a dataset that was never asked for. -/
theorem ownSamples_of_notMem (h : (series, host) ∉ asked acts) : ownSamples series host acts = [] := by
  induction acts using List.reverseRecOn with
  | nil => rfl
  | append_singleton acts a ih =>
    have hne : a.asks ≠ some (series, host) := by
      intro heq
      exact h (mem_asked_iff.mpr ⟨a, List.mem_append_right _ (List.mem_singleton_self a), heq⟩)
    rw [ownSamples_concat_of_ne hne]
    refine ih fun hk => h ((asked_prefix_append acts [a]).subset hk)

end MetricStore.Console
