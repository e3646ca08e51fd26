import Mathlib.Data.List.Nodup
import MetricStore.Table

/-!
What is looked up in a table after a change.

As long as the keys of a table are distinct, the entry that is looked up under a key is the only one
there is (`Distinct.get?_eq_some_iff`), so a table can be split at it (`Distinct.exists_split`).  Keys
stay distinct whatever is changed or put in.
-/

/-- A list whose members are told apart by their keys falls into one member and those before and behind
it, which are left by any function that leaves the members with other keys. -/
theorem List.exists_split_of_nodup_map {α κ : Type} {key : α → κ} {l : List α} {a : α}
    (hnodup : (l.map key).Nodup) (hmem : a ∈ l) :
    ∃ earlier later, l = earlier ++ a :: later ∧
      ∀ f : α → α, (∀ b, key b ≠ key a → f b = b) → l.map f = earlier ++ f a :: later := by
  obtain ⟨earlier, later, rfl⟩ := append_of_mem hmem
  rw [map_append, map_cons, nodup_append, nodup_cons] at hnodup
  obtain ⟨-, ⟨hlater, -⟩, hearlier⟩ := hnodup
  refine ⟨earlier, later, rfl, fun f hf => ?_⟩
  -- the key does not come again on either side
  have hkept : ∀ others : List α, key a ∉ others.map key → others.map f = others := by
    intro others hnot
    refine (map_congr_left fun b hb => hf b fun heq => hnot ?_).trans (map_id others)
    exact heq ▸ mem_map_of_mem hb
  rw [map_append, map_cons, hkept later hlater, hkept earlier]
  exact fun hin => hearlier _ hin _ mem_cons_self rfl

namespace MetricStore.Table

variable {κ α : Type}

/-- Each key occurs once. -/
def Distinct (t : Table κ α) : Prop := t.keys.Nodup

theorem distinct_empty : (empty : Table κ α).Distinct := List.nodup_nil

theorem mem_values_iff {t : Table κ α} {a : α} : a ∈ t.values ↔ ∃ key, (key, a) ∈ t.entries := by
  rw [values, List.mem_map]
  constructor
  · rintro ⟨⟨key, a⟩, hmem, rfl⟩
    exact ⟨key, hmem⟩
  · rintro ⟨key, hmem⟩
    exact ⟨_, hmem, rfl⟩

variable [DecidableEq κ] {t : Table κ α} {key k : κ} {a : α} {f : α → α}

/-! ### Looking up -/

theorem mem_of_pair? {e : κ × α} (h : t.pair? key = some e) : e ∈ t.entries ∧ e.1 = key :=
  ⟨List.mem_of_find?_eq_some h, of_decide_eq_true (List.find?_some h :)⟩

theorem pair?_eq_none_iff : t.pair? key = none ↔ key ∉ t.keys := by
  rw [pair?, List.find?_eq_none, keys, List.mem_map]
  constructor
  · rintro h ⟨e, he, hkey⟩
    exact h e he (decide_eq_true hkey)
  · intro h e he hkey
    exact h ⟨e, he, of_decide_eq_true hkey⟩

theorem get?_eq_none_iff : t.get? key = none ↔ key ∉ t.keys := by
  rw [get?, Option.map_eq_none_iff, pair?_eq_none_iff]

theorem mem_of_get? (h : t.get? key = some a) : (key, a) ∈ t.entries := by
  obtain ⟨⟨k, a'⟩, hentry, rfl⟩ := Option.map_eq_some_iff.mp h
  obtain ⟨hmem, rfl⟩ := mem_of_pair? hentry
  exact hmem

/-- The entry that is looked up under a key is the one that the table has. -/
theorem Distinct.get?_eq_some_iff (h : t.Distinct) : t.get? key = some a ↔ (key, a) ∈ t.entries := by
  refine ⟨mem_of_get?, fun hmem => ?_⟩
  cases hget : t.get? key with
  | none => exact absurd (List.mem_map_of_mem hmem) (get?_eq_none_iff.mp hget)
  | some a' => rw [(Prod.mk.inj (List.inj_on_of_nodup_map h (mem_of_get? hget) hmem rfl)).2]

/-! ### Changing a value -/

theorem keys_modify (t : Table κ α) (key : κ) (f : α → α) : (t.modify key f).keys = t.keys := by
  rw [keys, modify, List.map_map]
  rfl

/-- A table falls into the entry of a key and those before and behind it; its value is changed there
and nothing else is. -/
theorem Distinct.exists_split (h : t.Distinct) (hmem : (key, a) ∈ t.entries) :
    ∃ earlier later, t.entries = earlier ++ (key, a) :: later ∧
      ∀ f, (t.modify key f).entries = earlier ++ (key, f a) :: later := by
  obtain ⟨earlier, later, hsplit, hmap⟩ := List.exists_split_of_nodup_map h hmem
  refine ⟨earlier, later, hsplit, fun f => ?_⟩
  rw [modify, hmap, if_pos rfl]
  intro e hne
  rw [if_neg hne]

theorem get?_modify (t : Table κ α) (key k : κ) (f : α → α) :
    (t.modify key f).get? k = (t.get? k).map fun a => if k = key then f a else a := by
  rw [get?, pair?, modify, List.find?_map, get?, Option.map_map, Option.map_map]
  refine Option.map_congr fun e he => ?_
  obtain rfl := (mem_of_pair? he).2
  rfl

/-! ### Changing a value that may be missing -/

theorem modifyOr_of_mem (h : key ∈ t.keys) (initial : α) (f : α → α) :
    t.modifyOr key initial f = t.modify key f := by
  rw [modifyOr]
  split
  · rfl
  · next hnone => exact absurd h (pair?_eq_none_iff.mp hnone)

theorem entries_modifyOr_of_notMem (h : key ∉ t.keys) (initial : α) (f : α → α) :
    (t.modifyOr key initial f).entries = t.entries ++ [(key, f initial)] := by
  rw [modifyOr, pair?_eq_none_iff.mpr h]

theorem Distinct.modifyOr (h : t.Distinct) (key : κ) (initial : α) (f : α → α) :
    (t.modifyOr key initial f).Distinct := by
  by_cases hmem : key ∈ t.keys
  · rw [modifyOr_of_mem hmem, Distinct, keys_modify]
    exact h
  · rw [Distinct, keys, entries_modifyOr_of_notMem hmem, List.map_append]
    exact List.concat_eq_append ▸ h.concat hmem

end MetricStore.Table
