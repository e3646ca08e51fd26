import MetricStore.Proofs.Tables
import MetricStore.Stock

/-!
Tidy stocks.

In a tidy stock keys are distinct in the map of the shelves and on every shelf, a snapshot stands under
its own series and host, no shelf is empty, and the number kept beside the shelves is that of the
snapshots on them (`Stock.Tidy`).  A replacement and the first snapshot of a dataset keep it so.

Such a stock comes to one flat list of snapshots, told apart by their keys.  Main statements:

* `Tidy.find?_eq_some_iff`: what is looked up, map by map, is what the list has under this key;
* `Tidy.snapshots_replace`, `Tidy.snapshots_insert`: what a change of the maps does to the list.
-/

namespace MetricStore

namespace Snapshot

/-- What a dataset is found by: its series and its host. -/
def key (s : Snapshot) : Series × String := (s.series, s.host)

theorem isOf_iff {series : Series} {host : String} {s : Snapshot} :
    s.isOf series host = true ↔ s.key = (series, host) := by
  rw [isOf, Bool.and_eq_true, beq_iff_eq, beq_iff_eq, key, Prod.mk.injEq]

end Snapshot

/-! ### Shelves -/

/-- A shelf of a series has something on it, once for each host, and each snapshot is of this series on
the host it stands under. -/
structure Shelf.Tidy (series : Series) (shelf : Shelf) : Prop where
  distinct : shelf.Distinct
  ne_nil : shelf.entries ≠ []
  key_eq : ∀ e ∈ shelf.entries, e.2.key = (series, e.1)

namespace Shelf.Tidy

variable {series : Series} {shelf : Shelf} {host : String} {s : Snapshot}

theorem series_eq (h : Shelf.Tidy series shelf) (hmem : (host, s) ∈ shelf.entries) :
    s.series = series := (Prod.mk.inj (h.key_eq _ hmem)).1

theorem host_eq (h : Shelf.Tidy series shelf) (hmem : (host, s) ∈ shelf.entries) :
    s.host = host := (Prod.mk.inj (h.key_eq _ hmem)).2

theorem keys_values (h : Shelf.Tidy series shelf) :
    shelf.values.map Snapshot.key = shelf.keys.map fun host => (series, host) := by
  rw [Table.values, Table.keys, List.map_map, List.map_map]
  exact List.map_congr_left h.key_eq

theorem nodup_keys (h : Shelf.Tidy series shelf) : (shelf.values.map Snapshot.key).Nodup := by
  rw [h.keys_values]
  exact h.distinct.map fun _ _ heq => (Prod.mk.inj heq).2

/-- A replacement takes place where the snapshot of this host is. -/
theorem values_modify (h : Shelf.Tidy series shelf) (host : String) (next : Snapshot) :
    (shelf.modify host fun _ => next).values =
      shelf.values.map fun s => if s.isOf series host then next else s := by
  rw [Table.values, Table.values, Table.modify, List.map_map, List.map_map]
  refine List.map_congr_left fun e he => ?_
  have hiff : e.2.isOf series host = true ↔ e.1 = host := by
    rw [Snapshot.isOf_iff, h.key_eq e he, Prod.mk.injEq, and_iff_right rfl]
  rw [Function.comp_apply, Function.comp_apply]
  by_cases heq : e.1 = host
  · rw [if_pos heq, if_pos (hiff.mpr heq)]
  · rw [if_neg heq, if_neg (mt hiff.mp heq)]

theorem modify (h : Shelf.Tidy series shelf) {next : Snapshot} (hnext : next.key = (series, host)) :
    Shelf.Tidy series (shelf.modify host fun _ => next) := by
  refine ⟨?_, ?_, ?_⟩
  · rw [Table.Distinct, Table.keys_modify]
    exact h.distinct
  · exact mt List.map_eq_nil_iff.mp h.ne_nil
  · intro e he
    obtain ⟨e, hmem, rfl⟩ := List.mem_map.mp he
    show (if e.1 = host then next else e.2).key = (series, e.1)
    split
    · next heq => rw [hnext, heq]
    · exact h.key_eq e hmem

/-- One more snapshot, on a shelf that may have been set up for it. -/
theorem insert {first : Snapshot} (hdistinct : shelf.Distinct)
    (hkeys : ∀ e ∈ shelf.entries, e.2.key = (series, e.1)) (hnew : host ∉ shelf.keys)
    (hfirst : first.key = (series, host)) : Shelf.Tidy series (shelf.insert host first) := by
  have hentries : (shelf.insert host first).entries = shelf.entries ++ [(host, first)] :=
    Table.entries_modifyOr_of_notMem hnew _ _
  refine ⟨hdistinct.modifyOr _ _ _, ?_, ?_⟩
  · rw [hentries]
    exact List.concat_ne_nil _ _
  · intro e he
    rw [hentries] at he
    obtain he | he := List.mem_append.mp he
    · exact hkeys e he
    · obtain rfl := List.mem_singleton.mp he
      exact hfirst

end Shelf.Tidy

namespace Stock

variable {t : Stock} {series : Series} {host : String} {s next first : Snapshot}

/-! ### All snapshots -/

theorem mem_snapshots_iff :
    s ∈ t.snapshots ↔ ∃ e ∈ t.shelves.entries, ∃ host, (host, s) ∈ e.2.entries := by
  rw [snapshots, Table.values, List.flatMap_map, List.mem_flatMap]
  exact exists_congr fun e => and_congr_right fun _ => Table.mem_values_iff

theorem mem_snapshots_of_get? {shelf : Shelf} (h : t.shelves.get? series = some shelf)
    (hs : s ∈ shelf.values) : s ∈ t.snapshots :=
  mem_snapshots_iff.mpr ⟨_, Table.mem_of_get? h, Table.mem_values_iff.mp hs⟩

theorem mem_snapshots_of_find? (h : t.find? series host = some s) : s ∈ t.snapshots := by
  obtain ⟨shelf, hshelf, hs⟩ := Option.bind_eq_some_iff.mp h
  exact mem_snapshots_of_get? hshelf (Table.mem_values_iff.mpr ⟨host, Table.mem_of_get? hs⟩)

/-- A series is stored as it was given. -/
theorem stored_eq (t : Stock) (series : Series) : t.stored series = series := by
  rw [stored]
  split
  · next key shelf hentry => exact (Table.mem_of_pair? hentry).2
  · rfl

/-- A replacement changes what is found for its dataset, and not where anything is found. -/
theorem find?_replace (t : Stock) (series : Series) (host : String) (next : Snapshot)
    (series' : Series) (host' : String) :
    (t.replace series host next).find? series' host' =
      (t.find? series' host').map fun s => if (series', host') = (series, host) then next else s := by
  rw [find?, find?, replace, Table.get?_modify]
  cases t.shelves.get? series' with
  | none => rfl
  | some shelf =>
    rw [Option.map_some, Option.bind_some, Option.bind_some]
    by_cases hseries : series' = series
    · rw [if_pos hseries, Table.get?_modify]
      simp only [Prod.mk.injEq, hseries, true_and]
    · rw [if_neg hseries]
      simp only [Prod.mk.injEq, hseries, false_and, if_false, Option.map_id']

/-- The maps and the number kept beside them agree. -/
structure Tidy (t : Stock) : Prop where
  distinct : t.shelves.Distinct
  shelf : ∀ e ∈ t.shelves.entries, Shelf.Tidy e.1 e.2
  count_eq : t.count = t.snapshots.length

theorem tidy_empty : empty.Tidy := ⟨Table.distinct_empty, nofun, rfl⟩

namespace Tidy

/-! ### Looking up -/

theorem find?_eq_some_iff (h : t.Tidy) :
    t.find? series host = some s ↔ s ∈ t.snapshots ∧ s.key = (series, host) := by
  rw [find?, Option.bind_eq_some_iff, mem_snapshots_iff]
  constructor
  · rintro ⟨shelf, hshelf, hs⟩
    have hmem := Table.mem_of_get? hshelf
    exact ⟨⟨_, hmem, host, Table.mem_of_get? hs⟩, (h.shelf _ hmem).key_eq _ (Table.mem_of_get? hs)⟩
  · rintro ⟨⟨⟨series', shelf⟩, hmem, host', hs⟩, hkey⟩
    have htidy := h.shelf _ hmem
    -- the snapshot stands under its own series and host
    obtain ⟨rfl, rfl⟩ := Prod.mk.inj (hkey.symm.trans (htidy.key_eq _ hs))
    exact ⟨shelf, h.distinct.get?_eq_some_iff.mpr hmem, htidy.distinct.get?_eq_some_iff.mpr hs⟩

theorem find?_eq_none_iff (h : t.Tidy) :
    t.find? series host = none ↔ (series, host) ∉ t.snapshots.map Snapshot.key := by
  rw [Option.eq_none_iff_forall_ne_some, List.mem_map, not_exists]
  exact forall_congr' fun s => not_congr h.find?_eq_some_iff

/-- No two snapshots are of one dataset. -/
theorem nodup_keys (h : t.Tidy) : (t.snapshots.map Snapshot.key).Nodup := by
  have hkeys : t.snapshots.map Snapshot.key =
      t.shelves.entries.flatMap fun e => e.2.keys.map fun host => (e.1, host) := by
    rw [snapshots, Table.values, List.flatMap_map, List.map_flatMap]
    exact List.flatMap_congr fun e he => (h.shelf e he).keys_values
  rw [hkeys, List.nodup_flatMap]
  refine ⟨?_, (List.pairwise_map.mp h.distinct).imp ?_⟩
  · intro e he
    rw [← (h.shelf e he).keys_values]
    exact (h.shelf e he).nodup_keys
  · -- what stands on two shelves differs in its series
    intro e e' hne key hkey hkey'
    obtain ⟨host, -, rfl⟩ := List.mem_map.mp hkey
    obtain ⟨host', -, heq⟩ := List.mem_map.mp hkey'
    exact hne (Prod.mk.inj heq).1.symm

/-! ### Walking over the maps -/

/-- What stands on the shelf of a series, if it has one, are the snapshots of this series. -/
theorem mem_shelf_iff (h : t.Tidy) :
    s ∈ ((t.shelves.get? series).map Table.values).getD [] ↔ s ∈ t.snapshots ∧ s.series = series := by
  constructor
  · intro hs
    cases hshelf : t.shelves.get? series with
    | none =>
      rw [hshelf] at hs
      exact absurd hs List.not_mem_nil
    | some shelf =>
      rw [hshelf] at hs
      obtain ⟨host, hmem⟩ := Table.mem_values_iff.mp hs
      exact ⟨mem_snapshots_of_get? hshelf hs, (h.shelf _ (Table.mem_of_get? hshelf)).series_eq hmem⟩
  · rintro ⟨hs, rfl⟩
    obtain ⟨e, he, host, hmem⟩ := mem_snapshots_iff.mp hs
    rw [(h.shelf e he).series_eq hmem, h.distinct.get?_eq_some_iff.mpr he]
    exact Table.mem_values_iff.mpr ⟨host, hmem⟩

theorem nodup_shelf (h : t.Tidy) (series : Series) :
    (((t.shelves.get? series).map Table.values).getD []).Nodup := by
  cases hshelf : t.shelves.get? series with
  | none => exact List.nodup_nil
  | some shelf => exact (h.shelf _ (Table.mem_of_get? hshelf)).nodup_keys.of_map

/-- A series has a shelf as long as it has a dataset, since no shelf is empty. -/
theorem mem_keys_iff (h : t.Tidy) : series ∈ t.shelves.keys ↔ ∃ s ∈ t.snapshots, s.series = series := by
  constructor
  · intro hmem
    obtain ⟨e, he, rfl⟩ := List.mem_map.mp hmem
    obtain ⟨⟨host, s⟩, hs⟩ := List.exists_mem_of_ne_nil _ (h.shelf e he).ne_nil
    exact ⟨s, mem_snapshots_iff.mpr ⟨e, he, host, hs⟩, (h.shelf e he).series_eq hs⟩
  · rintro ⟨s, hs, rfl⟩
    obtain ⟨e, he, host, hmem⟩ := mem_snapshots_iff.mp hs
    exact List.mem_map.mpr ⟨e, he, ((h.shelf e he).series_eq hmem).symm⟩

theorem mem_hosts_iff (h : t.Tidy) :
    host ∈ t.shelves.values.flatMap Table.keys ↔ ∃ s ∈ t.snapshots, s.host = host := by
  rw [Table.values, List.flatMap_map, List.mem_flatMap]
  constructor
  · rintro ⟨e, he, hmem⟩
    obtain ⟨⟨host, s⟩, hs, rfl⟩ := List.mem_map.mp hmem
    exact ⟨s, mem_snapshots_iff.mpr ⟨e, he, host, hs⟩, (h.shelf e he).host_eq hs⟩
  · rintro ⟨s, hs, rfl⟩
    obtain ⟨e, he, host, hmem⟩ := mem_snapshots_iff.mp hs
    exact ⟨e, he, List.mem_map.mpr ⟨_, hmem, ((h.shelf e he).host_eq hmem).symm⟩⟩

/-! ### Replacing -/

theorem snapshots_replace (h : t.Tidy) (series : Series) (host : String) (next : Snapshot) :
    (t.replace series host next).snapshots =
      t.snapshots.map fun s => if s.isOf series host then next else s := by
  rw [snapshots, snapshots, Table.values, Table.values, List.flatMap_map, List.flatMap_map,
    List.map_flatMap, replace, Table.modify, List.flatMap_map]
  refine List.flatMap_congr fun e he => ?_
  have htidy := h.shelf e he
  by_cases heq : e.1 = series
  · subst heq
    rw [if_pos rfl]
    exact htidy.values_modify host next
  · -- nothing on another shelf is of this dataset
    rw [if_neg heq]
    refine ((List.map_congr_left fun s hs => if_neg fun hof => heq ?_).trans (List.map_id _)).symm
    obtain ⟨host', hmem⟩ := Table.mem_values_iff.mp hs
    exact (htidy.series_eq hmem).symm.trans (Prod.mk.inj (Snapshot.isOf_iff.mp hof)).1

theorem replace (h : t.Tidy) (hnext : next.key = (series, host)) :
    (t.replace series host next).Tidy := by
  refine ⟨?_, ?_, ?_⟩
  · rw [Table.Distinct, Stock.replace, Table.keys_modify]
    exact h.distinct
  · intro e he
    obtain ⟨e, hmem, rfl⟩ := List.mem_map.mp he
    show Shelf.Tidy e.1 (if e.1 = series then e.2.modify host fun _ => next else e.2)
    split
    · next heq => exact heq ▸ (heq ▸ h.shelf e hmem : Shelf.Tidy series e.2).modify hnext
    · exact h.shelf e hmem
  · rw [h.snapshots_replace, List.length_map]
    exact h.count_eq

/-! ### Beginning a dataset -/

/-- The shelf that a dataset begins on is the one of its series, or a new one. -/
theorem shelves_insert (h : t.Tidy) (absent : t.find? series host = none) (first : Snapshot) :
    (∃ earlier shelf later, t.shelves.entries = earlier ++ (series, shelf) :: later ∧
        host ∉ shelf.keys ∧ (t.insert series host first).shelves.entries =
          earlier ++ (series, shelf.insert host first) :: later) ∨
      (t.insert series host first).shelves.entries =
        t.shelves.entries ++ [(series, Table.empty.insert host first)] := by
  rw [Stock.insert]
  by_cases hmem : series ∈ t.shelves.keys
  · obtain ⟨⟨_, shelf⟩, hmem', rfl⟩ := List.mem_map.mp hmem
    obtain ⟨earlier, later, hsplit, hmodify⟩ := h.distinct.exists_split hmem'
    refine .inl ⟨earlier, shelf, later, hsplit, ?_, ?_⟩
    · rw [find?, h.distinct.get?_eq_some_iff.mpr hmem', Option.bind_some] at absent
      exact Table.get?_eq_none_iff.mp absent
    · rw [Table.modifyOr_of_mem hmem]
      exact hmodify _
  · exact .inr (Table.entries_modifyOr_of_notMem hmem _ _)

theorem snapshots_insert (h : t.Tidy) (absent : t.find? series host = none) (first : Snapshot) :
    (t.insert series host first).snapshots.Perm (t.snapshots ++ [first]) := by
  rw [snapshots, snapshots, Table.values, Table.values, List.flatMap_map, List.flatMap_map]
  obtain ⟨earlier, shelf, later, hbefore, hnew, hafter⟩ | hafter := h.shelves_insert absent first
  · have hvalues : (shelf.insert host first).values = shelf.values ++ [first] := by
      rw [Table.values, Table.insert, Table.entries_modifyOr_of_notMem hnew, List.map_append]
      rfl
    rw [hbefore, hafter, List.flatMap_append, List.flatMap_append, List.flatMap_cons,
      List.flatMap_cons, hvalues, List.append_assoc, List.append_assoc, List.append_assoc]
    exact ((List.perm_append_comm).append_left _).append_left _
  · rw [hafter, List.flatMap_append]
    exact .refl _

theorem insert (h : t.Tidy) (absent : t.find? series host = none)
    (hfirst : first.key = (series, host)) : (t.insert series host first).Tidy := by
  refine ⟨h.distinct.modifyOr _ _ _, ?_, ?_⟩
  · intro e he
    obtain ⟨earlier, shelf, later, hbefore, hnew, hafter⟩ | hafter := h.shelves_insert absent first
    · rw [hafter] at he
      have hall := h.shelf
      rw [hbefore] at hall
      obtain he | he := List.mem_append.mp he
      · exact hall e (List.mem_append_left _ he)
      · obtain rfl | he := List.mem_cons.mp he
        · have hshelf := hall _ (List.mem_append_right _ List.mem_cons_self)
          exact .insert hshelf.distinct hshelf.key_eq hnew hfirst
        · exact hall e (List.mem_append_right _ (List.mem_cons_of_mem _ he))
    · rw [hafter] at he
      obtain he | he := List.mem_append.mp he
      · exact h.shelf e he
      · obtain rfl := List.mem_singleton.mp he
        exact .insert Table.distinct_empty (fun _ he => absurd he List.not_mem_nil)
          List.not_mem_nil hfirst
  · rw [(h.snapshots_insert absent first).length_eq, List.length_append, List.length_singleton,
      ← h.count_eq]
    rfl

theorem find?_insert_self (h : t.Tidy) (absent : t.find? series host = none)
    (hfirst : first.key = (series, host)) :
    (t.insert series host first).find? series host = some first := by
  rw [(h.insert absent hfirst).find?_eq_some_iff, (h.snapshots_insert absent first).mem_iff]
  exact ⟨List.mem_append_right _ (List.mem_singleton_self _), hfirst⟩

theorem find?_insert_other (h : t.Tidy) (absent : t.find? series host = none)
    (hfirst : first.key = (series, host)) {series' : Series} {host' : String}
    (hne : (series, host) ≠ (series', host')) :
    (t.insert series host first).find? series' host' = t.find? series' host' := by
  refine Option.ext fun s => ?_
  rw [(h.insert absent hfirst).find?_eq_some_iff, h.find?_eq_some_iff,
    (h.snapshots_insert absent first).mem_iff, List.mem_append, List.mem_singleton]
  refine and_congr_left fun hkey => or_iff_left ?_
  rintro rfl
  exact hne (hfirst.symm.trans hkey)

end Tidy

end Stock

end MetricStore
