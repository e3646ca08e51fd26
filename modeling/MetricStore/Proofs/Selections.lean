import Mathlib.Data.List.Perm.Basic
import Mathlib.Data.List.Sort
import Mathlib.Data.String.Basic
import MetricStore.Proofs.Recording
import MetricStore.Proofs.SeriesText

/-!
All readings of a collector describe the same snapshots.

Each reading walks the maps of a stock, sorts and filters on its own, and the number of datasets is
kept beside the maps; none of them may rely on the order in which a walk meets the entries
(`Stock.Reorders`).  What makes them agree is that the stock is tidy, and that series which were read
from texts are told apart by their texts; so every order asked for is a strict one, and a strict order
leaves only one list of given members.  Main statement:

* `selections_describe_one_set`: after any samples taken or refused, the readings agree, in whatever
  order the shelves and the snapshots on each of them are met.
-/

/-! ### Strictly sorted lists -/

namespace List

variable {α : Type} {l m : List α}

/-- A strict order leaves only one list of given members. -/
theorem eq_of_strictly_sorted {lt : α → α → Prop} (hasymm : ∀ a b, lt a b → ¬ lt b a)
    (hl : l.Pairwise lt) (hm : m.Pairwise lt) (hmem : ∀ a, a ∈ l ↔ a ∈ m) : l = m := by
  have : Std.Antisymm lt := ⟨fun a b hab hba => absurd hba (hasymm a b hab)⟩
  have : Std.Irrefl lt := ⟨fun a haa => hasymm a a haa haa⟩
  exact hl.eq_of_mem_iff hm hmem

theorem strictly_sorted_mergeSort {le : α → α → Bool} {lt : α → α → Prop}
    (htrans : ∀ a b c, le a b = true → le b c = true → le a c = true)
    (htotal : ∀ a b, (le a b || le b a) = true) (hnodup : l.Nodup)
    (hlt : ∀ a ∈ l, ∀ b ∈ l, a ≠ b → le a b = true → lt a b) : (l.mergeSort le).Pairwise lt := by
  have hsorted := pairwise_mergeSort htrans htotal l
  have hdistinct : (l.mergeSort le).Nodup := (mergeSort_perm l le).nodup_iff.mpr hnodup
  refine (hsorted.and hdistinct).imp_of_mem ?_
  rintro a b ha hb ⟨hle, hne⟩
  exact hlt a (mem_mergeSort.mp ha) b (mem_mergeSort.mp hb) hne hle

/-- Sorting by texts that tell the members apart. -/
theorem strictly_sorted_mergeSort_text {text : α → String} (hnodup : l.Nodup)
    (hinj : ∀ a ∈ l, ∀ b ∈ l, text a = text b → a = b) :
    (l.mergeSort fun a b => decide (text a ≤ text b)).Pairwise fun a b => text a < text b := by
  refine strictly_sorted_mergeSort ?_ ?_ hnodup ?_
  · intro a b c hab hbc
    exact decide_eq_true (String.le_trans (of_decide_eq_true hab) (of_decide_eq_true hbc))
  · intro a b
    rw [Bool.or_eq_true, decide_eq_true_iff, decide_eq_true_iff]
    exact String.le_total _ _
  · intro a ha b hb hne hle
    exact lt_of_le_of_ne (of_decide_eq_true hle) fun heq => hne (hinj a ha b hb heq)

end List

namespace MetricStore

/-! ### The order of all snapshots -/

/-- One snapshot comes before another: by the text of the series, then by host. -/
def Snapshot.Before (a b : Snapshot) : Prop :=
  a.series.text < b.series.text ∨ a.series.text = b.series.text ∧ a.host < b.host

theorem Snapshot.Before.asymm {a b : Snapshot} (h : a.Before b) : ¬ b.Before a := by
  rintro (hlt | ⟨heq, hlt⟩)
  · obtain hgt | ⟨heq, -⟩ := h
    · exact String.lt_asymm hlt hgt
    · exact String.lt_irrefl _ (heq ▸ hlt)
  · obtain hgt | ⟨-, hgt⟩ := h
    · exact String.lt_irrefl _ (heq ▸ hgt)
    · exact String.lt_asymm hlt hgt

namespace Collector

section

variable {a b c : Snapshot}

theorem precedes_iff :
    precedes a b = true ↔
      a.series.text < b.series.text ∨ a.series.text = b.series.text ∧ a.host ≤ b.host := by
  rw [precedes, Bool.or_eq_true, Bool.and_eq_true, decide_eq_true_iff, decide_eq_true_iff,
    beq_iff_eq]

theorem precedes_trans (hab : precedes a b = true) (hbc : precedes b c = true) :
    precedes a c = true := by
  rw [precedes_iff] at hab hbc ⊢
  obtain hab | ⟨htext, hhost⟩ := hab
  · obtain hbc | ⟨htext, -⟩ := hbc
    · exact .inl (String.lt_trans hab hbc)
    · exact .inl (htext ▸ hab)
  · rw [htext]
    exact hbc.imp_right fun h => ⟨h.1, String.le_trans hhost h.2⟩

theorem precedes_total (a b : Snapshot) : (precedes a b || precedes b a) = true := by
  rw [Bool.or_eq_true, precedes_iff, precedes_iff]
  obtain hlt | heq | hgt := lt_trichotomy a.series.text b.series.text
  · exact .inl (.inl hlt)
  · exact (String.le_total a.host b.host).imp (fun h => .inr ⟨heq, h⟩) fun h => .inr ⟨heq.symm, h⟩
  · exact .inr (.inl hgt)

end

end Collector

/-! ### Walks in another order -/

namespace Stock

/-- The same maps, walked in another order: the entries of each shelf, and the shelves themselves, are
met in any order; and the same number beside them. -/
structure Reorders (t u : Stock) : Prop where
  count_eq : t.count = u.count
  shelves : ∃ walk : Series → Shelf,
    (∀ e ∈ u.shelves.entries, (walk e.1).entries.Perm e.2.entries) ∧
      t.shelves.entries.Perm (u.shelves.entries.map fun e => (e.1, walk e.1))

namespace Reorders

variable {t u : Stock}

theorem snapshots_perm (h : t.Reorders u) : t.snapshots.Perm u.snapshots := by
  obtain ⟨-, walk, hshelf, hshelves⟩ := h
  rw [snapshots, snapshots, Table.values, Table.values, List.flatMap_map, List.flatMap_map]
  refine (hshelves.flatMap_right _).trans ?_
  rw [List.flatMap_map]
  exact List.Perm.flatMap_left _ fun e he => (hshelf e he).map Prod.snd

/-- No walk makes a tidy stock untidy. -/
theorem tidy (h : t.Reorders u) (hu : u.Tidy) : t.Tidy := by
  have hsnapshots := h.snapshots_perm
  obtain ⟨hcount, walk, hshelf, hshelves⟩ := h
  refine ⟨?_, ?_, ?_⟩
  · have hkeys := hshelves.map Prod.fst
    rw [List.map_map] at hkeys
    exact hkeys.nodup_iff.mpr hu.distinct
  · intro e he
    obtain ⟨e, hmem, rfl⟩ := List.mem_map.mp (hshelves.mem_iff.mp he)
    obtain ⟨hdistinct, hne, hkeys⟩ := hu.shelf e hmem
    have hperm := hshelf e hmem
    refine ⟨(hperm.map Prod.fst).nodup_iff.mpr hdistinct, ?_, ?_⟩
    · intro hnil
      rw [show (walk e.1).entries = [] from hnil] at hperm
      exact hne hperm.nil_eq.symm
    · exact fun entry hentry => hkeys entry (hperm.mem_iff.mp hentry)
  · rw [hcount, hu.count_eq, hsnapshots.length_eq]

end Reorders

/-- A stock that is walked backwards, shelf by shelf and on each shelf. -/
def reversed (t : Stock) : Stock where
  shelves := ⟨(t.shelves.entries.map fun e =>
    (e.1, ⟨((t.shelves.get? e.1).getD .empty).entries.reverse⟩)).reverse⟩
  count := t.count

theorem reversed_reorders {t : Stock} (h : t.Tidy) : t.reversed.Reorders t := by
  refine ⟨rfl, fun series => ⟨((t.shelves.get? series).getD .empty).entries.reverse⟩, ?_,
    List.reverse_perm _⟩
  intro e he
  show ((t.shelves.get? e.1).getD .empty).entries.reverse.Perm e.2.entries
  rw [h.distinct.get?_eq_some_iff.mpr he]
  exact List.reverse_perm _

end Stock

namespace Collector

/-! ### The readings -/

theorem locked_of_sane {α : Type} {c : Collector} (h : c.poisoned = false) (reading : α) :
    c.locked reading = .ok reading := by
  rw [locked, if_neg (by rw [h]; exact Bool.false_ne_true)]

variable {c : Collector} {series : Series} {host : String} {s t : Snapshot}

/-- The stock is tidy, and the series in it are well formed. -/
structure Catalogued (c : Collector) : Prop where
  tidy : c.stock.Tidy
  wellFormed : ∀ s ∈ c.datasets, s.series.WellFormed

namespace Catalogued

theorem reorder (h : c.Catalogued) {order : Stock} (ho : order.Reorders c.stock) :
    { c with stock := order }.Catalogued :=
  ⟨ho.tidy h.tidy, fun s hs => h.wellFormed s (ho.snapshots_perm.mem_iff.mp hs)⟩

theorem eq_of_key_eq (h : c.Catalogued) (hs : s ∈ c.datasets) (ht : t ∈ c.datasets)
    (hkey : s.key = t.key) : s = t := List.inj_on_of_nodup_map h.tidy.nodup_keys hs ht hkey

theorem series_eq_of_text_eq (h : c.Catalogued) (hs : s ∈ c.datasets) (ht : t ∈ c.datasets)
    (htext : s.series.text = t.series.text) : s.series = t.series :=
  (h.wellFormed s hs).text_inj (h.wellFormed t ht) htext

/-- Snapshots of one series are told apart by their hosts. -/
theorem strictly_sorted_byHost (h : c.Catalogued) {found : List Snapshot} (hnodup : found.Nodup)
    (hof : ∀ s ∈ found, s ∈ c.datasets ∧ s.series = series) :
    (found.mergeSort byHost).Pairwise fun a b => a.host < b.host := by
  refine List.strictly_sorted_mergeSort_text hnodup ?_
  intro a ha b hb hhost
  obtain ⟨ha, hseries⟩ := hof a ha
  obtain ⟨hb, hseries'⟩ := hof b hb
  exact h.eq_of_key_eq ha hb (Prod.ext (hseries.trans hseries'.symm) hhost)

end Catalogued

theorem mem_sortedTexts {texts : List String} {t : String} :
    t ∈ sortedTexts texts ↔ t ∈ texts := by
  rw [sortedTexts, List.mem_mergeSort, List.mem_eraseDups]

theorem strictly_sorted_sortedTexts (texts : List String) :
    (sortedTexts texts).Pairwise (· < ·) :=
  @List.strictly_sorted_mergeSort_text _ _ id (List.nodup_eraseDups texts) fun _ _ _ _ h => h

theorem select_spec (h : c.Catalogued) (hp : c.poisoned = false) (series : Series) :
    ∃ found, c.select series = .ok found ∧ found.Pairwise (fun a b => a.host < b.host) ∧
      ∀ s, s ∈ found ↔ s ∈ c.datasets ∧ s.series = series := by
  refine ⟨_, locked_of_sane hp _, ?_, ?_⟩
  · exact h.strictly_sorted_byHost (h.tidy.nodup_shelf series) fun s => h.tidy.mem_shelf_iff.mp
  · intro s
    rw [List.mem_mergeSort]
    exact h.tidy.mem_shelf_iff

/-- What is read of a series on some hosts is part of what is read of it. -/
theorem selectOn_eq_filter (h : c.Catalogued) (hp : c.poisoned = false)
    {found : List Snapshot} (hsorted : found.Pairwise fun a b => a.host < b.host)
    (hmem : ∀ s, s ∈ found ↔ s ∈ c.datasets ∧ s.series = series) (hosts : List String) :
    c.selectOn series hosts = .ok (found.filter fun s => s.host ∈ hosts) := by
  have hlooked : ∀ s, s ∈ (sortedTexts hosts).filterMap (c.find? series) ↔
      (s ∈ c.datasets ∧ s.series = series) ∧ s.host ∈ hosts := by
    intro s
    rw [List.mem_filterMap]
    constructor
    · rintro ⟨host, hhost, hfind⟩
      obtain ⟨hs, hkey⟩ := mem_of_find? h.tidy hfind
      obtain ⟨rfl, rfl⟩ := Prod.mk.inj hkey
      exact ⟨⟨hs, rfl⟩, mem_sortedTexts.mp hhost⟩
    · rintro ⟨⟨hs, rfl⟩, hhost⟩
      exact ⟨s.host, mem_sortedTexts.mpr hhost, h.tidy.find?_eq_some_iff.mpr ⟨hs, rfl⟩⟩
  -- each host is looked up once, and has one snapshot
  have hnodup : ((sortedTexts hosts).filterMap (c.find? series)).Nodup := by
    refine List.Nodup.filterMap ?_ ((strictly_sorted_sortedTexts hosts).imp ne_of_lt)
    intro host host' s hs hs'
    have hkey := (mem_of_find? h.tidy hs).2.symm.trans (mem_of_find? h.tidy hs').2
    exact (Prod.mk.inj hkey).2
  rw [selectOn_eq, locked_of_sane hp, Except.ok.injEq]
  refine List.eq_of_strictly_sorted (fun a b => String.lt_asymm) ?_ (hsorted.filter _) ?_
  · exact h.strictly_sorted_byHost hnodup fun s hs => ((hlooked s).mp hs).1
  · intro s
    rw [List.mem_mergeSort, hlooked, List.mem_filter, hmem, decide_eq_true_iff]

theorem get_eq_find? (h : c.Catalogued) (hp : c.poisoned = false)
    {found : List Snapshot}
    (hmem : ∀ s, s ∈ found ↔ s ∈ c.datasets ∧ s.series = series) (host : String) :
    c.get series host = .ok (found.find? fun s => s.host == host) := by
  rw [Collector.get, locked_of_sane hp, Except.ok.injEq]
  cases hf : found.find? fun s => s.host == host with
  | none =>
    rw [find?_eq_none_iff h.tidy, List.mem_map]
    rintro ⟨s, hs, hkey⟩
    obtain ⟨hseries, hhost⟩ := Prod.mk.inj hkey
    exact List.find?_eq_none.mp hf s ((hmem s).mpr ⟨hs, hseries⟩) (beq_iff_eq.mpr hhost)
  | some s =>
    obtain ⟨hs, hseries⟩ := (hmem s).mp (List.mem_of_find?_eq_some hf)
    have hhost := List.find?_some hf
    exact h.tidy.find?_eq_some_iff.mpr ⟨hs, Prod.ext hseries (beq_iff_eq.mp hhost)⟩

theorem seriesList_spec (h : c.Catalogued) (hp : c.poisoned = false) :
    ∃ listed, c.seriesList = .ok listed ∧ listed.Pairwise (fun a b => a.text < b.text) ∧
      ∀ series, series ∈ listed ↔ ∃ s ∈ c.datasets, s.series = series := by
  refine ⟨_, locked_of_sane hp _, ?_, ?_⟩
  · -- each series has one shelf, and being well formed is told apart by its text
    refine List.strictly_sorted_mergeSort_text h.tidy.distinct ?_
    intro a ha b hb htext
    obtain ⟨s, hs, rfl⟩ := h.tidy.mem_keys_iff.mp ha
    obtain ⟨t, ht, rfl⟩ := h.tidy.mem_keys_iff.mp hb
    exact h.series_eq_of_text_eq hs ht htext
  · intro series
    rw [List.mem_mergeSort]
    exact h.tidy.mem_keys_iff

theorem selectAll_spec (h : c.Catalogued) (hp : c.poisoned = false) :
    ∃ all, c.selectAll = .ok all ∧ all.Pairwise Snapshot.Before ∧ all.Perm c.datasets := by
  refine ⟨_, locked_of_sane hp _, ?_, List.mergeSort_perm _ _⟩
  refine List.strictly_sorted_mergeSort (fun _ _ _ => precedes_trans) precedes_total
    h.tidy.nodup_keys.of_map ?_
  intro a ha b hb hne hle
  obtain hlt | ⟨htext, hhost⟩ := precedes_iff.mp hle
  · exact .inl hlt
  · refine .inr ⟨htext, lt_of_le_of_ne hhost fun heq => hne ?_⟩
    exact h.eq_of_key_eq ha hb (Prod.ext (h.series_eq_of_text_eq ha hb htext) heq)

/-! ### What the readings have to do with each other -/

/-- All readings of a collector describe the snapshots `stored`: those of one series, of which a list
of hosts takes some and one host takes one; and all of them, series by series. -/
structure Describes (c : Collector) (stored : List Snapshot) : Prop where
  of_series : ∀ series, ∃ found,
    c.select series = .ok found ∧ found.Pairwise (fun a b => a.host < b.host) ∧
    (∀ s, s ∈ found ↔ s ∈ stored ∧ s.series = series) ∧
    (∀ hosts, c.selectOn series hosts = .ok (found.filter fun s => s.host ∈ hosts)) ∧
    ∀ host, c.get series host = .ok (found.find? fun s => s.host == host)
  of_all : ∃ listed found hosts,
    c.seriesList = .ok listed ∧ listed.Pairwise (fun a b => a.text < b.text) ∧
    (∀ series, series ∈ listed ↔ ∃ s ∈ stored, s.series = series) ∧
    listed.mapM c.select = .ok found ∧ c.selectAll = .ok found.flatten ∧
    found.flatten.Pairwise Snapshot.Before ∧
    c.hosts = .ok hosts ∧ hosts.Pairwise (· < ·) ∧
    (∀ host, host ∈ hosts ↔ ∃ s ∈ found.flatten, s.host = host) ∧
    c.size = .ok found.flatten.length ∧ c.isEmpty = .ok (found.flatten.length == 0)

/-- Only the members matter of the snapshots described. -/
theorem Describes.congr {stored stored' : List Snapshot} (h : c.Describes stored)
    (hmem : ∀ s, s ∈ stored ↔ s ∈ stored') : c.Describes stored' := by
  obtain ⟨hseries, hall⟩ := h
  simp only [hmem] at hseries hall
  exact ⟨hseries, hall⟩

/-- Series by series, the snapshots of all series are read. -/
theorem selectAll_eq_flatten (h : c.Catalogued) (hp : c.poisoned = false)
    {listed : List Series} (hsorted : listed.Pairwise fun a b => a.text < b.text)
    (hmem : ∀ series, series ∈ listed ↔ ∃ s ∈ c.datasets, s.series = series) :
    ∃ found, listed.mapM c.select = .ok found ∧ c.selectAll = .ok found.flatten := by
  choose found hselect hhosts hfound using select_spec h hp
  obtain ⟨all, hall, hbefore, hperm⟩ := selectAll_spec h hp
  refine ⟨listed.map found, ?_, ?_⟩
  · rw [Except.mapM_eq_ok_iff, List.map_map]
    exact List.map_congr_left fun series _ => hselect series
  · rw [hall, Except.ok.injEq, ← List.flatMap_def]
    -- both are in strict order, so their members decide
    refine List.eq_of_strictly_sorted (fun _ _ => Snapshot.Before.asymm) hbefore ?_ ?_
    · refine List.pairwise_flatMap.mpr ⟨?_, hsorted.imp ?_⟩
      · intro series _
        refine (hhosts series).imp_of_mem ?_
        intro a b ha hb hlt
        have hseries := ((hfound series a).mp ha).2.trans ((hfound series b).mp hb).2.symm
        exact .inr ⟨congrArg Series.text hseries, hlt⟩
      · intro series series' hlt a ha b hb
        obtain ⟨-, rfl⟩ := (hfound series a).mp ha
        obtain ⟨-, rfl⟩ := (hfound series' b).mp hb
        exact .inl hlt
    · intro s
      rw [hperm.mem_iff, List.mem_flatMap]
      constructor
      · intro hs
        exact ⟨s.series, (hmem s.series).mpr ⟨s, hs, rfl⟩, (hfound s.series s).mpr ⟨hs, rfl⟩⟩
      · rintro ⟨series, -, hs⟩
        exact ((hfound series s).mp hs).1

theorem Catalogued.describes (h : c.Catalogued) (hp : c.poisoned = false) :
    c.Describes c.datasets := by
  constructor
  · intro series
    obtain ⟨found, hselect, hsorted, hmem⟩ := select_spec h hp series
    exact ⟨found, hselect, hsorted, hmem, selectOn_eq_filter h hp hsorted hmem,
      get_eq_find? h hp hmem⟩
  · obtain ⟨listed, hlisted, hsorted, hmem⟩ := seriesList_spec h hp
    obtain ⟨found, hfound, hflatten⟩ := selectAll_eq_flatten h hp hsorted hmem
    obtain ⟨all, hall, hbefore, hperm⟩ := selectAll_spec h hp
    obtain rfl : all = found.flatten := Except.ok.inj (hall.symm.trans hflatten)
    have hsize : c.size = .ok found.flatten.length := by
      rw [size, locked_of_sane hp, hperm.length_eq]
      exact congrArg Except.ok h.tidy.count_eq
    have hhosts : c.hosts = .ok (sortedTexts (c.stock.shelves.values.flatMap Table.keys)) :=
      locked_of_sane hp _
    refine ⟨listed, found, _, hlisted, hsorted, hmem, hfound, hflatten, hbefore, hhosts,
      strictly_sorted_sortedTexts _, ?_, hsize, ?_⟩
    · intro host
      rw [mem_sortedTexts, h.tidy.mem_hosts_iff]
      exact exists_congr fun s => and_congr_left fun _ => hperm.mem_iff.symm
    · rw [isEmpty, hsize]
      rfl

/-! ### The datasets in place after a sample -/

/-- The first sample of a dataset adds a snapshot of its series, or fails; only a failure for want of
room in memory can poison the collector. -/
theorem recordFirst_keeps (h : c.stock.Tidy) (absent : c.find? series host = none) (p : Pool)
    (x : Sample) :
    (∀ s ∈ (c.recordFirst p series host x).collector.datasets, s ∈ c.datasets ∨ s.series = series) ∧
      ((c.recordFirst p series host x).collector.poisoned = c.poisoned ∨
        (c.recordFirst p series host x).result = .error .unaddressable) := by
  rw [recordFirst, Stock.stored_eq]
  split
  · exact ⟨fun s hs => .inl hs, .inr rfl⟩
  · exact ⟨fun s hs => .inl hs, .inl rfl⟩
  · next q empty hfresh =>
    refine ⟨fun s hs => ?_, .inl rfl⟩
    have hperm := h.snapshots_insert absent (empty.add q x).2
    obtain hold | hs := List.mem_append.mp (hperm.mem_iff.mp hs)
    · exact .inl hold
    · obtain rfl := List.mem_singleton.mp hs
      exact .inr (Prod.mk.inj (Snapshot.key_of_fresh hfresh)).1

/-- A sample brings in no snapshot but one of its own series. -/
theorem record_keeps (h : c.stock.Tidy) (p : Pool) (series : Series) (host : String) (x : Sample) :
    (∀ s ∈ (c.record p series host x).collector.datasets, s ∈ c.datasets ∨ s.series = series) ∧
      ((c.record p series host x).collector.poisoned = c.poisoned ∨
        (c.record p series host x).result = .error .unaddressable) := by
  rw [record]
  split
  · exact ⟨fun s hs => .inl hs, .inl rfl⟩
  · cases hf : c.find? series host with
    | some current =>
      refine ⟨fun s hs => ?_, .inl rfl⟩
      obtain rfl | ⟨hold, -⟩ := mem_replace h hs
      · exact .inr (Prod.mk.inj (mem_of_find? h hf).2).1
      · exact .inl hold
    | none =>
      cases c.reachedLimit? with
      | some limit => exact ⟨fun s hs => .inl hs, .inl rfl⟩
      | none => exact recordFirst_keeps h hf p x

end Collector

namespace Console

open Collector

variable {c : Console}

theorem results_cons (c : Console) (a : Act) (rest : List Act) :
    c.results (a :: rest) = (c.act a).result.toList ++ (c.act a).console.results rest := by
  rw [← List.singleton_append, results_append]
  rfl

/-- A sample was taken, or refused because there are as many datasets as there may be. -/
def TakenOrFull (result : Except Failure Unit) : Prop :=
  result = .ok () ∨ ∃ current limit, result = .error (.full current limit)

/-- A sample of a well-formed series keeps the catalogue, and unless it fails for want of room in
memory the collector stays sane. -/
theorem catalogued_act (h : c.collector.Catalogued) (hp : c.collector.poisoned = false) {a : Act}
    (hwell : ∀ series host x, a = .record series host x → series.WellFormed)
    (htaken : ∀ result ∈ (c.act a).result.toList, TakenOrFull result) :
    (c.act a).console.collector.Catalogued ∧ (c.act a).console.collector.poisoned = false := by
  cases a with
  | record series host x =>
    obtain ⟨hstored, hpoisoned⟩ := record_keeps h.tidy c.handed.pool series host x
    constructor
    · refine ⟨tidy_record h.tidy c.handed.pool series host x, fun s hs => ?_⟩
      obtain hold | hnew := hstored s hs
      · exact h.wellFormed s hold
      · exact hnew ▸ hwell series host x rfl
    · refine hpoisoned.elim (fun hsame => hsame.trans hp) fun hfails => ?_
      obtain hok | ⟨current, limit, hfull⟩ := htaken _ (List.mem_singleton_self _)
      · exact absurd (hok.symm.trans hfails) nofun
      · exact absurd (hfull.symm.trans hfails) nofun
  | read reading =>
    show (c.read reading).1.collector.Catalogued ∧ (c.read reading).1.collector.poisoned = false
    rw [collector_read]
    exact ⟨h, hp⟩
  | extend position x => exact ⟨h, hp⟩

theorem catalogued_after {acts : List Act} (h : c.collector.Catalogued)
    (hp : c.collector.poisoned = false)
    (hwell : ∀ series host x, .record series host x ∈ acts → series.WellFormed)
    (htaken : ∀ result ∈ c.results acts, TakenOrFull result) :
    (c.after acts).collector.Catalogued ∧ (c.after acts).collector.poisoned = false := by
  induction acts generalizing c with
  | nil => exact ⟨h, hp⟩
  | cons a rest ih =>
    rw [results_cons] at htaken
    obtain ⟨hnow, hlater⟩ := List.forall_mem_append.mp htaken
    obtain ⟨h, hp⟩ := catalogued_act h hp
      (fun series host x heq => hwell series host x (heq ▸ List.mem_cons_self)) hnow
    exact ih h hp (fun series host x hmem => hwell series host x (List.mem_cons_of_mem a hmem)) hlater

/-- **All selections describe one set.**  After any samples of series that were read from texts, each
of them taken or refused for the limit, the readings of the collector agree on the snapshots in place,
in whatever order the shelves of the stock and the entries of each shelf are met. -/
theorem selections_describe_one_set {config : Config} (hc : 1 ≤ config.capacity) :
    ∃ c, start config = .ok c ∧ ∀ acts : List Act,
      (∀ series host x, .record series host x ∈ acts → ∃ text, Series.parse text = .ok series) →
      (∀ result ∈ c.results acts, TakenOrFull result) →
      ∀ order : Stock, order.Reorders (c.after acts).collector.stock →
        { (c.after acts).collector with stock := order }.Describes
          (c.after acts).collector.datasets := by
  refine ⟨fresh config, start_eq_ok hc, ?_⟩
  intro acts hread htaken order horder
  have hstart : (fresh config).collector.Catalogued :=
    ⟨Stock.tidy_empty, fun s hs => absurd hs List.not_mem_nil⟩
  obtain ⟨hcatalogued, hsane⟩ := catalogued_after hstart rfl
    (fun series host x hmem => (hread series host x hmem).elim fun _ => .of_parse) htaken
  exact ((hcatalogued.reorder horder).describes hsane).congr fun _ => horder.snapshots_perm.mem_iff

/-- Room for three datasets. -/
def threefold : Config := { capacity := 2, maxSeries := some 3 }

/-- A series with a tag. -/
def wind : Series := ⟨[("at", "quay")], "wind"⟩

/-- Three datasets begin, out of order, and a fourth is refused. -/
def scattered : List Act :=
  [.record wind "b" ⟨1, 5⟩, .record (Series.ofName "air") "b" ⟨1, 7⟩, .record wind "a" ⟨2, 4⟩,
    .record (Series.ofName "air") "c" ⟨2, 9⟩]

/-- Walked backwards, series and snapshots are read in order all the same; that of the refused
dataset is not there. -/
theorem selections_describe_one_set_scattered :
    (1 ≤ threefold.capacity ∧ Series.parse " at:quay  wind" = .ok wind ∧
      Series.parse "air" = .ok (Series.ofName "air")) ∧
      ∃ c k, start threefold = .ok c ∧
        c.results scattered = [.ok (), .ok (), .ok (), .error (.full 3 3)] ∧
        k = { (c.after scattered).collector with
          stock := (c.after scattered).collector.stock.reversed } ∧
        k.seriesList = .ok [Series.ofName "air", wind] ∧
        (∃ found, k.select wind = .ok found ∧ found.map (·.host) = ["a", "b"]) ∧
        k.get (Series.ofName "air") "c" = .ok none := by
  have hair : Series.parse "air" = .ok (Series.ofName "air") := rfl
  have hwind : Series.parse " at:quay  wind" = .ok wind := rfl
  refine ⟨⟨by decide, hwind, hair⟩, ?_⟩
  obtain ⟨c, hstart, h⟩ := @selections_describe_one_set threefold (by decide)
  have hfresh := hstart
  rw [start_eq_ok (by decide)] at hfresh
  cases hfresh
  have hread : ∀ series host x, .record series host x ∈ scattered →
      ∃ text, Series.parse text = .ok series := by
    intro series host x hmem
    simp only [scattered, List.mem_cons, Act.record.injEq, List.not_mem_nil, or_false] at hmem
    obtain ⟨rfl, -, -⟩ | ⟨rfl, -, -⟩ | ⟨rfl, -, -⟩ | ⟨rfl, -, -⟩ := hmem
    · exact ⟨_, hwind⟩
    · exact ⟨_, hair⟩
    · exact ⟨_, hwind⟩
    · exact ⟨_, hair⟩
  have hresults : (fresh threefold).results scattered =
      [.ok (), .ok (), .ok (), .error (.full 3 3)] := rfl
  have htaken : ∀ result ∈ (fresh threefold).results scattered, TakenOrFull result := by
    rw [hresults]
    simp [TakenOrFull]
  have hdescribes := h scattered hread htaken _
    (Stock.reversed_reorders (@tidy_after (fresh threefold) Stock.tidy_empty scattered))
  -- the two snapshots of one series, and one of another
  obtain ⟨b, a, o, hstored, ⟨hb, hb'⟩, ⟨ha, ha'⟩, ⟨ho, ho'⟩⟩ : ∃ b a o,
      ((fresh threefold).after scattered).collector.datasets = [b, a, o] ∧
        (b.series = wind ∧ b.host = "b") ∧ (a.series = wind ∧ a.host = "a") ∧
        (o.series = Series.ofName "air" ∧ o.host = "b") :=
    ⟨_, _, _, rfl, ⟨rfl, rfl⟩, ⟨rfl, rfl⟩, ⟨rfl, rfl⟩⟩
  have hne : Series.ofName "air" ≠ wind := by decide
  obtain ⟨listed, -, -, hlisted, hsorted, hmem, -⟩ := hdescribes.of_all
  obtain ⟨found, hselect, hfound, hwinds, -⟩ := hdescribes.of_series wind
  obtain ⟨airs, -, -, hairs, -, hget⟩ := hdescribes.of_series (Series.ofName "air")
  rw [hstored] at hmem hwinds hairs
  obtain rfl : listed = [Series.ofName "air", wind] := by
    refine List.eq_of_strictly_sorted (fun _ _ => String.lt_asymm) hsorted (by decide) ?_
    intro series
    simp [hmem, hb, ho, ha, or_comm, eq_comm]
  obtain rfl : found = [a, b] := by
    refine List.eq_of_strictly_sorted (fun _ _ => String.lt_asymm) hfound ?_ ?_
    · rw [List.pairwise_pair, ha', hb']
      decide
    · intro s
      rw [hwinds]
      constructor
      · rintro ⟨hs, hseries⟩
        have hother : s ≠ o := fun heq => hne (ho.symm.trans (heq ▸ hseries))
        simpa [hother, or_comm] using hs
      · intro hs
        obtain rfl | rfl := List.mem_pair.mp hs
        · exact ⟨by simp, ha⟩
        · exact ⟨by simp, hb⟩
  refine ⟨_, _, hstart, hresults, rfl, hlisted, ⟨_, hselect, ?_⟩, ?_⟩
  · rw [List.map_cons, List.map_singleton, ha', hb']
  · rw [hget, Except.ok.injEq, List.find?_eq_none]
    intro s hs
    obtain ⟨hs, hseries⟩ := (hairs s).mp hs
    obtain rfl : s = o := by
      have ha : s ≠ a := fun heq => hne (hseries.symm.trans (heq ▸ ha))
      have hb : s ≠ b := fun heq => hne (hseries.symm.trans (heq ▸ hb))
      simpa [ha, hb] using hs
    rw [ho']
    decide

end Console

end MetricStore
