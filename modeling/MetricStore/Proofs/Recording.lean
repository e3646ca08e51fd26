import MetricStore.Proofs.Admission
import MetricStore.Proofs.Sharing

/-!
What a collector holds after any acts.

`Console.Keeps` is what all acts keep: the stock is tidy, the datasets in place are those admitted,
tapes are shared within a dataset only, and each snapshot in place tracks the samples recorded for
its dataset.  It is shown for each thing that an act can do (`Keeps.step`) and then for runs
(`Keeps.after`).  Main statement:

* `recorded_as_admitted`: samples are taken or refused by the rule of admission, the maps and the
  number kept beside them agree, and the snapshot in place of a dataset is what a dataset of its own
  makes of the samples recorded for it.
-/

namespace MetricStore

namespace Console

open Collector

/-! ### What all acts keep -/

/-- The snapshots in place and those in the hands of others. -/
def Holds (c : Console) (s : Snapshot) : Prop :=
  s ∈ c.collector.datasets ∨ s ∈ c.handed.snapshots

/-- The collector has the datasets that the acts admit in a tidy stock, and each has a snapshot that
tracks the samples recorded for it, with `alone` telling which datasets are left alone. -/
structure Keeps (config : Config) (alone : Series × String → Prop) (acts : List Act) (c : Console) :
    Prop where
  config_eq : c.collector.config = config
  sane : c.collector.poisoned = false
  tidy : c.collector.stock.Tidy
  keys_perm : (c.collector.datasets.map Snapshot.key).Perm (admitted config.maxSeries acts)
  apart : Apart c.handed.pool c.Holds
  tracks : ∀ s ∈ c.collector.datasets,
    s.Tracks config.capacity c.handed.pool (alone s.key) (ownSamples s.series s.host acts)

namespace Keeps

variable {config : Config} {alone : Series × String → Prop} {acts : List Act} {c : Console}

/-- The number that the stock keeps is that of the datasets admitted. -/
theorem count_eq (h : c.Keeps config alone acts) :
    c.collector.stock.count = (admitted config.maxSeries acts).length := by
  rw [h.tidy.count_eq, ← h.keys_perm.length_eq, List.length_map]
  rfl

theorem find?_eq_none_iff (h : c.Keeps config alone acts) {series : Series} {host : String} :
    c.collector.find? series host = none ↔ (series, host) ∉ admitted config.maxSeries acts := by
  rw [← h.keys_perm.mem_iff]
  exact Collector.find?_eq_none_iff h.tidy

/-- The snapshot that is found is in place, and is of the dataset asked for. -/
theorem mem_of_find? (h : c.Keeps config alone acts) {series : Series} {host : String} {s : Snapshot}
    (found : c.collector.find? series host = some s) :
    s ∈ c.collector.datasets ∧ s.key = (series, host) :=
  Collector.mem_of_find? h.tidy found

theorem get_eq (h : c.Keeps config alone acts) (series : Series) (host : String) :
    c.collector.get series host = .ok (c.collector.find? series host) := by
  rw [Collector.get, locked, h.sane, if_neg Bool.false_ne_true]

/-- An act that asks for no dataset leaves all that is in place. -/
theorem of_asks_eq_none (h : c.Keeps config alone acts) {a : Act} (ha : a.asks = none) :
    c.Keeps config alone (acts ++ [a]) := by
  refine ⟨h.config_eq, h.sane, h.tidy, ?_, h.apart, ?_⟩
  · rw [admitted_concat_of_asked_eq (asked_concat_of_none ha)]
    exact h.keys_perm
  · intro s hs
    rw [ownSamples_concat_of_ne (by simp [ha])]
    exact h.tracks s hs

theorem mem_admitted_of_find? (h : c.Keeps config alone acts) {series : Series} {host : String}
    {current : Snapshot} (found : c.collector.find? series host = some current) :
    (series, host) ∈ admitted config.maxSeries acts := by
  obtain ⟨hmem, hkey⟩ := h.mem_of_find? found
  rw [← h.keys_perm.mem_iff, ← hkey]
  exact List.mem_map_of_mem hmem

/-- What is recorded for one dataset is not recorded for another. -/
theorem ownSamples_of_key_ne {s : Snapshot} {series : Series} {host : String}
    (hne : s.key ≠ (series, host)) (x : Sample) :
    ownSamples s.series s.host (acts ++ [.record series host x]) = ownSamples s.series s.host acts :=
  ownSamples_concat_of_ne fun hasks => hne (Option.some.inj hasks).symm

/-! One lemma for each thing that an act can do. -/

theorem next (h : c.Keeps config alone acts) {series : Series} {host : String} {current : Snapshot}
    (found : c.collector.find? series host = some current) (x : Sample) :
    Keeps config alone (acts ++ [.record series host x])
      ⟨c.collector.replace series host (current.add c.handed.pool x).2,
        { c.handed with pool := (current.add c.handed.pool x).1 }⟩ := by
  obtain ⟨hmem, hkey⟩ := h.mem_of_find? found
  have hnext : (current.add c.handed.pool x).2.key = (series, host) := hkey
  refine ⟨h.config_eq, h.sane, h.tidy.replace hnext, ?_, ?_, ?_⟩
  · have hasked := admitted_subset_asked (h.mem_admitted_of_find? found)
    rw [admitted_concat_of_asked_eq (asked_concat_of_mem rfl hasked), keys_replace h.tidy hnext]
    exact h.keys_perm
  · refine (h.apart.add (.inl hmem) x).mono ?_
    rintro s (hs | hs)
    · obtain rfl | ⟨hold, -⟩ := mem_replace h.tidy hs
      · exact .inr rfl
      · exact .inl (.inl hold)
    · exact .inl (.inr hs)
  · intro s hs
    obtain rfl | ⟨hold, hne⟩ := mem_replace h.tidy hs
    · -- the snapshot in place has tracked all samples but this one
      obtain ⟨rfl, rfl⟩ := Prod.mk.inj hkey
      show Snapshot.Tracks _ _ _ (ownSamples current.series current.host _) _
      rw [ownSamples_concat_record]
      exact (h.tracks current hmem).add x
    · -- the other datasets are on other tapes
      rw [ownSamples_of_key_ne hne]
      rw [← hkey] at hne
      exact (h.tracks s hold).after (fun _ => h.apart.tape_ne (.inl hold) (.inl hmem) hne) x

theorem refused (h : c.Keeps config alone acts) {series : Series} {host : String} {limit : Nat}
    (absent : c.collector.find? series host = none)
    (limited : c.collector.config.maxSeries = some limit)
    (full : limit ≤ c.collector.stock.count) (x : Sample) :
    c.Keeps config alone (acts ++ [.record series host x]) := by
  rw [h.config_eq] at limited
  refine ⟨h.config_eq, h.sane, h.tidy, ?_, h.apart, ?_⟩
  · have hkeys := h.keys_perm
    rw [h.count_eq, limited] at full
    rw [limited] at hkeys ⊢
    rw [(admitted_concat_of_full full _).1]
    exact hkeys
  · intro s hs
    rw [ownSamples_of_key_ne (key_ne_of_find?_eq_none h.tidy absent hs)]
    exact h.tracks s hs

/-- Nothing was recorded for a dataset that there is room for and that is not there. -/
theorem ownSamples_of_room (h : c.Keeps config alone acts) {series : Series} {host : String}
    (absent : c.collector.find? series host = none)
    (room : ∀ limit, c.collector.config.maxSeries = some limit →
      c.collector.stock.count < limit) : ownSamples series host acts = [] := by
  have hnew := h.find?_eq_none_iff.mp absent
  rw [h.config_eq, h.count_eq] at room
  rw [admitted_eq_asked room] at hnew
  exact ownSamples_of_notMem hnew

theorem first (hc : 1 ≤ config.capacity) (h : c.Keeps config alone acts) {series : Series}
    {host : String} (absent : c.collector.find? series host = none)
    (room : ∀ limit, c.collector.config.maxSeries = some limit →
      c.collector.stock.count < limit) (x : Sample) :
    Keeps config alone (acts ++ [.record series host x])
      ⟨c.collector.insert series host
          (Snapshot.opening c.handed.pool series host c.collector.config.capacity x).2,
        { c.handed with
          pool := (Snapshot.opening c.handed.pool series host c.collector.config.capacity x).1 }⟩ := by
  have hnew := h.find?_eq_none_iff.mp absent
  have hnone := h.ownSamples_of_room absent room
  rw [h.config_eq] at room ⊢
  rw [h.count_eq] at room
  have hapart := h.apart.blank series host config.capacity
  -- on the shelves, the new snapshot stands somewhere among the others
  have hperm := h.tidy.snapshots_insert absent
    (Snapshot.opening c.handed.pool series host config.capacity x).2
  refine ⟨h.config_eq, h.sane, h.tidy.insert absent rfl, ?_, ?_, ?_⟩
  · rw [admitted_concat_of_room room rfl hnew]
    refine (hperm.map Snapshot.key).trans ?_
    rw [List.map_append]
    exact h.keys_perm.append_right _
  · refine (hapart.add (.inr rfl) x).mono ?_
    rintro s (hs | hs)
    · obtain hold | hs := List.mem_append.mp (hperm.mem_iff.mp hs)
      · exact .inl (.inl (.inl hold))
      · exact .inr (List.mem_singleton.mp hs)
    · exact .inl (.inl (.inr hs))
  · intro s hs
    obtain hold | hs := List.mem_append.mp (hperm.mem_iff.mp hs)
    · have hne := key_ne_of_find?_eq_none h.tidy absent hold
      rw [ownSamples_of_key_ne hne]
      have hother := hapart.tape_ne (.inl (.inl hold)) (.inr rfl) hne
      exact ((h.tracks s hold).after_fresh config.capacity).after (fun _ => hother) x
    · obtain rfl := List.mem_singleton.mp hs
      show Snapshot.Tracks _ _ _ (ownSamples series host _) _
      rw [ownSamples_concat_record, hnone]
      exact (Snapshot.Tracks.blank c.handed.pool series host hc _).add x

theorem read (h : c.Keeps config alone acts) {found : List Snapshot}
    (stored : ∀ s ∈ found, s ∈ c.collector.datasets) (reading : Reading) :
    Keeps config alone (acts ++ [.read reading])
      { c with handed := ⟨c.handed.pool, c.handed.snapshots ++ found.toArray⟩ } := by
  obtain ⟨hconfig, hsane, htidy, hkeys, hapart, htracks⟩ :=
    h.of_asks_eq_none (a := .read reading) rfl
  refine ⟨hconfig, hsane, htidy, hkeys, hapart.mono ?_, htracks⟩
  rintro s (hs | hs)
  · exact .inl hs
  · obtain hs | hs := Array.mem_append.mp hs
    · exact .inr hs
    · exact .inl (stored s (List.mem_toArray.mp hs))

theorem extend (h : c.Keeps config alone acts) {position : Nat} {held : Snapshot}
    (holds : c.handed.snapshots[position]? = some held) (hleft : ¬ alone held.key) (x : Sample) :
    Keeps config alone (acts ++ [.extend position x])
      { c with handed := ⟨(held.add c.handed.pool x).1,
          c.handed.snapshots.push (held.add c.handed.pool x).2⟩ } := by
  have hheld : c.Holds held := .inr (Array.mem_of_getElem? holds)
  obtain ⟨hconfig, hsane, htidy, hkeys, hapart, htracks⟩ :=
    h.of_asks_eq_none (a := .extend position x) rfl
  refine ⟨hconfig, hsane, htidy, hkeys, (hapart.add hheld x).mono ?_, ?_⟩
  · rintro s (hs | hs)
    · exact .inl (.inl hs)
    · obtain hs | rfl := Array.mem_push.mp hs
      · exact .inl (.inr hs)
      · exact .inr rfl
  · -- what is left alone is of another dataset
    intro s hs
    refine (htracks s hs).after (fun halone => ?_) x
    exact hapart.tape_ne (.inl hs) hheld fun hkey => hleft (hkey ▸ halone)

theorem act_step (h : c.Keeps config alone acts) (hc : 1 ≤ config.capacity)
    (ha : Snapshot.Addressable config.capacity) (a : Act) : Step c a (c.act a) :=
  Console.act_step h.sane (h.config_eq ▸ hc) (h.config_eq ▸ ha) a

/-- A sample is taken if its dataset is admitted; if it is not, nothing happens. -/
theorem of_record (h : c.Keeps config alone acts) {series : Series} {host : String} {x : Sample}
    {o : Outcome} (hs : Step c (.record series host x) o) :
    (o.result = some (.ok ()) ↔
        (series, host) ∈ admitted config.maxSeries (acts ++ [.record series host x])) ∧
      ((series, host) ∉ admitted config.maxSeries (acts ++ [.record series host x]) →
        o.console = c ∧ ∃ limit, config.maxSeries = some limit ∧
          o.result = some (.error (.full limit limit))) := by
  cases hs with
  | next found =>
    have hin := h.mem_admitted_of_find? found
    rw [admitted_concat_of_asked_eq (asked_concat_of_mem rfl (admitted_subset_asked hin))]
    exact ⟨iff_of_true rfl hin, fun hnot => absurd hin hnot⟩
  | refused absent limited full =>
    rw [h.config_eq] at limited
    have hnot := h.find?_eq_none_iff.mp absent
    rw [h.count_eq] at full ⊢
    rw [limited] at full hnot ⊢
    obtain ⟨hsame, hlen⟩ := admitted_concat_of_full full (.record series host x)
    rw [hsame, hlen]
    exact ⟨iff_of_false nofun hnot, fun _ => ⟨rfl, _, rfl, rfl⟩⟩
  | first absent room =>
    rw [h.config_eq, h.count_eq] at room
    rw [admitted_concat_of_room room rfl (h.find?_eq_none_iff.mp absent)]
    have hin : (series, host) ∈ admitted config.maxSeries acts ++ [(series, host)] :=
      List.mem_append_right _ (List.mem_singleton_self _)
    exact ⟨iff_of_true rfl hin, fun hnot => absurd hin hnot⟩

/-- One act keeps it all, if the dataset of a snapshot that a holder adds to is not one that is left
alone. -/
theorem step (hc : 1 ≤ config.capacity) (h : c.Keeps config alone acts) {a : Act} {o : Outcome}
    (hs : Step c a o)
    (hleft : ∀ position x held, a = .extend position x →
      c.handed.snapshots[position]? = some held → ¬ alone held.key) :
    o.console.Keeps config alone (acts ++ [a]) := by
  cases hs with
  | next found => exact h.next found _
  | refused absent limited full => exact h.refused absent limited full _
  | first absent room => exact h.first hc absent room _
  | read finds stored => exact h.read stored _
  | extend holds => exact h.extend holds (hleft _ _ _ rfl holds) _
  | idle lacks => exact h.of_asks_eq_none rfl

end Keeps

/-! ### Runs -/

theorem leavesAlone_nil {series : Series} {host : String} {c : Console} :
    LeavesAlone series host c [] := by
  intro earlier later position x hacts
  exact absurd hacts.symm (List.append_ne_nil_of_right_ne_nil _ (List.cons_ne_nil _ _))

/-- A dataset is left alone by an act that adds to no snapshot of it and by the acts after that. -/
theorem leavesAlone_cons_iff {series : Series} {host : String} {c : Console} {a : Act}
    {rest : List Act} :
    LeavesAlone series host c (a :: rest) ↔
      (∀ position x, a = .extend position x →
        ∀ s, c.handed.snapshots[position]? = some s → s.isOf series host = false) ∧
      LeavesAlone series host (c.act a).console rest := by
  constructor
  · intro h
    constructor
    · rintro position x rfl
      exact h [] rest position x rfl
    · rintro earlier later position x rfl
      exact h (a :: earlier) later position x rfl
  · rintro ⟨hnow, hrest⟩ earlier later position x hacts
    cases earlier with
    | nil => exact hnow position x (List.cons.inj hacts).1
    | cons b earlier =>
      obtain ⟨rfl, htail⟩ := List.cons.inj hacts
      exact hrest earlier later position x htail

/-- Any acts keep it all, for the datasets that they leave alone. -/
theorem Keeps.after {config : Config} (hc : 1 ≤ config.capacity)
    (ha : Snapshot.Addressable config.capacity) {alone : Series × String → Prop} {acts : List Act}
    {c : Console} (h : c.Keeps config alone acts) {later : List Act}
    (hleft : ∀ key, alone key → LeavesAlone key.1 key.2 c later) :
    (c.after later).Keeps config alone (acts ++ later) := by
  -- the datasets left alone are fixed, so that each act has only its own addition to answer for
  induction later generalizing c acts with
  | nil =>
    rw [List.append_nil]
    exact h
  | cons a rest ih =>
    have hnext : (c.act a).console.Keeps config alone (acts ++ [a]) := by
      refine h.step hc (h.act_step hc ha a) ?_
      intro position x held hact holds halone
      have hof : held.isOf held.key.1 held.key.2 = true := Snapshot.isOf_iff.mpr rfl
      rw [(leavesAlone_cons_iff.mp (hleft held.key halone)).1 position x hact held holds] at hof
      exact Bool.noConfusion hof
    have hall := ih hnext fun key halone => (leavesAlone_cons_iff.mp (hleft key halone)).2
    rw [List.append_assoc] at hall
    exact hall

/-- The console before any acts. -/
def fresh (config : Config) : Console := ⟨⟨config, .empty, false⟩, Lineage.empty⟩

theorem start_eq_ok {config : Config} (hc : 1 ≤ config.capacity) :
    start config = .ok (fresh config) := by
  rw [start, Collector.start, if_neg (by omega)]
  rfl

theorem keeps_fresh (config : Config) (alone : Series × String → Prop) :
    (fresh config).Keeps config alone [] := by
  have hnone : ∀ s, ¬ (fresh config).Holds s := by
    rintro s (hs | hs)
    · exact List.not_mem_nil hs
    · exact Array.not_mem_empty s hs
  refine ⟨rfl, rfl, Stock.tidy_empty, ?_, ⟨?_, ?_⟩, ?_⟩
  · rw [admitted_nil]
    exact .nil
  · exact fun s hs => absurd hs (hnone s)
  · exact fun s _ hs => absurd hs (hnone s)
  · exact fun s hs => absurd hs List.not_mem_nil

variable {config : Config}

theorem keeps_after (hc : 1 ≤ config.capacity) (ha : Snapshot.Addressable config.capacity)
    (acts : List Act) :
    ((fresh config).after acts).Keeps config
      (fun key => LeavesAlone key.1 key.2 (fresh config) acts) acts :=
  (keeps_fresh config _).after hc ha fun _ halone => halone

/-- **What a collector holds.**  A sample is taken if and only if its dataset is admitted, and one
that is not leaves all as it was.  At every moment the maps of the stock are tidy and the number kept
beside them is that of the datasets in place, which are those admitted; and the snapshot of each agrees
with the one that a fresh dataset makes of the samples recorded for it in turn.  It also shows the same
samples if nobody added to a snapshot of this dataset. -/
theorem recorded_as_admitted (hc : 1 ≤ config.capacity)
    (ha : Snapshot.Addressable config.capacity) :
    ∃ c, start config = .ok c ∧ ∀ acts : List Act,
      (∀ earlier series host x later, acts = earlier ++ .record series host x :: later →
        (((c.after earlier).act (.record series host x)).result = some (.ok ()) ↔
            (series, host) ∈ admitted config.maxSeries acts) ∧
          ((series, host) ∉ admitted config.maxSeries acts →
            ((c.after earlier).act (.record series host x)).console = c.after earlier ∧
            ∃ limit, config.maxSeries = some limit ∧
              ((c.after earlier).act (.record series host x)).result =
                some (.error (.full limit limit)))) ∧
      (c.after acts).collector.stock.Tidy ∧
      ((c.after acts).collector.datasets.map Snapshot.key).Perm (admitted config.maxSeries acts) ∧
      (c.after acts).collector.size = .ok (admitted config.maxSeries acts).length ∧
      ∀ series host,
        ((c.after acts).collector.get series host = .ok none ↔
            (series, host) ∉ admitted config.maxSeries acts) ∧
          ((series, host) ∈ admitted config.maxSeries acts →
            ∃ s l r, (c.after acts).collector.get series host = .ok (some s) ∧
              s.key = (series, host) ∧ s.capacity = config.capacity ∧
              Lineage.start series host config.capacity = .ok l ∧
              (l.grow (inTurn (ownSamples series host acts))).snapshots[
                (ownSamples series host acts).length]? = some r ∧
              s.Agrees r ∧
              (LeavesAlone series host c acts →
                s.samples (c.after acts).handed.pool =
                  r.samples (l.grow (inTurn (ownSamples series host acts))).pool)) := by
  refine ⟨fresh config, start_eq_ok hc, ?_⟩
  intro acts
  have hkeeps := keeps_after hc ha acts
  refine ⟨?_, hkeeps.tidy, hkeeps.keys_perm, ?_, ?_⟩
  · intro earlier series host x later hacts
    have hbefore := keeps_after hc ha earlier
    obtain ⟨hiff, hrefused⟩ := hbefore.of_record (hbefore.act_step hc ha (.record series host x))
    -- whether the dataset is admitted is settled by this act
    have hasked : (series, host) ∈ asked (earlier ++ [.record series host x]) :=
      mem_asked_iff.mpr ⟨_, List.mem_append_right _ (List.mem_singleton_self _), rfl⟩
    have hsettled : (series, host) ∈ admitted config.maxSeries acts ↔
        (series, host) ∈ admitted config.maxSeries (earlier ++ [.record series host x]) := by
      rw [hacts, List.append_cons]
      exact mem_admitted_iff_of_prefix later hasked
    exact ⟨hiff.trans hsettled.symm, fun hnot => hrefused (hsettled.not.mp hnot)⟩
  · rw [size, locked, hkeeps.sane, if_neg Bool.false_ne_true, hkeeps.count_eq]
  · intro series host
    rw [hkeeps.get_eq, Except.ok.injEq, hkeeps.find?_eq_none_iff]
    refine ⟨Iff.rfl, fun hin => ?_⟩
    cases hfind : ((fresh config).after acts).collector.find? series host with
    | none => exact absurd hin (hkeeps.find?_eq_none_iff.mp hfind)
    | some s =>
      obtain ⟨hmem, hkey⟩ := hkeeps.mem_of_find? hfind
      obtain ⟨rfl, rfl⟩ := Prod.mk.inj hkey
      have htracks := hkeeps.tracks s hmem
      obtain ⟨l, r, hl, hr, hagrees, hshows⟩ := htracks.copy s.series s.host hc ha
      exact ⟨s, l, r, rfl, rfl, htracks.sound.capacity_eq, hl, hr, hagrees, hshows⟩

/-- Three samples of room for each of two datasets. -/
def narrow : Config := { capacity := 3, maxSeries := some 2 }

/-- Two datasets begin, a holder adds to a snapshot of the first, a third is refused, and the second
takes one sample more. -/
def crowded : List Act :=
  [.record (Series.ofName "heat") "server" ⟨1, 5⟩, .record (Series.ofName "load") "server" ⟨1, 7⟩,
    .read (.get (Series.ofName "heat") "server"), .extend 0 ⟨2, 9⟩,
    .record (Series.ofName "wind") "server" ⟨2, 1⟩, .record (Series.ofName "load") "server" ⟨3, 8⟩]

theorem leavesAlone_crowded :
    LeavesAlone (Series.ofName "load") "server" (fresh narrow) crowded := by
  simp only [crowded, leavesAlone_cons_iff]
  refine ⟨nofun, nofun, nofun, ?_, nofun, nofun, leavesAlone_nil⟩
  rintro _ _ ⟨⟩ s hs
  obtain rfl := Option.some.inj hs
  decide

/-- With room for two datasets the third is refused, and the second holds its own two samples
whatever the holder of a snapshot of the first did. -/
theorem recorded_as_admitted_crowded :
    (1 ≤ narrow.capacity ∧ Snapshot.Addressable narrow.capacity) ∧
      ∃ c s l r, start narrow = .ok c ∧
        ((c.after (crowded.take 4)).act (.record (Series.ofName "wind") "server" ⟨2, 1⟩)).result =
          some (.error (.full 2 2)) ∧
        (c.after crowded).collector.stock.Tidy ∧
        ((c.after crowded).collector.datasets.map Snapshot.key).Perm
          [(Series.ofName "heat", "server"), (Series.ofName "load", "server")] ∧
        (c.after crowded).collector.size = .ok 2 ∧
        (c.after crowded).collector.get (Series.ofName "wind") "server" = .ok none ∧
        (c.after crowded).collector.get (Series.ofName "load") "server" = .ok (some s) ∧
        Lineage.start (Series.ofName "load") "server" 3 = .ok l ∧
        (l.grow (inTurn [⟨1, 7⟩, ⟨3, 8⟩])).snapshots[2]? = some r ∧ s.Agrees r ∧
        s.samples (c.after crowded).handed.pool =
          r.samples (l.grow (inTurn [⟨1, 7⟩, ⟨3, 8⟩])).pool := by
  refine ⟨⟨by decide, by decide⟩, ?_⟩
  obtain ⟨c, hstart, h⟩ := @recorded_as_admitted narrow (by decide) (by decide)
  have hfresh := hstart
  rw [start_eq_ok (by decide)] at hfresh
  cases hfresh
  have hadmitted : admitted narrow.maxSeries crowded =
      [(Series.ofName "heat", "server"), (Series.ofName "load", "server")] := by decide
  obtain ⟨hrecords, htidy, hkeys, hsize, hdatasets⟩ := h crowded
  rw [hadmitted] at hrecords hkeys hsize hdatasets
  obtain ⟨-, hrefused⟩ := hrecords (crowded.take 4) (Series.ofName "wind") "server" ⟨2, 1⟩
    (crowded.drop 5) rfl
  obtain ⟨-, limit, hlimit, hresult⟩ := hrefused (by decide)
  cases hlimit
  obtain ⟨s, l, r, hget, -, -, hl, hr, hagrees, hshows⟩ :=
    (hdatasets (Series.ofName "load") "server").2 (by decide)
  exact ⟨_, s, l, r, hstart, hresult, htidy, hkeys, hsize, (hdatasets _ _).1.mpr (by decide), hget,
    hl, hr, hagrees, hshows leavesAlone_crowded⟩

end Console

end MetricStore
