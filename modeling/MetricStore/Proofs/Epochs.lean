import MetricStore.Proofs.Accounts
import MetricStore.Proofs.Schedule

/-!
What the listener hears of the epochs of a dataset.

As long as nobody adds to the snapshots of a dataset that were handed out, the snapshot in place is the
one that wrote last, so every sample is written in place and all snapshots of the dataset are on one
tape (`Snapshot.Leads`).  Each compaction of this tape begins its next epoch and is told at once, and it
is what outdates the snapshots.

Main statement:

* `epochs_told_without_gap`: the epochs told of a dataset, and the snapshots that each of them outdates.

Design notes: an act begins a dataset, prolongs it or leaves it alone (`DatasetStep`); whatever is said
of one dataset along a run is shown for these three.
-/

namespace MetricStore

open Telemetry

/-! ### The snapshot that leads a dataset -/

namespace Snapshot

/-- The snapshot wrote last to its tape, where the samples `own` are written and no others; and those of
its dataset that others hold are on this tape too. -/
structure Leads (capacity : Nat) (p : Pool) (Handed : Snapshot → Prop) (own : List Sample)
    (s : Snapshot) : Prop where
  writer : s.span.IsWriter p
  paced : (p.tape s.span.tape).Paced capacity
  written_eq : (p.tape s.span.tape).written = Retention.writes capacity own
  shared : ∀ t, Handed t → t.key = s.key → t.span.tape = s.span.tape ∧ t.span.Sits capacity p

namespace Leads

variable {capacity : Nat} {p : Pool} {Handed : Snapshot → Prop} {own : List Sample}
  {s t : Snapshot}

/-- What happens to other tapes does not matter. -/
theorem frame (h : s.Leads capacity p Handed own) {q : Pool}
    (htape : q.tape s.span.tape = p.tape s.span.tape) (hsize : p.tapes.size ≤ q.tapes.size) :
    s.Leads capacity q Handed own := by
  refine ⟨?_, htape ▸ h.paced, htape ▸ h.written_eq, ?_⟩
  · rw [Span.IsWriter, htape]
    exact h.writer
  · intro t ht hkey
    obtain ⟨hsame, hlt, hfits⟩ := h.shared t ht hkey
    refine ⟨hsame, Nat.lt_of_lt_of_le hlt hsize, ?_⟩
    rw [hsame] at hfits ⊢
    exact htape ▸ hfits

/-- The snapshot itself may be handed out, and any snapshot of another dataset. -/
theorem handOut (h : s.Leads capacity p Handed own) (hs : s.span.Sits capacity p)
    {More : Snapshot → Prop} (hmore : ∀ t, More t → t.key = s.key → Handed t ∨ t = s) :
    s.Leads capacity p More own := by
  refine ⟨h.writer, h.paced, h.written_eq, ?_⟩
  intro t ht hkey
  obtain hold | rfl := hmore t ht hkey
  · exact h.shared t hold hkey
  · exact ⟨rfl, hs⟩

/-- The next sample is written in place, and the next snapshot leads. -/
theorem add (h : s.Leads capacity p Handed own) (hsound : s.Sound capacity p own)
    (hshows : s.ShowsOwn capacity p own) (x : Sample) :
    (s.add p x).2.Leads capacity (s.add p x).1 Handed (own ++ [x]) := by
  obtain ⟨htape, -, hwriter⟩ := hsound.isWriter_add h.writer x
  obtain ⟨hpaced, hwritten⟩ := hsound.paced_add hshows h.writer h.paced h.written_eq x
  rw [← htape] at hpaced hwritten
  refine ⟨hwriter, hpaced, hwritten, ?_⟩
  intro t ht hkey
  obtain ⟨hsame, hsits⟩ := h.shared t ht hkey
  refine ⟨hsame.trans htape.symm, ?_⟩
  rw [add_eq]
  exact hsits.after s.span x _

theorem opening (p : Pool) (series : Series) (host : String) (hc : 1 ≤ capacity) (x : Sample)
    (hnone : ∀ t, Handed t → t.key ≠ (series, host)) :
    (Snapshot.opening p series host capacity x).2.Leads capacity
      (Snapshot.opening p series host capacity x).1 Handed [x] := by
  have htape := tape_opening p series host capacity x
  have hnot : ¬ Retention.isWrite capacity [x] := fun h => absurd h.2.1 (by simp)
  refine ⟨?_, ?_, ?_, fun t ht hkey => absurd hkey (hnone t ht)⟩
  · rw [Span.IsWriter, htape]
    rfl
  · rw [htape]
    exact Tape.paced_blank hc
  · rw [htape, ← List.nil_append [x], Retention.writes_concat, List.nil_append, if_neg hnot]
    rfl

/-- The next sample begins the next epoch if it compacts, and none if it does not. -/
theorem epoch_add (h : s.Leads capacity p Handed own) (hsound : s.Sound capacity p own)
    (hshows : s.ShowsOwn capacity p own) (x : Sample) :
    ((s.add p x).1.tape (s.add p x).2.span.tape).epoch =
      (p.tape s.span.tape).epoch + if (s.add p x).2.span.hasCompacted then 1 else 0 := by
  have hiff := (s.made_add p x).hasCompacted_iff hsound.sits.1
  rw [(hsound.isWriter_add h.writer x).1]
  cases hcompacted : (s.add p x).2.span.hasCompacted with
  | false =>
    rw [hcompacted] at hiff
    simpa using hiff
  | true =>
    have hmoved := hiff.mp hcompacted
    -- the tape may take one more sample, and only a full one comes to another epoch by that
    obtain ⟨-, y, ht⟩ | ⟨-, ht⟩ := hsound.tape_add_of_isWriter hshows h.writer x
    · rw [ht, Tape.epoch_push] at hmoved ⊢
      split at hmoved
      · next hfull => rw [if_pos hfull, if_pos rfl]
      · exact absurd rfl hmoved
    · rw [ht] at hmoved
      exact absurd rfl hmoved

/-! ### What the next sample outdates -/

theorem outdated_of_compacted (h : s.Leads capacity p Handed own) (hsound : s.Sound capacity p own)
    (hshows : s.ShowsOwn capacity p own) {x : Sample}
    (hcompacted : (s.add p x).2.span.hasCompacted = true) :
    (s.add p x).2.isOutdated (s.add p x).1 = true ∧
      ∀ t, Handed t → t.key = s.key → t.isOutdated (s.add p x).1 = true := by
  have hepoch := h.epoch_add hsound hshows x
  obtain ⟨htape, hseen, -⟩ := hsound.isWriter_add h.writer x
  rw [hcompacted, if_pos rfl] at hepoch
  constructor
  · rw [isOutdated, Span.isOutdated, bne_iff_ne, hepoch, hseen]
    exact Nat.succ_ne_self _
  · intro t ht hkey
    obtain ⟨hsame, -, hfits⟩ := h.shared t ht hkey
    -- it has seen no epoch later than the one before this sample
    have hle := Nat.le_trans hfits.seen_le hfits.epoch_le
    rw [isOutdated, Span.isOutdated, bne_iff_ne, hsame, ← htape, hepoch]
    rw [hsame] at hle
    omega

theorem isOutdated_of_spared (h : s.Leads capacity p Handed own) (hsound : s.Sound capacity p own)
    (hshows : s.ShowsOwn capacity p own) {x : Sample}
    (hspared : (s.add p x).2.span.hasCompacted = false) (ht : Handed t) (hkey : t.key = s.key) :
    t.isOutdated (s.add p x).1 = t.isOutdated p := by
  have hepoch := h.epoch_add hsound hshows x
  rw [hspared, if_neg Bool.false_ne_true, (hsound.isWriter_add h.writer x).1] at hepoch
  rw [isOutdated, isOutdated, Span.isOutdated, Span.isOutdated, (h.shared t ht hkey).1, hepoch]
  rfl

end Leads

end Snapshot

namespace Console

open Collector

/-! ### What an act does to one dataset -/

/-- What an act does to a dataset whose snapshots nobody adds to. -/
inductive DatasetStep (series : Series) (host : String) (c : Console) : Act → Outcome → Prop where
  /-- The act begins it. -/
  | begins {x : Sample} {o : Outcome} (absent : c.collector.find? series host = none)
      (room : ∀ limit, c.collector.config.maxSeries = some limit →
        c.collector.stock.count < limit)
      (made : o.console.collector.find? series host =
        some (Snapshot.opening c.handed.pool series host c.collector.config.capacity x).2)
      (pool : o.console.handed.pool =
        (Snapshot.opening c.handed.pool series host c.collector.config.capacity x).1)
      (handed : o.console.handed.snapshots = c.handed.snapshots)
      (silent : epochsTold o.log = []) : DatasetStep series host c (.record series host x) o
  /-- The act prolongs it. -/
  | grows {x : Sample} {o : Outcome} {current : Snapshot}
      (found : c.collector.find? series host = some current)
      (made : o.console.collector.find? series host = some (current.add c.handed.pool x).2)
      (pool : o.console.handed.pool = (current.add c.handed.pool x).1)
      (handed : o.console.handed.snapshots = c.handed.snapshots)
      (tells : epochsTold o.log = if (current.add c.handed.pool x).2.span.hasCompacted then
        [((current.add c.handed.pool x).1.tape (current.add c.handed.pool x).2.span.tape).epoch]
        else []) : DatasetStep series host c (.record series host x) o
  /-- The act is about something else, or refused; at most it hands the snapshot in place out. -/
  | spares {a : Act} {o : Outcome}
      (same : o.console.collector.find? series host = c.collector.find? series host)
      (refused : a.asks = some (series, host) →
        c.collector.find? series host = none ∧ epochsTold o.log = [])
      (tape : ∀ s, c.collector.find? series host = some s →
        o.console.handed.pool.tape s.span.tape = c.handed.pool.tape s.span.tape)
      (size : c.handed.pool.tapes.size ≤ o.console.handed.pool.tapes.size)
      (handed : ∀ t ∈ o.console.handed.snapshots, t.key = (series, host) →
        t ∈ c.handed.snapshots ∨ c.collector.find? series host = some t) :
      DatasetStep series host c a o

namespace Keeps

variable {config : Config} {alone : Series × String → Prop} {acts : List Act} {c : Console}
  {series : Series} {host : String} {a : Act} {o : Outcome}

/-- An addition to a snapshot of another dataset leaves the tape alone. -/
theorem tape_add_of_key_ne (h : c.Keeps config alone acts) {s : Snapshot} (hs : c.Holds s)
    (hkey : s.key ≠ (series, host)) (x : Sample) {current : Snapshot}
    (found : c.collector.find? series host = some current) :
    (s.add c.handed.pool x).1.tape current.span.tape = c.handed.pool.tape current.span.tape := by
  obtain ⟨hmem, hcurrent⟩ := h.mem_of_find? found
  refine Snapshot.tape_add_other x (h.apart.tape_lt _ (.inl hmem)) ?_
  exact h.apart.tape_ne (.inl hmem) hs fun heq => hkey (heq ▸ hcurrent)

/-- The snapshot in place of a dataset that is left alone shows its samples. -/
theorem sound_of_find? (h : c.Keeps config alone acts) (halone : alone (series, host))
    {s : Snapshot} (found : c.collector.find? series host = some s) :
    s.Sound config.capacity c.handed.pool (ownSamples series host acts) ∧
      s.ShowsOwn config.capacity c.handed.pool (ownSamples series host acts) := by
  obtain ⟨hmem, hkey⟩ := h.mem_of_find? found
  obtain ⟨rfl, rfl⟩ := Prod.mk.inj hkey
  exact ⟨(h.tracks s hmem).sound, (h.tracks s hmem).shows halone⟩

theorem datasetStep (h : c.Keeps config alone acts) (hl : config.listening = true)
    (hs : Step c a o) (hleft : ∀ position x, a = .extend position x →
      ∀ s, c.handed.snapshots[position]? = some s → s.isOf series host = false) :
    DatasetStep series host c a o := by
  cases hs with
  | @next series' host' x current found =>
    obtain ⟨hmem, hcurrent⟩ := h.mem_of_find? found
    -- a sample of another dataset is written on another tape
    by_cases hkey : (series', host') = (series, host)
    · obtain ⟨rfl, rfl⟩ := Prod.mk.inj hkey
      refine .grows found (find?_replace_self found _) rfl rfl ?_
      show epochsTold (c.collector.recordNext c.handed.pool series' host' current x).log = _
      rw [h.log_recordNext hl]
      cases (current.add c.handed.pool x).2.span.hasCompacted with
      | false => rfl
      | true => rfl
    · refine .spares (find?_replace_other _ hkey _) ?_ ?_ ?_ ?_
      · exact fun hasks => absurd (Option.some.inj hasks) hkey
      · exact fun s hs => h.tape_add_of_key_ne (.inl hmem) (hcurrent ▸ hkey) x hs
      · exact current.size_le_add c.handed.pool x
      · exact fun t ht _ => .inl ht
  | refused absent limited full =>
    refine .spares rfl ?_ (fun _ _ => rfl) (Nat.le_refl _) fun t ht _ => .inl ht
    intro hasks
    obtain ⟨rfl, rfl⟩ := Prod.mk.inj (Option.some.inj hasks)
    rw [h.tell_eq hl]
    exact ⟨absent, rfl⟩
  | @first series' host' x absent room =>
    by_cases hkey : (series', host') = (series, host)
    · obtain ⟨rfl, rfl⟩ := Prod.mk.inj hkey
      refine .begins absent room (h.tidy.find?_insert_self absent rfl) rfl rfl ?_
      rw [h.tell_eq hl]
      rfl
    · refine .spares (h.tidy.find?_insert_other absent rfl hkey) ?_ ?_ ?_ ?_
      · exact fun hasks => absurd (Option.some.inj hasks) hkey
      · intro s hs
        exact Pool.tape_add_other _ (h.apart.tape_lt s (.inl (h.mem_of_find? hs).1)) _
      · exact Nat.le_of_lt (Nat.lt_of_lt_of_eq (Nat.lt_succ_self _) (Array.size_push _).symm)
      · exact fun t ht _ => .inl ht
  | read finds stored =>
    refine .spares rfl nofun (fun _ _ => rfl) (Nat.le_refl _) ?_
    intro t ht hkey
    -- what is read is in place, and of each dataset there is one snapshot in place
    obtain ht | ht := Array.mem_append.mp ht
    · exact .inl ht
    · exact .inr (h.tidy.find?_eq_some_iff.mpr ⟨stored t (List.mem_toArray.mp ht), hkey⟩)
  | @extend position x held holds =>
    have hne : held.key ≠ (series, host) := by
      intro hkey
      have hof := hleft position x rfl held holds
      rw [Snapshot.isOf_iff.mpr hkey] at hof
      exact Bool.noConfusion hof
    refine .spares rfl nofun ?_ (held.size_le_add c.handed.pool x) ?_
    · exact fun s hs => h.tape_add_of_key_ne (.inr (Array.mem_of_getElem? holds)) hne x hs
    · intro t ht hkey
      obtain ht | rfl := Array.mem_push.mp ht
      · exact .inl ht
      · exact absurd hkey hne
  | idle lacks => exact .spares rfl nofun (fun _ _ => rfl) (Nat.le_refl _) fun t ht _ => .inl ht

end Keeps

/-! ### What is heard of one dataset -/

/-- The epochs told of a dataset are those that its tape has reached, one by one, and its snapshots are
on this tape. -/
structure Reports (capacity : Nat) (series : Series) (host : String) (own : List Sample)
    (told : List Nat) (c : Console) : Prop where
  absent : c.collector.find? series host = none →
    told = [] ∧ ∀ t ∈ c.handed.snapshots, t.key ≠ (series, host)
  leads : ∀ s, c.collector.find? series host = some s →
    s.Leads capacity c.handed.pool (· ∈ c.handed.snapshots) own
  told_eq : ∀ s, c.collector.find? series host = some s →
    told = List.range' 1 (c.handed.pool.tape s.span.tape).epoch

/-- The act is a sample of this dataset, and an epoch is told of it. -/
def Tells (series : Series) (host : String) (a : Act) (o : Outcome) : Prop :=
  a.asks = some (series, host) ∧ epochsTold o.log ≠ []

/-- What an act does to the flags of the snapshots of one dataset. -/
structure FlagsAsTold (series : Series) (host : String) (c : Console) (a : Act) (o : Outcome) :
    Prop where
  /-- An epoch that is told outdates all that were handed out before, and the one in place. -/
  outdated_of_told : Tells series host a o → ∀ s,
    s ∈ c.handed.snapshots ∧ s.key = (series, host) ∨
        o.console.collector.get series host = .ok (some s) →
      s.isOutdated o.console.handed.pool = true
  /-- Nothing else changes the flag of any that was handed out. -/
  isOutdated_of_untold : ¬ Tells series host a o →
    ∀ s ∈ c.handed.snapshots, s.key = (series, host) →
      s.isOutdated o.console.handed.pool = s.isOutdated c.handed.pool

namespace Reports

variable {config : Config} {alone : Series × String → Prop} {acts : List Act} {c : Console}
  {series : Series} {host : String} {told : List Nat} {a : Act} {o : Outcome}

theorem of_find? {capacity : Nat} {own : List Sample} {s : Snapshot}
    (found : c.collector.find? series host = some s)
    (hleads : s.Leads capacity c.handed.pool (· ∈ c.handed.snapshots) own)
    (htold : told = List.range' 1 (c.handed.pool.tape s.span.tape).epoch) :
    c.Reports capacity series host own told := by
  refine ⟨fun hnone => absurd (found.symm.trans hnone) nofun, ?_, ?_⟩
  · intro t ht
    exact Option.some.inj (found.symm.trans ht) ▸ hleads
  · intro t ht
    exact Option.some.inj (found.symm.trans ht) ▸ htold

theorem of_absent {capacity : Nat} {own : List Sample}
    (hnone : c.collector.find? series host = none)
    (h : told = [] ∧ ∀ t ∈ c.handed.snapshots, t.key ≠ (series, host)) :
    c.Reports capacity series host own told := by
  refine ⟨fun _ => h, ?_, ?_⟩
  · exact fun s hs => absurd (hnone.symm.trans hs) nofun
  · exact fun s hs => absurd (hnone.symm.trans hs) nofun

/-- The epochs that its own samples have brought about. -/
theorem epochs_eq {capacity : Nat} {own : List Sample} (h : c.Reports capacity series host own told)
    {s : Snapshot} (found : c.collector.find? series host = some s) :
    (c.handed.pool.tape s.span.tape).written = Retention.writes capacity own ∧
      told = List.range' 1 (Retention.writes capacity own / capacity - 1) := by
  have hleads := h.leads s found
  refine ⟨hleads.written_eq, ?_⟩
  rw [h.told_eq s found, hleads.paced.epoch_eq, hleads.written_eq]
  rfl

/-- The tape of the dataset is as it was, and of its snapshots at most the one in place is handed out. -/
theorem spared {capacity : Nat} {own : List Sample} {o : Console}
    (h : c.Reports capacity series host own told) (htidy : c.collector.stock.Tidy)
    (hsits : ∀ s, c.collector.find? series host = some s → s.span.Sits capacity c.handed.pool)
    (same : o.collector.find? series host = c.collector.find? series host)
    (tape : ∀ s, c.collector.find? series host = some s →
      o.handed.pool.tape s.span.tape = c.handed.pool.tape s.span.tape)
    (size : c.handed.pool.tapes.size ≤ o.handed.pool.tapes.size)
    (handed : ∀ t ∈ o.handed.snapshots, t.key = (series, host) →
      t ∈ c.handed.snapshots ∨ c.collector.find? series host = some t) :
    o.Reports capacity series host own told := by
  refine ⟨?_, ?_, ?_⟩
  · intro hnone
    have hnone := same.symm.trans hnone
    obtain ⟨htold, hunheld⟩ := h.absent hnone
    refine ⟨htold, fun t ht hkey => ?_⟩
    obtain hold | hstored := handed t ht hkey
    · exact hunheld t hold hkey
    · exact absurd (hnone.symm.trans hstored) nofun
  · intro s hs
    have found := same.symm.trans hs
    refine ((h.leads s found).handOut (hsits s found) ?_).frame (tape s found) size
    intro t ht hkey
    refine (handed t ht (hkey.trans (mem_of_find? htidy found).2)).imp_right fun hstored => ?_
    exact Option.some.inj (hstored.symm.trans found)
  · intro s hs
    have found := same.symm.trans hs
    rw [tape s found]
    exact h.told_eq s found

/-- Every act that leaves the dataset alone keeps this. -/
theorem step (h : c.Reports config.capacity series host (ownSamples series host acts) told)
    (hkeeps : c.Keeps config alone acts) (halone : alone (series, host)) (hc : 1 ≤ config.capacity)
    (hs : DatasetStep series host c a o) :
    o.console.Reports config.capacity series host (ownSamples series host (acts ++ [a]))
      (told ++ if a.asks = some (series, host) then epochsTold o.log else []) := by
  cases hs with
  | @begins x _ absent room made pool handed silent =>
    obtain ⟨rfl, hunheld⟩ := h.absent absent
    have hleads := Snapshot.Leads.opening c.handed.pool series host hc x hunheld
    have hasks : (Act.record series host x).asks = some (series, host) := rfl
    rw [hkeeps.config_eq] at made pool
    rw [← pool, ← handed] at hleads
    rw [ownSamples_concat_record, hkeeps.ownSamples_of_room absent room, silent, if_pos hasks]
    refine of_find? made hleads ?_
    rw [pool, Snapshot.tape_opening]
    rfl
  | @grows x _ current found made pool handed tells =>
    obtain ⟨hsound, hshows⟩ := hkeeps.sound_of_find? halone found
    have hleads := (h.leads current found).add hsound hshows x
    have hepoch := (h.leads current found).epoch_add hsound hshows x
    have hasks : (Act.record series host x).asks = some (series, host) := rfl
    rw [ownSamples_concat_record, h.told_eq current found, tells, if_pos hasks]
    rw [← pool, ← handed] at hleads
    refine of_find? made hleads ?_
    rw [pool, hepoch]
    cases (current.add c.handed.pool x).2.span.hasCompacted with
    | false => exact List.append_nil _
    | true =>
      rw [if_pos rfl, if_pos rfl, List.range'_1_concat, Nat.add_comm 1]
  | spares same refused tape size handed =>
    have hspared := h.spared hkeeps.tidy (fun s found => (hkeeps.sound_of_find? halone found).1.sits)
      same tape size handed
    by_cases hasks : a.asks = some (series, host)
    · -- the sample is refused, and there is no dataset that it could be one of
      obtain ⟨hnone, silent⟩ := refused hasks
      have hnone := same.trans hnone
      rw [if_pos hasks, silent, List.append_nil]
      exact of_absent hnone (hspared.absent hnone)
    · rw [if_neg hasks, List.append_nil, ownSamples_concat_of_ne hasks]
      exact hspared

/-! ### What an epoch that is told outdates -/

theorem flagsAsTold (h : c.Reports config.capacity series host (ownSamples series host acts) told)
    (hkeeps : c.Keeps config alone acts) (halone : alone (series, host))
    (hs : DatasetStep series host c a o) : FlagsAsTold series host c a o := by
  cases hs with
  | begins absent room made pool handed silent =>
    -- of a dataset that is not there yet, no snapshot was handed out
    refine ⟨fun htells => absurd silent htells.2, fun _ s hmem hkey => ?_⟩
    exact absurd hkey ((h.absent absent).2 s hmem)
  | @grows x _ current found made pool handed tells =>
    obtain ⟨hsound, hshows⟩ := hkeeps.sound_of_find? halone found
    obtain ⟨-, hkey⟩ := hkeeps.mem_of_find? found
    constructor
    · rintro ⟨-, htells⟩ s hheld
      have hcompacted : (current.add c.handed.pool x).2.span.hasCompacted = true := by
        by_contra hspared
        exact htells (tells.trans (if_neg hspared))
      obtain ⟨hnew, hothers⟩ :=
        (h.leads current found).outdated_of_compacted hsound hshows hcompacted
      rw [pool]
      obtain ⟨hmem, hsame⟩ | hstored := hheld
      · exact hothers s hmem (hsame.trans hkey.symm)
      · exact Option.some.inj (made.symm.trans (find?_of_get hstored)) ▸ hnew
    · intro huntold s hmem hsame
      have hspared : (current.add c.handed.pool x).2.span.hasCompacted = false := by
        rw [← Bool.not_eq_true]
        intro hcompacted
        refine huntold ⟨rfl, ?_⟩
        rw [tells, if_pos hcompacted]
        exact List.cons_ne_nil _ _
      rw [pool]
      exact (h.leads current found).isOutdated_of_spared hsound hshows hspared hmem
        (hsame.trans hkey.symm)
  | spares same refused tape size handed =>
    refine ⟨fun htells => absurd (refused htells.1).2 htells.2, fun _ s hmem hkey => ?_⟩
    cases found : c.collector.find? series host with
    | none => exact absurd hkey ((h.absent found).2 s hmem)
    | some current =>
      obtain ⟨htape, -⟩ :=
        (h.leads current found).shared s hmem (hkey.trans (hkeeps.mem_of_find? found).2.symm)
      rw [Snapshot.isOutdated, Snapshot.isOutdated, Span.isOutdated, Span.isOutdated, htape,
        tape current found]

end Reports

/-! ### Runs -/

section

variable {config : Config} {acts : List Act} {c : Console} {series : Series} {host : String}

theorem length_outcomes (c : Console) (acts : List Act) : (c.outcomes acts).length = acts.length := by
  induction acts generalizing c with
  | nil => rfl
  | cons a rest ih => rw [outcomes, List.length_cons, List.length_cons, ih]

theorem ownLog_concat (series : Series) (host : String) (c : Console) (acts : List Act) (a : Act) :
    ownLog series host c (acts ++ [a]) = ownLog series host c acts ++
      if a.asks = some (series, host) then ((c.after acts).act a).log else [] := by
  rw [ownLog, outcomes_append, List.zip_append (length_outcomes c acts).symm, List.filter_append,
    List.flatMap_append, ← ownLog]
  by_cases hasks : a.asks = some (series, host)
  · simp [outcomes, hasks]
  · simp [outcomes, hasks]

theorem epochsTold_append (log more : List Signal) :
    epochsTold (log ++ more) = epochsTold log ++ epochsTold more := by
  rw [epochsTold, events_append, List.filterMap_append]
  rfl

theorem epochsTold_ownLog_concat (series : Series) (host : String) (c : Console) (acts : List Act)
    (a : Act) :
    epochsTold (ownLog series host c (acts ++ [a])) = epochsTold (ownLog series host c acts) ++
      if a.asks = some (series, host) then epochsTold ((c.after acts).act a).log else [] := by
  rw [ownLog_concat, epochsTold_append]
  split
  · rfl
  · rfl

theorem LeavesAlone.of_append {earlier later : List Act}
    (h : LeavesAlone series host c (earlier ++ later)) : LeavesAlone series host c earlier := by
  rintro before after position x rfl
  refine h before (after ++ later) position x ?_
  rw [List.append_assoc, List.cons_append]

theorem datasetStep_after (hc : 1 ≤ config.capacity) (ha : Snapshot.Addressable config.capacity)
    (hl : config.listening = true) {earlier later : List Act} {a : Act}
    (hleft : LeavesAlone series host (fresh config) (earlier ++ a :: later)) :
    DatasetStep series host ((fresh config).after earlier) a
      (((fresh config).after earlier).act a) := by
  have hkeeps := keeps_after hc ha earlier
  refine hkeeps.datasetStep hl (hkeeps.act_step hc ha a) ?_
  rintro position x rfl
  exact hleft earlier later position x rfl

theorem reports_after (hc : 1 ≤ config.capacity) (ha : Snapshot.Addressable config.capacity)
    (hl : config.listening = true) (hleft : LeavesAlone series host (fresh config) acts) :
    ((fresh config).after acts).Reports config.capacity series host (ownSamples series host acts)
      (epochsTold (ownLog series host (fresh config) acts)) := by
  induction acts using List.reverseRecOn with
  | nil =>
    exact .of_absent rfl ⟨rfl, fun t ht => absurd ht (Array.not_mem_empty t)⟩
  | append_singleton acts a ih =>
    rw [epochsTold_ownLog_concat, after_append]
    exact (ih hleft.of_append).step (keeps_after hc ha acts) hleft.of_append hc
      (datasetStep_after hc ha hl hleft)

end

/-! ### Epochs by name -/

/-- The epochs told under a text and a host, in order. -/
def epochsToldOf (text host : String) (log : List Signal) : List Nat :=
  (events log).filterMap fun
    | .compacted text' host' epoch => if text' = text ∧ host' = host then some epoch else none
    | _ => none

theorem epochsToldOf_append (text host : String) (log more : List Signal) :
    epochsToldOf text host (log ++ more) = epochsToldOf text host log ++ epochsToldOf text host more := by
  rw [epochsToldOf, events_append, List.filterMap_append]
  rfl

theorem epochsToldOf_compacted (text host text' host' : String) (epoch : Nat) :
    epochsToldOf text host
        [.count .ingested, .count .compactions, .event (.compacted text' host' epoch)] =
      if text' = text ∧ host' = host then [epoch] else [] := by
  by_cases h : text' = text ∧ host' = host
  · simp [epochsToldOf, events, h]
  · simp [epochsToldOf, events, h]

section

variable {config : Config} {alone : Series × String → Prop} {acts : List Act} {c : Console}
  {series : Series} {host : String} {a : Act} {o : Outcome}

/-- What an act tells under a name is told of the dataset that it asks for. -/
theorem Keeps.epochsToldOf_eq (h : c.Keeps config alone acts) (hl : config.listening = true)
    (hs : Step c a o)
    (hname : ∀ other, a.asks = some (other, host) → other.text = series.text → other = series) :
    epochsToldOf series.text host o.log =
      if a.asks = some (series, host) then epochsTold o.log else [] := by
  cases hs with
  | @next series' host' x current found =>
    show epochsToldOf series.text host
        (c.collector.recordNext c.handed.pool series' host' current x).log =
      if _ then epochsTold (c.collector.recordNext c.handed.pool series' host' current x).log else []
    rw [h.log_recordNext hl]
    cases (current.add c.handed.pool x).2.span.hasCompacted with
    | false => exact (ite_self _).symm
    | true =>
      -- the event bears the name of the dataset that was asked for, which no other goes by
      rw [if_pos rfl, epochsToldOf_compacted]
      by_cases hasks : (Act.record series' host' x).asks = some (series, host)
      · obtain ⟨rfl, rfl⟩ := Prod.mk.inj (Option.some.inj hasks)
        rw [if_pos hasks, if_pos ⟨rfl, rfl⟩]
        rfl
      · rw [if_neg hasks, if_neg]
        rintro ⟨htext, rfl⟩
        exact hasks (congrArg (fun other => some (other, host')) (hname _ rfl htext))
  | refused absent limited full =>
    rw [h.tell_eq hl]
    exact (ite_self _).symm
  | first absent room =>
    rw [h.tell_eq hl]
    exact (ite_self _).symm
  | read finds stored => rfl
  | extend holds => rfl
  | idle lacks => rfl

theorem epochsToldOf_after (hc : 1 ≤ config.capacity) (ha : Snapshot.Addressable config.capacity)
    (hl : config.listening = true)
    (hname : ∀ other, (other, host) ∈ asked acts → other.text = series.text → other = series) :
    epochsToldOf series.text host ((fresh config).log acts) =
      epochsTold (ownLog series host (fresh config) acts) := by
  induction acts using List.reverseRecOn with
  | nil => rfl
  | append_singleton acts a ih =>
    have hkeeps := keeps_after hc ha acts
    have hnew : ∀ other, a.asks = some (other, host) → other.text = series.text → other = series :=
      fun other hasks => hname other
        (mem_asked_iff.mpr ⟨a, List.mem_append_right _ (List.mem_singleton_self a), hasks⟩)
    rw [log_concat, epochsToldOf_append, epochsTold_ownLog_concat,
      hkeeps.epochsToldOf_eq hl (hkeeps.act_step hc ha a) hnew,
      ih fun other hasked => hname other ((asked_prefix_append acts [a]).subset hasked)]

end

/-! ### The epochs of one dataset -/

/-- **Epochs are told without a gap.**  As long as nobody adds to the snapshots of a dataset that were
handed out, the epochs told of it are 1, 2 and so on up to what the writes to its tape have come to,
which are a matter of its own samples.  An epoch that is told outdates all snapshots of the dataset, and
nothing else outdates any. -/
theorem epochs_told_without_gap {config : Config} (hc : 1 ≤ config.capacity)
    (ha : Snapshot.Addressable config.capacity) (hl : config.listening = true) :
    ∃ c, start config = .ok c ∧ ∀ acts series host, LeavesAlone series host c acts →
      (∀ earlier a later, acts = earlier ++ a :: later →
        FlagsAsTold series host (c.after earlier) a ((c.after earlier).act a)) ∧
      ∀ s, (c.after acts).collector.get series host = .ok (some s) →
        ∃ w, w = ((c.after acts).handed.pool.tape s.span.tape).written ∧
          w = Retention.writes config.capacity (ownSamples series host acts) ∧
          epochsTold (ownLog series host c acts) = List.range' 1 (w / config.capacity - 1) ∧
          ((∀ other, (other, host) ∈ asked acts → other.text = series.text → other = series) →
            epochsToldOf series.text host (c.log acts) =
              List.range' 1 (w / config.capacity - 1)) ∧
          ∀ others t, LeavesAlone series host c others →
            (c.after others).collector.get series host = .ok (some t) →
            ownSamples series host others = ownSamples series host acts →
            epochsTold (ownLog series host c others) = epochsTold (ownLog series host c acts) := by
  refine ⟨fresh config, start_eq_ok hc, ?_⟩
  intro acts series host hleft
  constructor
  · rintro earlier a later rfl
    have hearlier := hleft.of_append
    exact (reports_after hc ha hl hearlier).flagsAsTold (keeps_after hc ha earlier) hearlier
      (datasetStep_after hc ha hl hleft)
  · -- both the writes and the epochs told are counted off the samples of the dataset
    intro s hs
    have htold := reports_after hc ha hl hleft
    obtain ⟨hwritten, hepochs⟩ := htold.epochs_eq (find?_of_get hs)
    refine ⟨_, rfl, hwritten, ?_, ?_, ?_⟩
    · rw [hepochs, hwritten]
    · intro hname
      rw [epochsToldOf_after hc ha hl hname, hepochs, hwritten]
    · intro others t hothers ht hown
      obtain ⟨-, hepochs'⟩ := (reports_after hc ha hl hothers).epochs_eq (find?_of_get ht)
      rw [hepochs, hepochs', hown]

/-- Two samples of room for each dataset, with a listener. -/
def watched : Config := { capacity := 2, listening := true }

/-- Seven samples of one dataset, with one of another and a reading between them. -/
def interleaved : List Act :=
  [.record (Series.ofName "load") "server" ⟨1, 1⟩, .record (Series.ofName "load") "server" ⟨2, 2⟩,
    .record (Series.ofName "wind") "server" ⟨2, 5⟩, .record (Series.ofName "load") "server" ⟨3, 3⟩,
    .record (Series.ofName "load") "server" ⟨4, 4⟩, .read (.select (Series.ofName "load")),
    .record (Series.ofName "load") "server" ⟨5, 5⟩, .record (Series.ofName "load") "server" ⟨6, 6⟩,
    .record (Series.ofName "load") "server" ⟨7, 7⟩]

theorem leavesAlone_interleaved :
    LeavesAlone (Series.ofName "load") "server" (fresh watched) interleaved := by
  simp only [interleaved, leavesAlone_cons_iff]
  exact ⟨nofun, nofun, nofun, nofun, nofun, nofun, nofun, nofun, nofun, leavesAlone_nil⟩

/-- Six writes make two epochs, and the snapshot that was read is outdated by the first of them. -/
theorem epochs_told_without_gap_interleaved :
    (1 ≤ watched.capacity ∧ Snapshot.Addressable watched.capacity ∧ watched.listening = true) ∧
      ∃ c s t, start watched = .ok c ∧
        LeavesAlone (Series.ofName "load") "server" c interleaved ∧
        (c.after interleaved).collector.get (Series.ofName "load") "server" = .ok (some s) ∧
        epochsTold (ownLog (Series.ofName "load") "server" c interleaved) = [1, 2] ∧
        epochsToldOf "load" "server" (c.log interleaved) = [1, 2] ∧
        (c.after (interleaved.take 6)).handed.snapshots[0]? = some t ∧
        t.isOutdated (c.after (interleaved.take 6)).handed.pool = false ∧
        t.isOutdated (c.after (interleaved.take 7)).handed.pool = true := by
  refine ⟨⟨by decide, by decide, rfl⟩, ?_⟩
  obtain ⟨c, hstart, h⟩ := @epochs_told_without_gap watched (by decide) (by decide) rfl
  have hfresh := hstart
  rw [start_eq_ok (by decide)] at hfresh
  cases hfresh
  obtain ⟨hflags, hepochs⟩ := h interleaved (Series.ofName "load") "server" leavesAlone_interleaved
  have hstored : (((fresh watched).after interleaved).collector.find? (Series.ofName "load")
      "server").isSome = true := by decide +kernel
  obtain ⟨s, hs⟩ := Option.isSome_iff_exists.mp hstored
  have hget : ((fresh watched).after interleaved).collector.get (Series.ofName "load") "server" =
      .ok (some s) :=
    ((keeps_after (by decide) (by decide) interleaved).get_eq _ _).trans (congrArg _ hs)
  -- seven samples of different values: each but the first writes the one before it
  obtain ⟨w, -, hw, htold, hnamed, -⟩ := hepochs s hget
  obtain rfl : w = 6 := hw.trans (by decide +kernel)
  have hread : (((fresh watched).after (interleaved.take 6)).handed.snapshots[0]?).map
      (fun t => (t.key, t.isOutdated ((fresh watched).after (interleaved.take 6)).handed.pool)) =
        some ((Series.ofName "load", "server"), false) := by decide +kernel
  obtain ⟨t, ht, hpair⟩ := Option.map_eq_some_iff.mp hread
  obtain ⟨hkey, hcurrent⟩ := Prod.mk.inj hpair
  have htells : Tells (Series.ofName "load") "server"
      (.record (Series.ofName "load") "server" ⟨5, 5⟩)
      (((fresh watched).after (interleaved.take 6)).act
        (.record (Series.ofName "load") "server" ⟨5, 5⟩)) := ⟨rfl, by decide +kernel⟩
  have houtdated := (hflags (interleaved.take 6) _ (interleaved.drop 7) rfl).outdated_of_told htells t
    (.inl ⟨Array.mem_of_getElem? ht, hkey⟩)
  refine ⟨_, s, t, hstart, leavesAlone_interleaved, hget, htold, hnamed ?_, ht, hcurrent, houtdated⟩
  intro other hasked htext
  have hall : asked interleaved = [(Series.ofName "load", "server"), (Series.ofName "wind", "server")] :=
    by decide
  rw [hall, List.mem_pair] at hasked
  obtain hload | hwind := hasked
  · exact (Prod.mk.inj hload).1
  · rw [(Prod.mk.inj hwind).1] at htext
    exact absurd htext (by decide)

end Console

end MetricStore
