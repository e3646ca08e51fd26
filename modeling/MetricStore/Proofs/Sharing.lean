import MetricStore.Proofs.Acts
import MetricStore.Proofs.OwnHistory

/-!
Datasets on one pool of tapes.

A collector and the holders of its snapshots write to one pool.  Tapes are shared within a dataset
only (`Apart`), and that stays so whatever is added to and whatever begins; so the additions to one
dataset cannot be seen from another.  Within a dataset they can: `Snapshot.Tracks` says of a snapshot
that it follows its history in any case, and shows the samples of it if the dataset is left alone.
-/

namespace MetricStore

/-! ### Tapes are shared within a dataset only -/

/-- Snapshots with a tape in the pool, and of one dataset if their tapes are the same. -/
structure Apart (p : Pool) (Held : Snapshot → Prop) : Prop where
  tape_lt : ∀ s, Held s → s.span.tape < p.tapes.size
  key_eq : ∀ s t, Held s → Held t → s.span.tape = t.span.tape → s.key = t.key

namespace Apart

variable {p : Pool} {Held : Snapshot → Prop}

theorem mono (h : Apart p Held) {Fewer : Snapshot → Prop} (hsub : ∀ s, Fewer s → Held s) :
    Apart p Fewer :=
  ⟨fun s hs => h.tape_lt s (hsub s hs), fun s t hs ht => h.key_eq s t (hsub s hs) (hsub t ht)⟩

/-- One more snapshot, on a tape of its dataset or a new one. -/
theorem insert (h : Apart p Held) {q : Pool} {new : Snapshot}
    (hsize : p.tapes.size ≤ q.tapes.size) (hnew : new.span.tape < q.tapes.size)
    (hkey : ∀ s, Held s → s.span.tape = new.span.tape → s.key = new.key) :
    Apart q (fun s => Held s ∨ s = new) := by
  constructor
  · rintro s (hs | rfl)
    · exact Nat.lt_of_lt_of_le (h.tape_lt s hs) hsize
    · exact hnew
  · rintro s t (hs | rfl) (ht | rfl) htape
    · exact h.key_eq s t hs ht htape
    · exact hkey s hs htape
    · exact (hkey t ht htape.symm).symm
    · rfl

theorem add (h : Apart p Held) {t : Snapshot} (ht : Held t) (x : Sample) :
    Apart (t.add p x).1 (fun s => Held s ∨ s = (t.add p x).2) := by
  have htape := t.tape_of_add p x
  have hlt := h.tape_lt t ht
  refine h.insert (t.size_le_add p x) (by omega) ?_
  intro s hs hsame
  have hold := h.tape_lt s hs
  exact h.key_eq s t hs ht (by omega)

theorem blank (h : Apart p Held) (series : Series) (host : String) (capacity : Nat) :
    Apart (Span.fresh p capacity).1
      (fun s => Held s ∨ s = Snapshot.blank p series host capacity) := by
  have hsize : (Span.fresh p capacity).1.tapes.size = p.tapes.size + 1 := Array.size_push _
  refine h.insert (hsize ▸ Nat.le_succ _) (hsize ▸ Nat.lt_succ_self _) ?_
  intro s hs hsame
  exact absurd hsame (Nat.ne_of_lt (h.tape_lt s hs))

theorem tape_ne (h : Apart p Held) {s t : Snapshot} (hs : Held s) (ht : Held t)
    (hne : s.key ≠ t.key) : t.span.tape ≠ s.span.tape :=
  fun htape => hne (h.key_eq s t hs ht htape.symm)

end Apart

/-! ### Snapshots that track a history -/

namespace Snapshot

/-- A snapshot follows the replay of a history, and shows its samples if its dataset is left
alone. -/
structure Tracks (capacity : Nat) (p : Pool) (alone : Prop) (history : List Sample) (s : Snapshot) :
    Prop where
  sound : s.Sound capacity p history
  shows : alone → s.ShowsOwn capacity p history

namespace Tracks

variable {capacity : Nat} {p : Pool} {alone : Prop} {history : List Sample} {s : Snapshot}

theorem add (h : s.Tracks capacity p alone history) (x : Sample) :
    (s.add p x).2.Tracks capacity (s.add p x).1 alone (history ++ [x]) :=
  ⟨h.sound.add x, fun ha => h.sound.showsOwn_add (h.shows ha) x⟩

/-- An addition to another snapshot leaves it sound, and showing its samples if the other one is
on another tape. -/
theorem after (h : s.Tracks capacity p alone history) {t : Snapshot}
    (hother : alone → t.span.tape ≠ s.span.tape) (x : Sample) :
    s.Tracks capacity (t.add p x).1 alone history := by
  refine ⟨h.sound.after t x, fun ha => ?_⟩
  rw [ShowsOwn, samples, Span.samples, tape_add_other x h.sound.sits.1 (hother ha)]
  exact h.shows ha

/-- A new dataset shares nothing. -/
theorem after_fresh (h : s.Tracks capacity p alone history) (n : Nat) :
    s.Tracks capacity (Span.fresh p n).1 alone history := by
  have htape : (Span.fresh p n).1.tape s.span.tape = p.tape s.span.tape :=
    Pool.tape_add_other p h.sound.sits.1 _
  have hsize : (Span.fresh p n).1.tapes.size = p.tapes.size + 1 := Array.size_push _
  obtain ⟨hcap, ⟨hlt, hfits⟩, hfollows⟩ := h.sound
  refine ⟨⟨hcap, ⟨?_, ?_⟩, hfollows⟩, fun ha => ?_⟩
  · rw [hsize]
    exact Nat.lt_succ_of_lt hlt
  · rw [htape]
    exact hfits
  · rw [ShowsOwn, samples, Span.samples, htape]
    exact h.shows ha

theorem blank (p : Pool) (series : Series) (host : String) (hc : 1 ≤ capacity) (alone : Prop) :
    (blank p series host capacity).Tracks capacity (Span.fresh p capacity).1 alone [] := by
  have hsound := sound_blank p series host hc
  exact ⟨hsound, fun _ => shows_of_length_eq_zero hsound.follows hsound.sits' rfl⟩

/-- A dataset of its own makes of the history what a snapshot that tracks it knows and shows. -/
theorem copy (h : s.Tracks capacity p alone history) (series : Series) (host : String)
    (hc : 1 ≤ capacity) (ha : Addressable capacity) :
    ∃ l r, Lineage.start series host capacity = .ok l ∧
      (l.grow (inTurn history)).snapshots[history.length]? = some r ∧ s.Agrees r ∧
      (alone → s.samples p = r.samples (l.grow (inTurn history)).pool) := by
  obtain ⟨-, r, hr, hsound, hshow⟩ :=
    Lineage.endsIn_inTurn (Lineage.endsIn_root series host hc) history
  refine ⟨Lineage.root series host capacity, r, Lineage.start_eq_ok series host hc ha, hr,
    h.sound.agrees hsound, ?_⟩
  intro halone
  exact (h.shows halone).trans hshow.symm

end Tracks

end Snapshot

end MetricStore
