import MetricStore.Proofs.Answers
import MetricStore.Proofs.Selections

/-!
Batches of queries.

The texts of a batch are compared as they are written: two that name one series, but differ in their
spaces, are answered apart.  What stands under a text is what the readings of its series find, query
by query, and a text that names no series finds nothing.  So answers can be put together from those
to parts of a batch (`joined`), and it does not matter how the batch is cut.  Main statement:

* `batches_group_by_text`: after any acts that leave it sane a collector answers every batch, with what
  the queries of each text find, and the answers to two batches one after the other are the joined ones.
-/

namespace List

variable {α β : Type} [BEq α] [LawfulBEq α]

theorem eraseDups_filter (p : α → Bool) (l : List α) :
    (l.filter p).eraseDups = l.eraseDups.filter p := by
  induction l using List.reverseRecOn with
  | nil => rw [filter_nil, eraseDups_nil, filter_nil]
  | append_singleton l a ih =>
    rw [filter_append]
    by_cases ha : a ∈ l
    · rw [eraseDups_concat_of_mem ha, ← ih]
      cases hp : p a with
      | true => rw [filter_cons_of_pos hp, filter_nil,
          eraseDups_concat_of_mem (mem_filter.mpr ⟨ha, hp⟩)]
      | false => rw [filter_cons_of_neg (by simp [hp]), filter_nil, append_nil]
    · rw [eraseDups_concat_of_notMem ha, filter_append, ← ih]
      cases hp : p a with
      | true =>
        rw [filter_cons_of_pos hp, filter_nil,
          eraseDups_concat_of_notMem fun h => ha (mem_filter.mp h).1]
      | false =>
        rw [filter_cons_of_neg (by simp [hp]), filter_nil, append_nil, append_nil]

theorem lookup_map_of_notMem (f : α → β) {l : List α} {a : α} (h : a ∉ l) :
    (l.map fun b => (b, f b)).lookup a = none := by
  induction l with
  | nil => rfl
  | cons b rest ih =>
    rw [mem_cons, not_or] at h
    rw [map_cons, lookup_cons, beq_false_of_ne h.1]
    exact ih h.2

end List

namespace MetricStore.Collector

/-! ### Answers one after the other -/

section

variable {α : Type}

/-- Answers to one batch with those to a further one: under a text of the first come the values that
the further one has for it, and its other texts follow in their order. -/
def joined (answers more : List (String × List α)) : List (String × List α) :=
  (answers.map fun (text, found) => (text, found ++ (more.lookup text).getD [])) ++
    more.filter fun (text, _) => text ∉ answers.map Prod.fst

theorem lookup_grouped (found : Query → List α) (queries : List Query) (text : String) :
    ((grouped found queries).lookup text).getD [] =
      (queries.filter fun q => q.series = text).flatMap found := by
  by_cases h : text ∈ queries.map Query.series
  · rw [grouped, List.lookup_graph _ (List.mem_eraseDups.mpr h), Option.getD_some]
  · rw [grouped, List.lookup_map_of_notMem _ (mt List.mem_eraseDups.mp h), Option.getD_none,
      flatMap_filter_of_notMem found h]

theorem grouped_append (found : Query → List α) (earlier later : List Query) :
    grouped found (earlier ++ later) = joined (grouped found earlier) (grouped found later) := by
  have hfound : ∀ text, ((earlier ++ later).filter fun q => q.series = text).flatMap found =
      (earlier.filter fun q => q.series = text).flatMap found ++
        (later.filter fun q => q.series = text).flatMap found := by
    intro text
    rw [List.filter_append, List.flatMap_append]
  rw [joined, map_fst_grouped, grouped, List.map_append, List.eraseDups_append, List.map_append]
  refine congrArg₂ (· ++ ·) ?_ ?_
  · refine (List.map_congr_left fun text _ => ?_).trans List.map_map.symm
    rw [hfound, ← lookup_grouped found later]
    rfl
  · -- texts that come first in the later batch have nothing in the earlier one
    rw [List.removeAll, List.eraseDups_filter, grouped, List.filter_map]
    refine (List.map_congr_left fun text htext => ?_).trans (congrArg _ (List.filter_congr ?_))
    · have hnew : text ∉ earlier.map Query.series := by
        simpa using (List.mem_filter.mp htext).2
      rw [hfound, flatMap_filter_of_notMem found hnew, List.nil_append]
    · intro text _
      rw [Bool.eq_iff_iff]
      simp

end

/-! ### What queries find -/

variable {c : Collector} {p : Pool} {series : Series} {q : Query} {found : List Snapshot}

/-- The snapshots of a series on some hosts, or on all. -/
def selectHosts (c : Collector) (series : Series) :
    Option (List String) → Except Failure (List Snapshot)
  | none => c.select series
  | some hosts => c.selectOn series hosts

theorem selectFor_of_ok (h : Series.parse q.series = .ok series) :
    c.selectFor q = c.selectHosts series q.hosts := by
  rw [selectFor, h]
  cases q.hosts <;> rfl

theorem selectFor_of_error {fault : Series.ParseFault} (h : Series.parse q.series = .error fault) :
    c.selectFor q = .ok [] := by
  rw [selectFor, h]

/-- Without hosts, nothing is found. -/
theorem selectOn_nil (h : c.poisoned = false) (series : Series) :
    c.selectOn series [] = .ok [] := by
  rw [selectOn_eq, sortedTexts, List.eraseDups_nil, List.mergeSort_nil, List.filterMap_nil,
    List.mergeSort_nil, locked_of_sane h]

theorem selectHosts_isOk (h : c.poisoned = false) (series : Series) (hosts : Option (List String)) :
    ∃ found, c.selectHosts series hosts = .ok found := by
  cases hosts with
  | none => exact ⟨_, locked_of_sane h _⟩
  | some hosts => exact ⟨_, locked_of_sane h _⟩

theorem selectFor_isOk (h : c.poisoned = false) (q : Query) :
    ∃ found, c.selectFor q = .ok found := by
  cases hparse : Series.parse q.series with
  | error fault => exact ⟨[], selectFor_of_error hparse⟩
  | ok series =>
    rw [selectFor_of_ok hparse]
    exact selectHosts_isOk h series q.hosts

/-- A reading of one series finds snapshots of that series only. -/
theorem series_of_selectHosts (htidy : c.stock.Tidy) (h : c.poisoned = false)
    {hosts : Option (List String)} (hfound : c.selectHosts series hosts = .ok found) {s : Snapshot}
    (hs : s ∈ found) : s.series = series := by
  cases hosts with
  | none =>
    rw [selectHosts, select, locked_of_sane h, Except.ok.injEq] at hfound
    rw [← hfound, List.mem_mergeSort, htidy.mem_shelf_iff] at hs
    exact hs.2
  | some hosts =>
    rw [selectHosts, selectOn_eq, locked_of_sane h, Except.ok.injEq] at hfound
    rw [← hfound, List.mem_mergeSort, List.mem_filterMap] at hs
    obtain ⟨host, -, hfind⟩ := hs
    exact (Prod.mk.inj (mem_of_find? htidy hfind).2).1

/-! ### What a batch is answered with -/

/-- The answers to a batch are what its queries find, text by text: each text once and in the order in
which the texts come first, with the views of what the queries of this very text find, one query
after the other.  A text that names no series finds nothing. -/
structure GroupsByText (c : Collector) (p : Pool) (queries : List Query)
    (answers : List (String × List View)) : Prop where
  texts : answers.map Prod.fst = (queries.map Query.series).eraseDups
  named : ∀ text views, (text, views) ∈ answers → ∀ series, Series.parse text = .ok series →
    ∃ found : List (List Snapshot),
      (queries.filter fun q => q.series = text).mapM (fun q => c.selectHosts series q.hosts) =
        .ok found ∧
      views = found.flatten.map (View.ofSnapshot p) ∧
      ∀ view ∈ views, view.series = series.text
  unnamed : ∀ text views, (text, views) ∈ answers → ∀ fault, Series.parse text = .error fault →
    views = []

theorem groupsByText_grouped (htidy : c.stock.Tidy) (h : c.poisoned = false)
    {found : Query → List Snapshot} (hfound : ∀ q, c.selectFor q = .ok (found q))
    (queries : List Query) :
    c.GroupsByText p queries (grouped (fun q => (found q).map (View.ofSnapshot p)) queries) := by
  have hmem : ∀ {text views},
      (text, views) ∈ grouped (fun q => (found q).map (View.ofSnapshot p)) queries →
      views = ((queries.filter fun q => q.series = text).map found).flatten.map
        (View.ofSnapshot p) := by
    intro text views hviews
    obtain ⟨text', -, heq⟩ := List.mem_map.mp hviews
    obtain ⟨rfl, rfl⟩ := Prod.mk.inj heq
    rw [List.flatMap_def, List.map_flatten, List.map_map]
    rfl
  have hasked : ∀ {text q}, q ∈ queries.filter (fun q => q.series = text) → q.series = text :=
    fun hq => of_decide_eq_true (List.mem_filter.mp hq).2
  refine ⟨map_fst_grouped _ queries, ?_, ?_⟩
  · intro text views hviews series hparse
    have hselect : ∀ q ∈ queries.filter (fun q => q.series = text),
        c.selectHosts series q.hosts = .ok (found q) := by
      intro q hq
      rw [← hfound, selectFor_of_ok (hasked hq ▸ hparse)]
    refine ⟨_, Except.mapM_eq_ok_iff.mpr ?_, hmem hviews, ?_⟩
    · rw [List.map_map]
      exact List.map_congr_left hselect
    · intro view hview
      rw [hmem hviews, List.mem_map] at hview
      obtain ⟨s, hs, rfl⟩ := hview
      obtain ⟨l, hl, hs⟩ := List.mem_flatten.mp hs
      obtain ⟨q, hq, rfl⟩ := List.mem_map.mp hl
      exact congrArg Series.text (series_of_selectHosts htidy h (hselect q hq) hs)
  · intro text views hviews fault hparse
    rw [hmem hviews, List.flatten_eq_nil_iff.mpr, List.map_nil]
    intro l hl
    obtain ⟨q, hq, rfl⟩ := List.mem_map.mp hl
    exact Except.ok.inj ((hfound q).symm.trans (selectFor_of_error (hasked hq ▸ hparse)))

/-- How a collector answers: a list of no hosts finds nothing; every batch is answered with what the
queries of each text find; and the answers to two batches one after the other are those to the first,
joined with those to the second. -/
structure AnswersByText (c : Collector) (p : Pool) : Prop where
  of_no_hosts : ∀ series, c.selectOn series [] = .ok []
  of_batch : ∀ queries, ∃ answers, c.answer p queries = .ok answers ∧ c.GroupsByText p queries answers
  of_parts : ∀ earlier later answers more, c.answer p earlier = .ok answers →
    c.answer p later = .ok more → c.answer p (earlier ++ later) = .ok (joined answers more)

theorem answersByText (htidy : c.stock.Tidy) (h : c.poisoned = false) (p : Pool) :
    c.AnswersByText p := by
  choose found hfound using selectFor_isOk h
  have hanswer : ∀ queries, c.answer p queries =
      .ok (grouped (fun q => (found q).map (View.ofSnapshot p)) queries) :=
    fun queries => answer_eq_ok fun q _ => hfound q
  refine ⟨selectOn_nil h, ?_, ?_⟩
  · intro queries
    exact ⟨_, hanswer queries, groupsByText_grouped htidy h hfound queries⟩
  · intro earlier later answers more hearlier hlater
    obtain rfl := Except.ok.inj ((hanswer earlier).symm.trans hearlier)
    obtain rfl := Except.ok.inj ((hanswer later).symm.trans hlater)
    rw [hanswer, grouped_append]

/-- **Batches are answered text by text.**  After any acts that leave it sane, a collector answers every
batch with what the queries of each text find, and two batches one after the other with the joined
answers, in whatever order the shelves of its stock and the entries of each shelf are met. -/
theorem batches_group_by_text {config : Config} (hc : 1 ≤ config.capacity) :
    ∃ c, Console.start config = .ok c ∧ ∀ acts : List Console.Act,
      (c.after acts).collector.poisoned = false →
      ∀ order : Stock, order.Reorders (c.after acts).collector.stock → ∀ p : Pool,
        { (c.after acts).collector with stock := order }.AnswersByText p := by
  refine ⟨Console.fresh config, Console.start_eq_ok hc, ?_⟩
  intro acts hsane order horder p
  have htidy := @Console.tidy_after (Console.fresh config) Stock.tidy_empty acts
  exact answersByText (c := { ((Console.fresh config).after acts).collector with stock := order })
    (horder.tidy htidy) hsane p

/-- Two hosts of one series. -/
def breezes : List Console.Act :=
  [.record Console.wind "b" ⟨1, 5⟩, .record Console.wind "a" ⟨2, 4⟩]

/-- A series in two spellings, and a text that names none. -/
def spelt : List Query := [⟨"at:quay wind", none⟩, ⟨" at:quay  wind", some []⟩, ⟨"at:", none⟩]

/-- The same texts the other way round, on one host. -/
def respelt : List Query :=
  [⟨"at:", some ["b"]⟩, ⟨" at:quay  wind", some ["b"]⟩, ⟨"at:quay wind", some ["b"]⟩]

/-- The two spellings are answered apart, each with what is found for it in either batch, where the
hosts are met in the other order than they were put in. -/
theorem batches_group_by_text_respelt :
    1 ≤ Console.threefold.capacity ∧ ∃ c k a b, Console.start Console.threefold = .ok c ∧
      (c.after breezes).collector.poisoned = false ∧
      k = { (c.after breezes).collector with stock := (c.after breezes).collector.stock.reversed } ∧
      k.answer (c.after breezes).handed.pool (spelt ++ respelt) =
        .ok [("at:quay wind", [a, b, b]), (" at:quay  wind", [b]), ("at:", [])] ∧
      a.host = "a" ∧ b.host = "b" ∧ b.series = "at:quay wind" ∧ b.samples = [⟨1, 5⟩] := by
  refine ⟨by decide, ?_⟩
  obtain ⟨c, hstart, h⟩ := @batches_group_by_text Console.threefold (by decide)
  have hfresh := hstart
  rw [Console.start_eq_ok (by decide)] at hfresh
  cases hfresh
  let windy := (Console.fresh Console.threefold).after breezes
  let k : Collector := { windy.collector with stock := windy.collector.stock.reversed }
  let view := View.ofSnapshot windy.handed.pool
  have hsane : k.poisoned = false := rfl
  obtain ⟨hnone, -, hjoined⟩ := h breezes hsane _
    (Stock.reversed_reorders (Console.tidy_after Stock.tidy_empty breezes)) windy.handed.pool
  -- the snapshots stand on their shelf in the order of their hosts
  have hall : k.select Console.wind = .ok k.datasets := by
    rw [select, locked_of_sane hsane, List.mergeSort_of_pairwise (by decide +kernel)]
    rfl
  have hsorted : sortedTexts ["b"] = ["b"] := List.mergeSort_of_pairwise (by decide)
  have hone : k.selectOn Console.wind ["b"] = .ok (k.datasets.drop 1) := by
    rw [selectOn_eq, locked_of_sane hsane, hsorted, List.mergeSort_of_pairwise (by decide +kernel)]
    rfl
  have hspelt : k.answer windy.handed.pool spelt =
      .ok [("at:quay wind", k.datasets.map view), (" at:quay  wind", []), ("at:", [])] :=
    calc k.answer windy.handed.pool spelt
      _ = do
        let found ← k.select Console.wind
        let found' ← k.selectOn Console.wind []
        return [("at:quay wind", found.map view), (" at:quay  wind", found'.map view),
          ("at:", [])] := rfl
      _ = _ := by rw [hall, hnone]; rfl
  have hrespelt : k.answer windy.handed.pool respelt =
      .ok [("at:", []), (" at:quay  wind", (k.datasets.drop 1).map view),
        ("at:quay wind", (k.datasets.drop 1).map view)] :=
    calc k.answer windy.handed.pool respelt
      _ = do
        let found ← k.selectOn Console.wind ["b"]
        let found' ← k.selectOn Console.wind ["b"]
        return [("at:", []), (" at:quay  wind", found.map view),
          ("at:quay wind", found'.map view)] := rfl
      _ = _ := by rw [hone]; rfl
  exact ⟨_, _, _, _, hstart, hsane, rfl, hjoined _ _ _ _ hspelt hrespelt, rfl, rfl, rfl, rfl⟩

end MetricStore.Collector
