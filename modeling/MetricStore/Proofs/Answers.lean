import MetricStore.Collector.Answer
import MetricStore.Proofs.Admission

/-!
What a batch of queries is answered with.

An answer is put together query by query, each time looking for the text among those that were asked
for before.  It comes to grouping what all queries find by their texts (`grouped`), and it fails with
the first query that does.  Main statements:

* `answer_eq_ok`: if every query finds something, the answer is what they find, grouped;
* `answer_eq_error`: if one query fails, and no other fails in another way, so does the answer.
-/

namespace MetricStore.Collector

variable {α : Type}

/-! ### Values grouped by keys -/

/-- What queries find, by their texts: a text stands where it is asked for first, with what is found
for it in the order of the queries. -/
def grouped (found : Query → List α) (queries : List Query) : List (String × List α) :=
  (queries.map Query.series).eraseDups.map fun text =>
    (text, (queries.filter fun q => q.series = text).flatMap found)

theorem map_fst_grouped (found : Query → List α) (queries : List Query) :
    (grouped found queries).map Prod.fst = (queries.map Query.series).eraseDups := by
  rw [grouped, List.map_map]
  exact List.map_id _

/-- What no query asks for is not found. -/
theorem flatMap_filter_of_notMem (found : Query → List α) {queries : List Query} {text : String}
    (h : text ∉ queries.map Query.series) :
    (queries.filter fun q => q.series = text).flatMap found = [] := by
  rw [List.filter_eq_nil_iff.mpr, List.flatMap_nil]
  intro q hq heq
  exact h (List.mem_map.mpr ⟨q, hq, of_decide_eq_true heq⟩)

theorem group_of_notMem {key : String} {found : List α} {answers : List (String × List α)}
    (h : key ∉ answers.map Prod.fst) : group key found answers = answers ++ [(key, found)] := by
  induction answers with
  | nil => rfl
  | cons answer rest ih =>
    rw [List.map_cons, List.mem_cons, not_or] at h
    rw [group, if_neg (Ne.symm h.1), ih h.2, List.cons_append]

/-- Values under a key that is there go behind those it has; no other key is touched. -/
theorem group_of_mem {key : String} {found : List α} {known : String → List α} {keys : List String}
    (hdup : keys.Nodup) (h : key ∈ keys) :
    group key found (keys.map fun k => (k, known k)) =
      keys.map fun k => (k, known k ++ if k = key then found else []) := by
  induction keys with
  | nil => exact absurd h List.not_mem_nil
  | cons k rest ih =>
    obtain ⟨hnot, hdup⟩ := List.nodup_cons.mp hdup
    rw [List.map_cons, List.map_cons, group]
    by_cases hk : k = key
    · rw [if_pos hk, if_pos hk]
      -- the key does not come again
      refine congrArg _ (List.map_congr_left fun k' hk' => ?_)
      have hne : k' ≠ key := fun heq => hnot (hk.trans heq.symm ▸ hk')
      rw [if_neg hne, List.append_nil]
    · have hrest : key ∈ rest := (List.mem_cons.mp h).resolve_left (Ne.symm hk)
      rw [if_neg hk, if_neg hk, List.append_nil, ih hdup hrest]

theorem grouped_concat (found : Query → List α) (queries : List Query) (q : Query) :
    grouped found (queries ++ [q]) = group q.series (found q) (grouped found queries) := by
  have hfound : ∀ text, ((queries ++ [q]).filter fun q' => q'.series = text).flatMap found =
      (queries.filter fun q' => q'.series = text).flatMap found ++
        if text = q.series then found q else [] := by
    intro text
    rw [List.filter_append, List.flatMap_append]
    by_cases htext : text = q.series
    · simp [htext]
    · simp [htext, Ne.symm htext]
  rw [grouped, List.map_append, List.map_singleton]
  simp only [hfound]
  by_cases h : q.series ∈ queries.map Query.series
  · rw [List.eraseDups_concat_of_mem h, grouped,
      group_of_mem (List.nodup_eraseDups _) (List.mem_eraseDups.mpr h)]
  · have hkey : q.series ∉ (grouped found queries).map Prod.fst := by
      rwa [map_fst_grouped, List.mem_eraseDups]
    rw [List.eraseDups_concat_of_notMem h, group_of_notMem hkey, List.map_append,
      List.map_singleton, flatMap_filter_of_notMem found h, if_pos rfl, List.nil_append, grouped]
    -- the text of this query is none of the others
    refine congrArg (· ++ _) (List.map_congr_left fun text htext => ?_)
    have hne : text ≠ q.series := fun heq => h (heq ▸ List.mem_eraseDups.mp htext)
    rw [if_neg hne, List.append_nil]

/-! ### Answers -/

variable {c : Collector} {p : Pool} {queries : List Query}

theorem answer_concat (c : Collector) (p : Pool) (queries : List Query) (q : Query) :
    c.answer p (queries ++ [q]) = do
      let answers ← c.answer p queries
      let found ← c.selectFor q
      return group q.series (found.map (View.ofSnapshot p)) answers := by
  rw [answer, List.foldlM_append, ← answer]
  simp only [List.foldlM_cons, List.foldlM_nil, bind_pure]

theorem answer_eq_ok {found : Query → List Snapshot}
    (h : ∀ q ∈ queries, c.selectFor q = .ok (found q)) :
    c.answer p queries = .ok (grouped (fun q => (found q).map (View.ofSnapshot p)) queries) := by
  induction queries using List.reverseRecOn with
  | nil => rfl
  | append_singleton queries q ih =>
    obtain ⟨hbefore, hq⟩ := List.forall_mem_append.mp h
    rw [answer_concat, ih hbefore, hq q (List.mem_singleton_self q), grouped_concat]
    rfl

theorem answer_eq_error {failure : Failure}
    (h : ∀ q ∈ queries, (∃ found, c.selectFor q = .ok found) ∨ c.selectFor q = .error failure)
    (hfails : ∃ q ∈ queries, c.selectFor q = .error failure) :
    c.answer p queries = .error failure := by
  rw [answer]
  -- what was found before the failure does not matter
  generalize ([] : List (String × List View)) = answers
  induction queries generalizing answers with
  | nil =>
    obtain ⟨q, hq, -⟩ := hfails
    exact absurd hq List.not_mem_nil
  | cons q rest ih =>
    obtain ⟨hnow, hlater⟩ := List.forall_mem_cons.mp h
    rw [List.foldlM_cons]
    obtain ⟨found, hfound⟩ | herror := hnow
    · rw [hfound]
      obtain ⟨q', hq', herror⟩ := hfails
      obtain rfl | hq' := List.mem_cons.mp hq'
      · exact nomatch hfound.symm.trans herror
      · exact ih hlater ⟨q', hq', herror⟩ _
    · rw [herror]
      rfl

end MetricStore.Collector
