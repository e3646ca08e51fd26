import MetricStore.Proofs.Formats

/-!
The records of the store and their bytes.

* `records_read_back`: bytes written of a record are read as that record, whatever is behind them,
  and refused as soon as one of them is missing.
* `records_have_one_form`: the only bytes that are read as a record are those written of it.
-/

namespace MetricStore

/-! ### Sizes of 64 bits -/

/-- The counts of a summary are 64-bit numbers. -/
structure Summary.IsSized (s : Summary) : Prop where
  count_lt : s.count < UInt64.size
  changes_lt : s.changes < UInt64.size

structure Series.IsSized (s : Series) : Prop where
  tags_lt : s.tags.length < UInt64.size
  tag_lt : ∀ t ∈ s.tags, t.1.utf8ByteSize < UInt64.size ∧ t.2.utf8ByteSize < UInt64.size
  name_lt : s.name.utf8ByteSize < UInt64.size

structure Query.IsSized (q : Query) : Prop where
  series_lt : q.series.utf8ByteSize < UInt64.size
  hosts_lt : ∀ hosts ∈ q.hosts,
    hosts.length < UInt64.size ∧ ∀ host ∈ hosts, host.utf8ByteSize < UInt64.size

structure View.IsSized (v : View) : Prop where
  series_lt : v.series.utf8ByteSize < UInt64.size
  host_lt : v.host.utf8ByteSize < UInt64.size
  capacity_lt : v.capacity < UInt64.size
  samples_lt : v.samples.length < UInt64.size
  rates_lt : v.rates.length < UInt64.size
  count_lt : v.count < UInt64.size
  changes_lt : v.changes < UInt64.size
  runLength_lt : v.runLength < UInt64.size

namespace Wire

open Format

/-! ### The formats of the records -/

theorem exact_sample : sample.Exact :=
  (exact_int64.pair exact_int64).map (fun _ => rfl) fun _ _ => rfl

theorem exact_series : series.Exact :=
  ((exact_text.pair exact_text).list.pair exact_text).map (fun _ => rfl) fun _ _ => rfl

theorem exact_query : query.Exact :=
  (exact_text.pair exact_text.list.option).map (fun _ => rfl) fun _ _ => rfl

theorem exact_summary : summary.Exact :=
  ((exact_unsigned 8).pair <| (exact_unsigned 8).pair <| exact_int64.pair <|
    exact_int64.pair exact_int128).map (fun _ => rfl) fun _ _ => rfl

theorem exact_run : run.Exact :=
  (exact_int64.pair (exact_unsigned 8)).map (fun _ => rfl) fun _ _ => rfl

theorem exact_view : view.Exact :=
  (exact_text.pair <| exact_text.pair <| (exact_unsigned 8).pair <|
    exact_sample.list.pair <| exact_sample.list.pair <| exact_int64.pair <| exact_int64.pair <|
    exact_int128.pair <| (exact_unsigned 8).pair <| (exact_unsigned 8).pair <|
    exact_int64.pair (exact_unsigned 8)).map (fun _ => rfl) fun _ _ => rfl

theorem fits_sample (s : Sample) : sample.Fits s :=
  ⟨fits_int64 s.time, fits_int64 s.value⟩

theorem fits_run {r : Run} (h : r.count < UInt64.size) : run.Fits r :=
  ⟨fits_int64 r.since, h⟩

theorem fits_summary {s : Summary} (h : s.IsSized) : summary.Fits s :=
  ⟨h.count_lt, h.changes_lt, fits_int64 s.min, fits_int64 s.max, fits_int128 s.sum⟩

theorem fits_series {s : Series} (h : s.IsSized) : series.Fits s :=
  ⟨⟨h.tags_lt, fun t ht => ⟨fits_text.mpr (h.tag_lt t ht).1, fits_text.mpr (h.tag_lt t ht).2⟩⟩,
    fits_text.mpr h.name_lt⟩

theorem fits_query {q : Query} (h : q.IsSized) : query.Fits q := by
  refine ⟨fits_text.mpr h.series_lt, fun hosts hq => ?_⟩
  obtain ⟨hlen, hhosts⟩ := h.hosts_lt hosts hq
  exact ⟨hlen, fun host hh => fits_text.mpr (hhosts host hh)⟩

theorem fits_view {v : View} (h : v.IsSized) : view.Fits v :=
  ⟨fits_text.mpr h.series_lt, fits_text.mpr h.host_lt, h.capacity_lt,
    ⟨h.samples_lt, fun s _ => fits_sample s⟩, ⟨h.rates_lt, fun s _ => fits_sample s⟩,
    fits_int64 v.min, fits_int64 v.max, fits_int128 v.mean, h.count_lt, h.changes_lt,
    fits_int64 v.since, h.runLength_lt⟩

/-! ### Writing and reading -/

/-- Whatever a record holds, its bytes are read as this record with anything behind them, and as
a failure when the last of them are missing. -/
theorem records_read_back :
    (∀ s : Sample, sample.ReadsBack s) ∧
    (∀ r : Run, r.count < UInt64.size → run.ReadsBack r) ∧
    (∀ s : Summary, s.IsSized → summary.ReadsBack s) ∧
    (∀ s : Series, s.IsSized → series.ReadsBack s) ∧
    (∀ q : Query, q.IsSized → query.ReadsBack q) ∧
    ∀ v : View, v.IsSized → view.ReadsBack v :=
  ⟨fun s => exact_sample.readsBack (fits_sample s),
    fun _ h => exact_run.readsBack (fits_run h),
    fun _ h => exact_summary.readsBack (fits_summary h),
    fun _ h => exact_series.readsBack (fits_series h),
    fun _ h => exact_query.readsBack (fits_query h),
    fun _ h => exact_view.readsBack (fits_view h)⟩

/-- A view at the bounds of its fields. -/
def extreme : View where
  series := "mem:größe ⟶ 𝔏"
  host := ""
  capacity := 0xFFFFFFFFFFFFFFFF
  samples := [⟨-1, Int64.minValue⟩, ⟨Int64.maxValue, 0⟩]
  rates := []
  min := Int64.minValue
  max := -1
  mean := Int128.clamp (-0x80000000000000000000000000000000)
  count := 0xFFFFFFFFFFFFFFFF
  changes := 0
  since := -1
  runLength := 0x100

theorem records_read_back_extreme :
    run.ReadsBack ⟨-1, 0xFFFFFFFFFFFFFFFF⟩ ∧
    summary.ReadsBack ⟨1, 0xFFFFFFFFFFFFFFFF, -2, 3, Int128.clamp (-4)⟩ ∧
    series.ReadsBack ⟨[("é", ""), ("", "𝔏")], ""⟩ ∧
    query.ReadsBack ⟨"", some ["a", ""]⟩ ∧
    view.ReadsBack extreme := by
  obtain ⟨-, hrun, hsummary, hseries, hquery, hview⟩ := records_read_back
  refine ⟨hrun _ (by decide), hsummary _ ⟨by decide, by decide⟩,
    hseries _ ⟨by decide, by decide, by decide⟩, hquery _ ⟨by decide, by decide⟩,
    hview _ ⟨?_, ?_, ?_, ?_, ?_, ?_, ?_, ?_⟩⟩ <;> decide

/-- Only the bytes that are written of a record are read as it.  Within them the content of every
text is valid UTF-8, and the tag of every option is 0 or 1. -/
theorem records_have_one_form :
    (sample.Canonical ∧ run.Canonical ∧ summary.Canonical ∧ series.Canonical ∧
      query.Canonical ∧ view.Canonical) ∧
    (∀ bytes s rest, text.read.run bytes = .ok (s, rest) →
      ∃ content, bytes = littleEndian 8 content.length ++ content ++ rest ∧
        content.toByteArray.IsValidUTF8 ∧ content.toByteArray = s.toByteArray) ∧
    ∀ (α : Type) (f : Format α) bytes x rest, (option f).read.run bytes = .ok (x, rest) →
      ∃ tag tail, bytes = tag :: tail ∧ (tag = 0 ∧ x = none ∨ tag = 1 ∧ x ≠ none) := by
  refine ⟨⟨exact_sample.canonical, exact_run.canonical, exact_summary.canonical,
    exact_series.canonical, exact_query.canonical, exact_view.canonical⟩, ?_, ?_⟩
  · intro bytes s rest h
    obtain ⟨-, hbytes⟩ := (exact_text bytes s rest).mp h
    have hs : (Text.Utf8.encode s.toList).toByteArray = s.toByteArray := by
      rw [Text.Utf8.toByteArray_encode, String.ofList_toList]
    exact ⟨_, hbytes, hs ▸ s.isValidUTF8, hs⟩
  · intro α f bytes x rest h
    obtain ⟨rfl, rfl⟩ | ⟨y, tail, rfl, rfl, -⟩ := run_option_eq_ok_iff.mp h
    · exact ⟨0, rest, rfl, .inl ⟨rfl, rfl⟩⟩
    · exact ⟨1, tail, rfl, .inr ⟨rfl, nofun⟩⟩

/-- A run of 258 samples since -2. -/
def runBytes : List UInt8 :=
  [0xFE, 0xFF, 0xFF, 0xFF, 0xFF, 0xFF, 0xFF, 0xFF, 2, 1, 0, 0, 0, 0, 0, 0]

/-- `é`, with a byte behind it. -/
def textBytes : List UInt8 := [2, 0, 0, 0, 0, 0, 0, 0, 0xC3, 0xA9, 0x2A]

theorem records_have_one_form_run :
    run.write ⟨-2, 0x102⟩ <+: runBytes ++ [0x2A] ∧
    runBytes = run.write ⟨-2, 0x102⟩ ∧
    (∃ content, textBytes = littleEndian 8 content.length ++ content ++ [0x2A] ∧
      content.toByteArray.IsValidUTF8 ∧ content.toByteArray = "é".toByteArray) ∧
    ∃ tag tail, 1 :: runBytes = tag :: tail ∧
      (tag = 0 ∧ some (⟨-2, 0x102⟩ : Run) = none ∨ tag = 1 ∧ some (⟨-2, 0x102⟩ : Run) ≠ none) := by
  obtain ⟨⟨-, hrun, -⟩, htext, hoption⟩ := records_have_one_form
  have hread : text.read.run textBytes = .ok ("é", [0x2A]) :=
    (exact_text _ _ _).mpr ⟨fits_text.mpr (by decide), by decide⟩
  refine ⟨(hrun.writes _ ⟨-2, 0x102⟩ ?_).2, hrun.unique _ _ ⟨-2, 0x102⟩ ?_ ?_ ?_,
    htext _ _ _ hread, hoption _ run _ _ [] ?_⟩
  · rfl
  · decide
  · rfl
  · rfl
  · rfl

end Wire

end MetricStore
