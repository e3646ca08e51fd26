import MetricStore.Sample

/-!
Rates of change per second, as drawn from a list of samples with times in milliseconds.

`Rate.between a b` is the change from `a` to `b` per second.  It is taken over the samples
themselves (`Rate.ofSamples`) or over their flat form (`Rate.ofFlat`); each rate carries the time
of its later sample, so there is one rate less than there are samples (`length_ofSamples`).  On a
flat list the recursion comes to a walk over windows of four numbers, two apart
(`ofFlat_eq_flatMap_range`).

Design notes: difference and product are exact integers, so nothing overflows; only the quotient,
truncated towards zero, is brought into the range of a value.  Samples at one time have rate zero.
-/

namespace MetricStore.Rate

/-- The change per second from `a` to `b`: `1000 * Δvalue / Δtime` truncated towards zero and
clamped to 64 bits, or zero if the times are equal. -/
def between (a b : Sample) : Int64 :=
  let elapsed := b.time.toInt - a.time.toInt
  if elapsed = 0 then 0
  else Int64.ofIntClamp ((1000 * (b.value.toInt - a.value.toInt)).tdiv elapsed)

/-- For every sample but the first, its time and the rate towards it. -/
def ofSamples : List Sample → List Sample
  | a :: b :: rest => ⟨b.time, between a b⟩ :: ofSamples (b :: rest)
  | _ => []

/-- The same over times and values in turn; a last time without a value counts for nothing. -/
def ofFlat : List Int64 → List Int64
  | t₀ :: v₀ :: t₁ :: v₁ :: rest => t₁ :: between ⟨t₀, v₀⟩ ⟨t₁, v₁⟩ :: ofFlat (t₁ :: v₁ :: rest)
  | _ => []

theorem length_ofSamples (samples : List Sample) :
    (ofSamples samples).length = samples.length - 1 := by
  fun_induction ofSamples samples with
  | case1 a b rest ih => simp only [List.length_cons, ih]; omega
  | case2 samples h =>
    match samples, h with
    | [], _ => rfl
    | [_], _ => rfl
    | a :: b :: rest, h => exact absurd rfl (h a b rest)

/-- Window by window: for every complete sample but the first, the time of that sample and the rate
towards it. -/
theorem ofFlat_eq_flatMap_range (flat : List Int64) :
    ofFlat flat = (List.range (flat.length / 2 - 1)).flatMap fun i =>
      [flat.getD (2 * i + 2) 0,
        between ⟨flat.getD (2 * i) 0, flat.getD (2 * i + 1) 0⟩
          ⟨flat.getD (2 * i + 2) 0, flat.getD (2 * i + 3) 0⟩] := by
  fun_induction ofFlat flat with
  | case1 t₀ v₀ t₁ v₁ rest ih =>
    -- the windows of the rest begin two numbers later
    have hcount : (t₀ :: v₀ :: t₁ :: v₁ :: rest).length / 2 - 1 =
        (t₁ :: v₁ :: rest).length / 2 - 1 + 1 := by
      simp only [List.length_cons]
      omega
    rw [hcount, List.range_succ_eq_map, List.flatMap_cons, List.flatMap_map, ih]
    rfl
  | case2 flat hshort =>
    have hcount : flat.length / 2 - 1 = 0 := by
      match flat, hshort with
      | [], _ => simp
      | [_], _ => simp
      | [_, _], _ => simp
      | [_, _, _], _ => simp
      | t₀ :: v₀ :: t₁ :: v₁ :: rest, hshort => exact absurd rfl (hshort t₀ v₀ t₁ v₁ rest)
    rw [hcount]
    rfl

end MetricStore.Rate
