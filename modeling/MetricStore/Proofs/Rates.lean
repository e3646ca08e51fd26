import MetricStore.Checked.Numbers
import MetricStore.View

/-!
Rates of change, exactly.

Rates are taken over samples or over their flat form, and both ways give the same, an odd last time
being left out of both (`ofFlat_eq_flatten`).  Each rate is the exact quotient, truncated towards zero
and brought into the range of a value (`toInt_between`); differences, product and quotient have room in
128 bits, however far apart the samples are and in whichever order (`between?_eq_some`).  Main
statement:

* `rates_agree_and_are_exact`: what both ways give, and what a view of a snapshot shows.
-/

namespace MetricStore

namespace Rate

/-- Two values of 64 bits are less than 2⁶⁴ apart. -/
theorem natAbs_sub_lt (x y : Int64) : (x.toInt - y.toInt).natAbs < 0x10000000000000000 := by
  have hx := x.le_toInt
  have hx' := x.toInt_lt
  have hy := y.le_toInt
  have hy' := y.toInt_lt
  omega

/-- An integer brought into the range of a value. -/
theorem toInt_ofIntClamp (n : Int) :
    (Int64.ofIntClamp n).toInt = max (-0x8000000000000000) (min n 0x7fffffffffffffff) := by
  have hmin : Int64.minValue.toInt = -0x8000000000000000 := rfl
  have hmax : Int64.maxValue.toInt = 0x7fffffffffffffff := rfl
  rw [Int64.ofIntClamp]
  split
  · split
    · rw [Int64.toInt_ofIntLE]
      omega
    · omega
  · omega

/-! ### One rate -/

/-- The exact change per second from `a` to `b`, truncated towards zero and brought into the range of a
value; zero if the times are equal. -/
def perSecond (a b : Sample) : Int :=
  if b.time = a.time then 0
  else max (-0x8000000000000000)
    (min ((1000 * (b.value.toInt - a.value.toInt)).tdiv (b.time.toInt - a.time.toInt))
      0x7fffffffffffffff)

theorem toInt_between (a b : Sample) : (between a b).toInt = perSecond a b := by
  have htimes : b.time.toInt - a.time.toInt = 0 ↔ b.time = a.time := by
    rw [Int.sub_eq_zero, Int64.toInt_inj]
  simp only [between, perSecond, htimes]
  split
  · rfl
  · exact toInt_ofIntClamp _

/-- No integer on the way to a rate has more than 128 bits. -/
theorem between?_eq_some (a b : Sample) : between? a b = some (between a b) := by
  have helapsed := natAbs_sub_lt b.time a.time
  have hchange := natAbs_sub_lt b.value a.value
  have hrate := Int.natAbs_tdiv_le_natAbs ((b.value.toInt - a.value.toInt) * 1000)
    (b.time.toInt - a.time.toInt)
  rw [between?, between, Int.mul_comm 1000]
  simp (disch := omega) only [Option.bind_eq_bind, Int128.ofInt?_eq_some, Option.bind_some,
    Int128.toInt_clamp_of_natAbs_lt]
  split <;> rfl

/-! ### All rates -/

/-- These are the rates between the samples: one less than there are samples, each with the time of
the later sample and the exact change per second towards it, for which 128 bits are enough. -/
structure Between (samples rates : List Sample) : Prop where
  length_eq : rates.length = samples.length - 1
  entry : ∀ i a b, samples[i]? = some a → samples[i + 1]? = some b →
    ∃ r, rates[i]? = some r ∧ r.time = b.time ∧ between? a b = some r.value ∧
      r.value.toInt = perSecond a b

theorem getElem?_ofSamples {samples : List Sample} {i : Nat} {a b : Sample}
    (ha : samples[i]? = some a) (hb : samples[i + 1]? = some b) :
    (ofSamples samples)[i]? = some ⟨b.time, between a b⟩ := by
  fun_induction ofSamples samples generalizing i with
  | case1 x y rest ih =>
    cases i with
    | zero =>
      cases ha
      cases hb
      rfl
    | succ i => exact ih ha hb
  | case2 samples hshort =>
    -- there are two samples at least
    obtain _ | ⟨x, _ | ⟨y, rest⟩⟩ := samples
    · simp at ha
    · simp at hb
    · exact absurd rfl (hshort x y rest)

theorem between_ofSamples (samples : List Sample) : Between samples (ofSamples samples) where
  length_eq := length_ofSamples samples
  entry _ a b ha hb :=
    ⟨_, getElem?_ofSamples ha hb, rfl, between?_eq_some a b, toInt_between a b⟩

/-- The rates of a flat list are those of its samples. -/
theorem ofFlat_eq_flatten (flat : List Int64) :
    ofFlat flat = Sample.flatten (ofSamples (Sample.ofFlat flat)) := by
  fun_induction ofFlat flat with
  | case1 t₀ v₀ t₁ v₁ rest ih =>
    have hlater : Sample.ofFlat (t₁ :: v₁ :: rest) = ⟨t₁, v₁⟩ :: Sample.ofFlat rest := rfl
    have hall : Sample.ofFlat (t₀ :: v₀ :: t₁ :: v₁ :: rest) =
        ⟨t₀, v₀⟩ :: Sample.ofFlat (t₁ :: v₁ :: rest) := rfl
    rw [ih, hall, hlater, ofSamples, Sample.flatten_cons]
  | case2 flat hshort =>
    -- no two samples are complete
    obtain _ | ⟨t₀, _ | ⟨v₀, _ | ⟨t₁, _ | ⟨v₁, rest⟩⟩⟩⟩ := flat
    · rfl
    · rfl
    · rfl
    · rfl
    · exact absurd rfl (hshort t₀ v₀ t₁ v₁ rest)

/-- **Rates are exact, taken either way.**  The rates of a flat list are those of the samples in it,
written in turn, and a last time without a value counts for nothing.  Those of any samples are the
exact changes per second between them, and a view shows these rates of the samples it has copied. -/
theorem rates_agree_and_are_exact :
    (∀ flat : List Int64, ofFlat flat = Sample.flatten (ofSamples (Sample.ofFlat flat))) ∧
    (∀ samples : List Sample, Between samples (ofSamples samples)) ∧
    ∀ (p : Pool) (s : Snapshot), (View.ofSnapshot p s).samples = s.samples p ∧
      Between (View.ofSnapshot p s).samples (View.ofSnapshot p s).rates ∧
      Sample.flatten (View.ofSnapshot p s).rates = ofFlat (Sample.flatten (s.samples p)) := by
  refine ⟨ofFlat_eq_flatten, between_ofSamples, ?_⟩
  intro p s
  refine ⟨rfl, between_ofSamples (s.samples p), ?_⟩
  rw [ofFlat_eq_flatten, Sample.ofFlat_flatten]
  rfl

/-- Times that go backwards by one or not at all, the greatest change there is, and a last time
without a value. -/
def headlong : List Int64 := [0, Int64.minValue, -1, Int64.maxValue, -1, 4, 9]

/-- The quotient is beyond the range of a value and is held at its bound; samples at one time have the
rate zero. -/
theorem rates_agree_and_are_exact_headlong :
    ofFlat headlong = [-1, Int64.minValue, -1, 0] ∧
      ∃ r : Sample, (ofSamples (Sample.ofFlat headlong))[0]? = some r ∧ r.time = -1 ∧
        between? ⟨0, Int64.minValue⟩ ⟨-1, Int64.maxValue⟩ = some r.value ∧
        r.value.toInt = -0x8000000000000000 := by
  obtain ⟨hflat, hexact, -⟩ := rates_agree_and_are_exact
  obtain ⟨r, hr, htime, hroom, hvalue⟩ := (hexact (Sample.ofFlat headlong)).entry 0 _ _ rfl rfl
  refine ⟨(hflat headlong).trans (by decide), r, hr, htime, hroom, ?_⟩
  rw [hvalue]
  decide

end Rate

end MetricStore
