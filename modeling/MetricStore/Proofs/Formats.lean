import MetricStore.Proofs.Utf8
import MetricStore.Wire.Records

/-!
The laws of binary formats.

A format is exact (`Format.Exact`) if it reads a value from the front of bytes just when these
bytes are what it writes of that value, and the value fits.  Every format of the store is exact,
by one lemma for each way in which formats are made.  What follows from it:

* `Exact.readsBack`: bytes that are written are read, and refused when cut short;
* `Exact.canonical`: bytes that are read are those that would be written.
-/

namespace MetricStore.Wire

namespace Format

variable {α β : Type} {f : Format α} {g : Format β} {bytes rest : List UInt8}

/-- What is read from the front of bytes is what was written there, and nothing else is read. -/
def Exact (f : Format α) : Prop :=
  ∀ bytes x rest, f.read.run bytes = .ok (x, rest) ↔ f.Fits x ∧ bytes = f.write x ++ rest

/-! ### Readers -/

theorem run_pure_eq_ok_iff {x y : α} :
    (pure x : Reader α).run bytes = .ok (y, rest) ↔ x = y ∧ bytes = rest := by
  rw [StateT.run_pure]
  constructor
  · intro h
    cases h
    exact ⟨rfl, rfl⟩
  · rintro ⟨rfl, rfl⟩
    rfl

theorem run_bind_eq_ok_iff {m : Reader α} {k : α → Reader β} {y : β} :
    (m >>= k).run bytes = .ok (y, rest) ↔
      ∃ x mid, m.run bytes = .ok (x, mid) ∧ (k x).run mid = .ok (y, rest) := by
  rw [StateT.run_bind, Except.bind_eq_ok_iff, Prod.exists]

theorem eq_append_iff {field : List UInt8} {n : Nat} (h : field.length = n) :
    bytes = field ++ rest ↔ bytes.take n = field ∧ bytes.drop n = rest := by
  constructor
  · rintro rfl
    exact ⟨List.take_left' h, List.drop_left' h⟩
  · rintro ⟨rfl, rfl⟩
    exact (List.take_append_drop n bytes).symm

/-! ### Integers -/

theorem ofLittleEndian_lt (field : List UInt8) : ofLittleEndian field < codes field.length := by
  induction field with
  | nil => exact Nat.one_pos
  | cons b field ih =>
    have := b.toNat_lt
    rw [ofLittleEndian, List.length_cons, codes]
    omega

theorem littleEndian_ofLittleEndian (field : List UInt8) :
    littleEndian field.length (ofLittleEndian field) = field := by
  induction field with
  | nil => rfl
  | cons b field ih =>
    have hb := b.toNat_lt
    have hmod : (b.toNat + 256 * ofLittleEndian field) % 256 = b.toNat := by omega
    have hdiv : (b.toNat + 256 * ofLittleEndian field) / 256 = ofLittleEndian field := by omega
    rw [List.length_cons, littleEndian, ofLittleEndian, hmod, hdiv, ih, UInt8.ofNat_toNat]

theorem exact_unsigned (width : Nat) : (unsigned width).Exact := by
  intro bytes n rest
  dsimp only [unsigned, StateT.run]
  constructor
  · intro h
    split at h
    · rename_i hl
      cases h
      have hlt := ofLittleEndian_lt (bytes.take width)
      have hwrite := littleEndian_ofLittleEndian (bytes.take width)
      rw [hl] at hlt hwrite
      rw [hwrite]
      exact ⟨hlt, (List.take_append_drop width bytes).symm⟩
    · cases h
  · rintro ⟨hn, h⟩
    obtain ⟨ht, rfl⟩ := (eq_append_iff (length_littleEndian width n)).mp h
    rw [ht, if_pos (length_littleEndian width n), ofLittleEndian_littleEndian,
      Nat.mod_eq_of_lt hn]

/-- Two's complement: what a number below `m` stands for, and the number that stands for it. -/
theorem twosComplement_iff {m k : Nat} {n : Int} :
    (k < m ∧ (if 2 * k < m then (k : Int) else k - m) = n) ↔
      (-(m : Int) ≤ 2 * n ∧ 2 * n < m) ∧ k = (n % m).toNat := by
  constructor
  · rintro ⟨hk, rfl⟩
    split
    · rw [Int.emod_eq_of_lt (by omega) (by omega)]
      omega
    · -- the upper half stands for the negative numbers
      rw [Int.sub_emod_right, Int.emod_eq_of_lt (by omega) (by omega)]
      omega
  · rintro ⟨hn, rfl⟩
    obtain hneg | hpos := Int.lt_or_le n 0
    · rw [← Int.add_emod_right, Int.emod_eq_of_lt (by omega) (by omega), if_neg (by omega)]
      omega
    · rw [Int.emod_eq_of_lt hpos (by omega), if_pos (by omega)]
      omega

theorem exact_signed (width : Nat) : (signed width).Exact := by
  intro bytes n rest
  dsimp only [signed]
  simp only [run_bind_eq_ok_iff, run_pure_eq_ok_iff, exact_unsigned width _ _ _]
  constructor
  · rintro ⟨k, _, ⟨hk, rfl⟩, hn, rfl⟩
    obtain ⟨hfit, rfl⟩ := twosComplement_iff.mp ⟨hk, hn⟩
    exact ⟨hfit, rfl⟩
  · rintro ⟨hfit, rfl⟩
    obtain ⟨hk, hn⟩ := twosComplement_iff.mpr ⟨hfit, rfl⟩
    exact ⟨_, rest, ⟨hk, rfl⟩, hn, rfl⟩

/-! ### Combinations -/

theorem Exact.map {make : α → β} {parts : β → α} (hf : f.Exact) (hmake : ∀ y, make (parts y) = y)
    (hparts : ∀ x, f.Fits x → parts (make x) = x) : (f.map make parts).Exact := by
  intro bytes y rest
  dsimp only [Format.map]
  simp only [run_bind_eq_ok_iff, run_pure_eq_ok_iff, hf _ _ _]
  constructor
  · rintro ⟨x, _, ⟨hx, rfl⟩, rfl, rfl⟩
    rw [hparts x hx]
    exact ⟨hx, rfl⟩
  · rintro ⟨hy, rfl⟩
    exact ⟨parts y, rest, ⟨hy, rfl⟩, hmake y, rfl⟩

theorem Exact.pair (hf : f.Exact) (hg : g.Exact) : (f.pair g).Exact := by
  rintro bytes ⟨x, y⟩ rest
  dsimp only [Format.pair]
  simp only [run_bind_eq_ok_iff, run_pure_eq_ok_iff, hf _ _ _, hg _ _ _]
  constructor
  · rintro ⟨_, _, ⟨hx, rfl⟩, _, _, ⟨hy, rfl⟩, heq, rfl⟩
    cases heq
    exact ⟨⟨hx, hy⟩, (List.append_assoc ..).symm⟩
  · rintro ⟨⟨hx, hy⟩, rfl⟩
    exact ⟨x, _, ⟨hx, List.append_assoc ..⟩, y, _, ⟨hy, rfl⟩, rfl, rfl⟩

theorem Exact.run_readMany_eq_ok_iff (hf : f.Exact) {n : Nat} {xs : List α} :
    (readMany f n).run bytes = .ok (xs, rest) ↔
      xs.length = n ∧ (∀ x ∈ xs, f.Fits x) ∧ bytes = xs.flatMap f.write ++ rest := by
  induction n generalizing bytes xs rest with
  | zero =>
    rw [readMany, run_pure_eq_ok_iff, List.length_eq_zero_iff]
    constructor
    · rintro ⟨rfl, rfl⟩
      exact ⟨rfl, nofun, rfl⟩
    · rintro ⟨rfl, -, rfl⟩
      exact ⟨rfl, rfl⟩
  | succ n ih =>
    simp only [readMany, run_bind_eq_ok_iff, run_pure_eq_ok_iff, hf _ _ _, ih]
    constructor
    · rintro ⟨x, _, ⟨hx, rfl⟩, xs, _, ⟨rfl, hxs, rfl⟩, rfl, rfl⟩
      exact ⟨rfl, List.forall_mem_cons.mpr ⟨hx, hxs⟩, (List.append_assoc ..).symm⟩
    · -- the count says that there is a first element
      rintro ⟨hl, hfit, rfl⟩
      obtain ⟨x, xs, rfl⟩ := List.exists_cons_of_length_eq_add_one hl
      obtain ⟨hx, hxs⟩ := List.forall_mem_cons.mp hfit
      exact ⟨x, _, ⟨hx, List.append_assoc ..⟩, xs, _, ⟨Nat.succ.inj hl, hxs, rfl⟩, rfl, rfl⟩

theorem Exact.list (hf : f.Exact) : (list f).Exact := by
  intro bytes xs rest
  dsimp only [Format.list]
  simp only [run_bind_eq_ok_iff, exact_unsigned _ _ _ _, hf.run_readMany_eq_ok_iff]
  constructor
  · rintro ⟨_, _, ⟨hn, rfl⟩, rfl, hxs, rfl⟩
    exact ⟨⟨hn, hxs⟩, (List.append_assoc ..).symm⟩
  · rintro ⟨⟨hn, hxs⟩, rfl⟩
    exact ⟨_, _, ⟨hn, List.append_assoc ..⟩, rfl, hxs, rfl⟩

/-- No tag but 0 and 1 is taken. -/
theorem run_option_eq_ok_iff {x : Option α} :
    (option f).read.run bytes = .ok (x, rest) ↔
      (x = none ∧ bytes = 0 :: rest) ∨
      ∃ y tail, x = some y ∧ bytes = 1 :: tail ∧ f.read.run tail = .ok (y, rest) := by
  dsimp only [Format.option]
  simp only [run_bind_eq_ok_iff, exact_unsigned _ _ _ _]
  constructor
  · rintro ⟨tag, mid, ⟨htag, rfl⟩, h⟩
    -- the tag is 0, is 1 or is refused
    split at h
    · obtain ⟨rfl, rfl⟩ := run_pure_eq_ok_iff.mp h
      exact .inl ⟨rfl, rfl⟩
    · simp only [run_bind_eq_ok_iff, run_pure_eq_ok_iff] at h
      obtain ⟨y, _, hy, rfl, rfl⟩ := h
      exact .inr ⟨y, mid, rfl, rfl, hy⟩
    · cases h
  · rintro (⟨rfl, rfl⟩ | ⟨y, tail, rfl, rfl, hy⟩)
    · exact ⟨0, rest, ⟨(by decide : 0 < codes 1), rfl⟩, rfl⟩
    · refine ⟨1, tail, ⟨(by decide : 1 < codes 1), rfl⟩, ?_⟩
      simp only [run_bind_eq_ok_iff, run_pure_eq_ok_iff]
      exact ⟨y, rest, hy, rfl, rfl⟩

theorem Exact.option (hf : f.Exact) : (option f).Exact := by
  intro bytes x rest
  simp only [run_option_eq_ok_iff, hf _ _ _]
  cases x with
  | none =>
    constructor
    · rintro (⟨-, rfl⟩ | ⟨_, _, h, -⟩)
      · exact ⟨nofun, rfl⟩
      · cases h
    · rintro ⟨-, rfl⟩
      exact .inl ⟨rfl, rfl⟩
  | some y =>
    constructor
    · rintro (⟨h, -⟩ | ⟨_, _, h, rfl, hy, rfl⟩)
      · cases h
      · cases h
        exact ⟨fun _ hz => Option.some.inj hz ▸ hy, rfl⟩
    · rintro ⟨hy, rfl⟩
      exact .inr ⟨y, _, rfl, rfl, hy y rfl, rfl⟩

theorem run_readContent_eq_ok_iff {length : Nat} {content : List UInt8} :
    (readContent length).run bytes = .ok (content, rest) ↔
      content.length = length ∧ bytes = content ++ rest := by
  dsimp only [readContent, StateT.run]
  constructor
  · intro h
    split at h
    · cases h
      exact ⟨‹_›, (List.take_append_drop length bytes).symm⟩
    · cases h
  · rintro ⟨hl, h⟩
    obtain ⟨ht, rfl⟩ := (eq_append_iff hl).mp h
    rw [ht, if_pos hl]

theorem exact_text : text.Exact := by
  intro bytes s rest
  dsimp only [text]
  simp only [run_bind_eq_ok_iff, exact_unsigned _ _ _ _, run_readContent_eq_ok_iff]
  constructor
  · rintro ⟨n, _, ⟨hn, rfl⟩, content, _, ⟨rfl, rfl⟩, h⟩
    split at h
    · cases h
    · -- a content that is read as a text is the bytes of that text
      rename_i chars hd
      obtain ⟨rfl, rfl⟩ := run_pure_eq_ok_iff.mp h
      obtain rfl := Text.Utf8.decode_eq_ok_iff.mp hd
      rw [String.toList_ofList]
      exact ⟨hn, (List.append_assoc ..).symm⟩
  · rintro ⟨hn, rfl⟩
    refine ⟨_, _, ⟨hn, List.append_assoc ..⟩, _, rest, ⟨rfl, rfl⟩, ?_⟩
    rw [Text.Utf8.decode_eq_ok_iff.mpr rfl]
    exact run_pure_eq_ok_iff.mpr ⟨String.ofList_toList, rfl⟩

/-! ### The integers of the store -/

theorem codes_eight : codes 8 = 0x10000000000000000 := rfl

theorem codes_sixteen : codes 16 = 0x100000000000000000000000000000000 := rfl

theorem fits_int64 (n : Int64) : int64.Fits n := by
  have hle := n.le_toInt
  have hlt := n.toInt_lt
  dsimp only [int64, Format.map, signed]
  rw [codes_eight]
  omega

theorem exact_int64 : int64.Exact := by
  refine (exact_signed 8).map Int64.ofInt_toInt fun n h => ?_
  dsimp only [signed] at h
  rw [codes_eight] at h
  exact Int64.toInt_ofInt_of_le (by omega) (by omega)

theorem fits_int128 (n : Int128) : int128.Fits n := by
  have hle := n.least_le
  have hlt := n.lt_bound
  dsimp only [int128, Format.map, signed]
  rw [codes_sixteen]
  omega

theorem exact_int128 : int128.Exact := by
  refine (exact_signed 16).map Int128.clamp_toInt fun n h => ?_
  dsimp only [signed] at h
  rw [codes_sixteen] at h
  exact Int128.toInt_clamp (by omega) (by omega)

theorem fits_text {s : String} : text.Fits s ↔ s.utf8ByteSize < UInt64.size := by
  rw [← Text.Utf8.length_encode]
  exact Iff.rfl

/-! ### What the store makes of bytes -/

theorem fromBytes_eq_ok_iff {x : α} :
    f.fromBytes bytes = .ok x ↔ ∃ rest, f.read.run bytes = .ok (x, rest) := by
  dsimp only [fromBytes, decode]
  match f.read.run bytes with
  | .error fault => exact iff_of_false nofun (fun ⟨_, h⟩ => nomatch h)
  | .ok (y, rest) =>
    constructor
    · intro h
      cases h
      exact ⟨rest, rfl⟩
    · rintro ⟨_, h⟩
      cases h
      rfl

theorem fromBytes_eq_error (h : ∀ x, f.fromBytes bytes ≠ .ok x) :
    ∃ reason, f.fromBytes bytes = .error (.bytes reason) := by
  match hd : f.decode bytes with
  | .error fault =>
    rw [fromBytes, hd]
    exact ⟨fault.message, rfl⟩
  | .ok x =>
    refine absurd ?_ (h x)
    rw [fromBytes, hd]
    rfl

/-- An exact format reads whatever begins with bytes that it writes. -/
theorem Exact.fromBytes_eq_ok_iff (hf : f.Exact) {x : α} :
    f.fromBytes bytes = .ok x ↔ f.Fits x ∧ f.write x <+: bytes := by
  rw [Format.fromBytes_eq_ok_iff]
  simp only [hf _ _ _]
  constructor
  · rintro ⟨rest, hx, rfl⟩
    exact ⟨hx, List.prefix_append ..⟩
  · rintro ⟨hx, rest, rfl⟩
    exact ⟨rest, hx, rfl⟩

/-- The bytes of `x` are read as `x` whatever is behind them, and not at all when cut short. -/
structure ReadsBack (f : Format α) (x : α) : Prop where
  behind : ∀ rest, f.fromBytes (f.write x ++ rest) = .ok x
  cut : ∀ bytes, bytes <+: f.write x → bytes ≠ f.write x →
    ∃ reason, f.fromBytes bytes = .error (.bytes reason)

theorem Exact.readsBack (hf : f.Exact) {x : α} (hx : f.Fits x) : f.ReadsBack x where
  behind rest := hf.fromBytes_eq_ok_iff.mpr ⟨hx, List.prefix_append ..⟩
  cut bytes hp hne := by
    refine fromBytes_eq_error fun y hy => hne ?_
    -- what is read of the part is read of the whole too, where it is `x`
    obtain ⟨hfit, hw⟩ := hf.fromBytes_eq_ok_iff.mp hy
    have hwhole := hf.fromBytes_eq_ok_iff.mpr ⟨hfit, hw.trans hp⟩
    rw [hf.fromBytes_eq_ok_iff.mpr ⟨hx, List.prefix_rfl⟩] at hwhole
    cases hwhole
    exact hp.eq_of_length_le hw.length_le

/-- What is read fits, its own bytes are those that it was read from, and no two byte strings of
the same length are read to their ends as the same value. -/
structure Canonical (f : Format α) : Prop where
  writes : ∀ bytes x, f.fromBytes bytes = .ok x → f.Fits x ∧ f.write x <+: bytes
  unique : ∀ a b x, a.length = b.length → f.read.run a = .ok (x, []) →
    f.read.run b = .ok (x, []) → a = b

theorem Exact.canonical (hf : f.Exact) : f.Canonical where
  writes _ _ := hf.fromBytes_eq_ok_iff.mp
  unique a b x _ ha hb := ((hf a x []).mp ha).2.trans ((hf b x []).mp hb).2.symm

end Format

end MetricStore.Wire
