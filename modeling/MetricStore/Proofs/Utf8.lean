import Mathlib.Tactic.SplitIfs
import MetricStore.Proofs.Except
import MetricStore.Text.Utf8

/-!
Reading UTF-8 is the inverse of writing it.

`decode_eq_ok_iff`: bytes are read as a text if and only if they are the bytes of that text, so
each text has one form in bytes and nothing else is accepted.  The bytes are those that the
standard library gives to a text (`toByteArray_encode`).

Design notes: both directions go through `Spells`, the bytes of a scalar as numbers, where either
is a matter of division and remainder.
-/

namespace MetricStore.Text.Utf8

variable {b : UInt8} {bytes rest : List UInt8} {c : Char}

/-! ### The bytes of a scalar -/

/-- `b` and the bytes behind it begin with the scalar `n` and go on with `rest`. -/
inductive Spells (n : Nat) (rest : List UInt8) : UInt8 → List UInt8 → Prop
  | one {b : UInt8} (hn : n < 0x80) (hb : b.toNat = n) : Spells n rest b rest
  | two {b f : UInt8} (hn : 0x80 ≤ n ∧ n < 0x800) (hb : b.toNat = 0xC0 + n / 64)
      (hf : f.toNat = 0x80 + n % 64) : Spells n rest b (f :: rest)
  | three {b f g : UInt8} (hn : 0x800 ≤ n ∧ n < 0x10000) (hb : b.toNat = 0xE0 + n / 4096)
      (hf : f.toNat = 0x80 + n / 64 % 64) (hg : g.toNat = 0x80 + n % 64) :
      Spells n rest b (f :: g :: rest)
  | four {b f g h : UInt8} (hn : 0x10000 ≤ n) (hb : b.toNat = 0xF0 + n / 262144)
      (hf : f.toNat = 0x80 + n / 4096 % 64) (hg : g.toNat = 0x80 + n / 64 % 64)
      (hh : h.toNat = 0x80 + n % 64) : Spells n rest b (f :: g :: h :: rest)

theorem toNat_valid (c : Char) : c.toNat < 0xD800 ∨ 0xDFFF < c.toNat ∧ c.toNat < 0x110000 := by
  have h := c.valid
  simp only [UInt32.isValidChar, Nat.isValidChar] at h
  exact h

theorem toNat_ofNat_of_valid {n : Nat} (h : n.isValidChar) : (Char.ofNat n).toNat = n := by
  rw [Char.ofNat, dif_pos h]
  rfl

theorem spells_iff_eq_encodeChar_append :
    Spells c.toNat rest b bytes ↔ b :: bytes = encodeChar c ++ rest := by
  have hv := toNat_valid c
  constructor
  · intro h
    dsimp only [encodeChar]
    cases h with
    | one hn hb => rw [if_pos hn, ← hb, UInt8.ofNat_toNat]; rfl
    | two hn hb hf =>
      rw [if_neg (by omega), if_pos hn.2, ← hb, ← hf]
      simp only [UInt8.ofNat_toNat, List.cons_append, List.nil_append]
    | three hn hb hf hg =>
      rw [if_neg (by omega), if_neg (by omega), if_pos hn.2, ← hb, ← hf, ← hg]
      simp only [UInt8.ofNat_toNat, List.cons_append, List.nil_append]
    | four hn hb hf hg hh =>
      rw [if_neg (by omega), if_neg (by omega), if_neg (by omega), ← hb, ← hf, ← hg, ← hh]
      simp only [UInt8.ofNat_toNat, List.cons_append, List.nil_append]
  · intro h
    have hf (k : Nat) : (UInt8.ofNat (0x80 + k % 64)).toNat = 0x80 + k % 64 :=
      UInt8.toNat_ofNat_of_lt' (by simp only [UInt8.size]; omega)
    have hb {k : Nat} (hk : k < 256) : (UInt8.ofNat k).toNat = k := UInt8.toNat_ofNat_of_lt' hk
    dsimp only [encodeChar] at h
    -- one case for each number of bytes
    split_ifs at h with h1 h2 h3 <;> obtain ⟨rfl, rfl⟩ := List.cons.inj h
    · exact .one h1 (hb (by omega))
    · exact .two ⟨by omega, h2⟩ (hb (by omega)) (hf _)
    · exact .three ⟨by omega, h3⟩ (hb (by omega)) (hf _) (hf _)
    · exact .four (by omega) (hb (by omega)) (hf _) (hf _) (hf _)

/-! ### Reading one character -/

theorem lead?_eq_some_iff {b k bits : Nat} :
    lead? b = some (k, bits) ↔
      (b < 0x80 ∧ k = 0 ∧ b = bits) ∨
      ((0xC2 ≤ b ∧ b ≤ 0xDF) ∧ k = 1 ∧ b = 0xC0 + bits) ∨
      ((0xE0 ≤ b ∧ b ≤ 0xEF) ∧ k = 2 ∧ b = 0xE0 + bits) ∨
      ((0xF0 ≤ b ∧ b ≤ 0xF4) ∧ k = 3 ∧ b = 0xF0 + bits) := by
  unfold lead?
  split_ifs <;> simp only [Option.some.injEq, Prod.mk.injEq, false_iff] <;> omega

theorem within_followerBounds_iff {b f : Nat} :
    ((followerBounds b).1 ≤ f ∧ f ≤ (followerBounds b).2) ↔
      (0x80 ≤ f ∧ f ≤ 0xBF) ∧ (b = 0xE0 → 0xA0 ≤ f) ∧ (b = 0xED → f ≤ 0x9F) ∧
        (b = 0xF0 → 0x90 ≤ f) ∧ (b = 0xF4 → f ≤ 0x8F) := by
  unfold followerBounds
  split_ifs <;> dsimp only <;> omega

theorem readFollowers_zero_eq_ok_iff {bounds : Nat × Nat} {done bits n : Nat} :
    readFollowers bounds done bits 0 bytes = .ok (n, rest) ↔ n = bits ∧ bytes = rest := by
  rw [readFollowers, Except.ok.injEq, Prod.mk.injEq, eq_comm (a := bits)]

theorem readFollowers_succ_eq_ok_iff {bounds : Nat × Nat} {done bits k n : Nat} :
    readFollowers bounds done bits (k + 1) bytes = .ok (n, rest) ↔
      ∃ f tail, bytes = f :: tail ∧ (bounds.1 ≤ f.toNat ∧ f.toNat ≤ bounds.2) ∧
        readFollowers (0x80, 0xBF) (done + 1) (bits * 64 + (f.toNat - 0x80)) k tail =
          .ok (n, rest) := by
  cases bytes with
  | nil => simp [readFollowers]
  | cons f tail =>
    rw [readFollowers]
    constructor
    · intro h
      split at h
      · exact ⟨f, tail, rfl, ‹_›, h⟩
      · cases h
    · rintro ⟨f', tail', heq, hf, h⟩
      cases heq
      rwa [if_pos hf]

theorem readChar_eq_ok_iff_followers :
    readChar b bytes = .ok (c, rest) ↔ ∃ k bits n, lead? b.toNat = some (k, bits) ∧
      readFollowers (followerBounds b.toNat) 1 bits k bytes = .ok (n, rest) ∧ Char.ofNat n = c := by
  unfold readChar
  match lead? b.toNat with
  | none => simp
  | some (k, bits) =>
    simp only [Except.bind_eq_ok_iff, pure, Except.pure]
    constructor
    · rintro ⟨⟨n, rest'⟩, hr, h⟩
      cases h
      exact ⟨k, bits, n, rfl, hr, rfl⟩
    · rintro ⟨_, _, n, heq, hr, rfl⟩
      cases heq
      exact ⟨(n, rest), hr, rfl⟩

/-- What is read is a scalar and no surrogate, in its shortest form. -/
theorem Spells.of_readChar (h : readChar b bytes = .ok (c, rest)) :
    Spells c.toNat rest b bytes := by
  obtain ⟨k, bits, n, hl, hr, rfl⟩ := readChar_eq_ok_iff_followers.mp h
  -- the lead tells how many followers there are, and their bounds keep `n` a scalar
  obtain ⟨hb, rfl, hbits⟩ | ⟨hb, rfl, hbits⟩ | ⟨hb, rfl, hbits⟩ | ⟨hb, rfl, hbits⟩ :=
    lead?_eq_some_iff.mp hl <;>
  simp only [readFollowers_succ_eq_ok_iff, readFollowers_zero_eq_ok_iff,
    within_followerBounds_iff] at hr
  · obtain ⟨hn, rfl⟩ := hr
    rw [toNat_ofNat_of_valid (.inl (by omega))]
    exact .one (by omega) (by omega)
  · obtain ⟨f, _, rfl, hf, hn, rfl⟩ := hr
    rw [toNat_ofNat_of_valid (.inl (by omega))]
    exact .two (by omega) (by omega) (by omega)
  · obtain ⟨f, _, rfl, hf, g, _, rfl, hg, hn, rfl⟩ := hr
    rw [toNat_ofNat_of_valid (by rw [Nat.isValidChar]; omega)]
    exact .three (by omega) (by omega) (by omega) (by omega)
  · obtain ⟨f, _, rfl, hf, g, _, rfl, hg, h, _, rfl, hh, hn, rfl⟩ := hr
    rw [toNat_ofNat_of_valid (by rw [Nat.isValidChar]; omega)]
    exact .four (by omega) (by omega) (by omega) (by omega) (by omega)

theorem Spells.readChar_eq (h : Spells c.toNat rest b bytes) : readChar b bytes = .ok (c, rest) := by
  have hv := toNat_valid c
  rw [readChar_eq_ok_iff_followers]
  simp only [lead?_eq_some_iff]
  cases h with
  | one hn hb =>
    refine ⟨0, c.toNat, c.toNat, by omega, ?_, c.ofNat_toNat⟩
    rw [readFollowers_zero_eq_ok_iff]
    exact ⟨rfl, rfl⟩
  | two hn hb hf =>
    refine ⟨1, c.toNat / 64, c.toNat, by omega, ?_, c.ofNat_toNat⟩
    simp only [readFollowers_succ_eq_ok_iff, readFollowers_zero_eq_ok_iff,
      within_followerBounds_iff]
    exact ⟨_, _, rfl, by omega, by omega, rfl⟩
  | three hn hb hf hg =>
    refine ⟨2, c.toNat / 4096, c.toNat, by omega, ?_, c.ofNat_toNat⟩
    simp only [readFollowers_succ_eq_ok_iff, readFollowers_zero_eq_ok_iff,
      within_followerBounds_iff]
    exact ⟨_, _, rfl, by omega, _, _, rfl, by omega, by omega, rfl⟩
  | four hn hb hf hg hh =>
    refine ⟨3, c.toNat / 262144, c.toNat, by omega, ?_, c.ofNat_toNat⟩
    simp only [readFollowers_succ_eq_ok_iff, readFollowers_zero_eq_ok_iff,
      within_followerBounds_iff]
    exact ⟨_, _, rfl, by omega, _, _, rfl, by omega, _, _, rfl, by omega, by omega, rfl⟩

theorem readChar_eq_ok_iff :
    readChar b bytes = .ok (c, rest) ↔ b :: bytes = encodeChar c ++ rest := by
  rw [← spells_iff_eq_encodeChar_append]
  exact ⟨Spells.of_readChar, Spells.readChar_eq⟩

/-! ### Reading a text -/

@[simp] theorem encode_cons (c : Char) (chars : List Char) :
    encode (c :: chars) = encodeChar c ++ encode chars := List.flatMap_cons

theorem encodeChar_ne_nil (c : Char) : encodeChar c ≠ [] := by
  dsimp only [encodeChar]
  split_ifs <;> exact List.cons_ne_nil _ _

/-- A text that is not empty is its first character with another text behind it. -/
theorem cons_eq_encode_iff {chars : List Char} :
    b :: bytes = encode chars ↔
      ∃ c cs, chars = c :: cs ∧ readChar b bytes = .ok (c, encode cs) := by
  simp only [readChar_eq_ok_iff]
  constructor
  · intro h
    cases chars with
    | nil => cases h
    | cons c cs => exact ⟨c, cs, rfl, h⟩
  · rintro ⟨c, cs, rfl, h⟩
    rw [h, encode_cons]

theorem decodeFrom_eq_ok_iff {index : Nat} {chars : List Char} :
    decodeFrom index bytes = .ok chars ↔ bytes = encode chars := by
  -- the end, a fault, or one character more
  fun_induction decodeFrom index bytes generalizing chars with
  | case1 index =>
    cases chars with
    | nil => exact iff_of_true rfl rfl
    | cons c cs => simp [encodeChar_ne_nil]
  | case2 index b bytes fault h =>
    rw [cons_eq_encode_iff, h]
    simp
  | case3 index b bytes c rest h ih =>
    rw [cons_eq_encode_iff, h, Except.map_eq_ok_iff]
    simp only [ih, Except.ok.injEq, Prod.mk.injEq]
    constructor
    · rintro ⟨cs, hr, rfl⟩
      exact ⟨c, cs, rfl, rfl, hr⟩
    · rintro ⟨_, cs, rfl, rfl, hr⟩
      exact ⟨cs, hr, rfl⟩

theorem decode_eq_ok_iff {chars : List Char} : decode bytes = .ok chars ↔ bytes = encode chars :=
  decodeFrom_eq_ok_iff

/-! ### The bytes of the standard library -/

theorem encodeChar_eq_utf8EncodeChar (c : Char) : encodeChar c = String.utf8EncodeChar c := by
  have hv := toNat_valid c
  dsimp only [encodeChar, String.utf8EncodeChar, Char.toNat] at hv ⊢
  simp only [Nat.add_comm 0xC0, Nat.add_comm 0xE0, Nat.add_comm 0xF0, Nat.add_comm 0x80]
  split_ifs <;> first | omega | skip
  · rfl
  -- the remainders that the library takes of a lead change nothing
  · rw [Nat.mod_eq_of_lt (a := c.val.toNat / 64) (by omega)]
  · rw [Nat.mod_eq_of_lt (a := c.val.toNat / 4096) (by omega)]
  · rw [Nat.mod_eq_of_lt (a := c.val.toNat / 262144) (by omega)]

theorem toByteArray_encode (chars : List Char) :
    (encode chars).toByteArray = (String.ofList chars).toByteArray := by
  rw [String.toByteArray_ofList, List.utf8Encode, encode, funext encodeChar_eq_utf8EncodeChar]

theorem length_encode (s : String) : (encode s.toList).length = s.utf8ByteSize := by
  rw [← String.size_toByteArray, ← s.ofList_toList, ← toByteArray_encode]
  simp

end MetricStore.Text.Utf8
