/-!
UTF-8: the bytes of a text, and the text of bytes with the place of the first fault.

A character takes one to four bytes: a lead byte that tells how many follow, and followers of six
bits each.  `encode` writes them, `decode` reads them back.  A fault is laid at the first byte of
the character that cannot be completed: either the bytes so far rule every character out
(`Fault.invalid`, with the number of bytes that could still have begun one), or they end too soon
(`Fault.incomplete`).

Design notes: bytes are taken apart by division and remainder.  Which first followers a lead
admits is `followerBounds`; this alone keeps out longer forms of short characters, surrogates and
whatever lies beyond the last character.
-/

namespace MetricStore.Text.Utf8

/-! ### Writing -/

/-- The bytes of one character, lead byte first. -/
def encodeChar (c : Char) : List UInt8 :=
  let n := c.toNat
  let follower (k : Nat) : UInt8 := UInt8.ofNat (0x80 + k % 64)
  if n < 0x80 then [UInt8.ofNat n]
  else if n < 0x800 then [UInt8.ofNat (0xC0 + n / 64), follower n]
  else if n < 0x10000 then [UInt8.ofNat (0xE0 + n / 4096), follower (n / 64), follower n]
  else [UInt8.ofNat (0xF0 + n / 262144), follower (n / 4096), follower (n / 64), follower n]

/-- The bytes of a text. -/
def encode (text : List Char) : List UInt8 := text.flatMap encodeChar

/-! ### Reading one character -/

/-- Why bytes begin no character. -/
inductive CharFault where
  /-- The first `length` bytes begin some character, and no byte more. -/
  | invalid (length : Nat)
  /-- The bytes begin a character and end before it does. -/
  | incomplete
deriving DecidableEq

/-- How many followers a lead byte announces, with the bits it holds itself; `none` if the byte
leads no character. -/
def lead? (b : Nat) : Option (Nat × Nat) :=
  if b < 0x80 then some (0, b)
  else if 0xC2 ≤ b ∧ b ≤ 0xDF then some (1, b - 0xC0)
  else if 0xE0 ≤ b ∧ b ≤ 0xEF then some (2, b - 0xE0)
  else if 0xF0 ≤ b ∧ b ≤ 0xF4 then some (3, b - 0xF0)
  else none

/-- The least and the greatest first follower of a lead byte. -/
def followerBounds (b : Nat) : Nat × Nat :=
  if b = 0xE0 then (0xA0, 0xBF)
  else if b = 0xED then (0x80, 0x9F)
  else if b = 0xF0 then (0x90, 0xBF)
  else if b = 0xF4 then (0x80, 0x8F)
  else (0x80, 0xBF)

/-- Reads followers, the first of them within bounds, and adds their bits to `bits`; `done` bytes
of the character have been read before. -/
def readFollowers (bounds : Nat × Nat) (done : Nat) (bits : Nat) :
    Nat → List UInt8 → Except CharFault (Nat × List UInt8)
  | 0, bytes => .ok (bits, bytes)
  | _ + 1, [] => .error .incomplete
  | k + 1, b :: bytes =>
    if bounds.1 ≤ b.toNat ∧ b.toNat ≤ bounds.2 then
      readFollowers (0x80, 0xBF) (done + 1) (bits * 64 + (b.toNat - 0x80)) k bytes
    else .error (.invalid done)

/-- Reads the character that `b` leads; the rest of the bytes comes back with it. -/
def readChar (b : UInt8) (bytes : List UInt8) : Except CharFault (Char × List UInt8) :=
  match lead? b.toNat with
  | none => .error (.invalid 1)
  | some (followers, bits) => do
    let (scalar, bytes) ← readFollowers (followerBounds b.toNat) 1 bits followers bytes
    return (Char.ofNat scalar, bytes)

theorem length_readFollowers {bounds : Nat × Nat} {done bits k scalar : Nat}
    {bytes rest : List UInt8} (h : readFollowers bounds done bits k bytes = .ok (scalar, rest)) :
    rest.length ≤ bytes.length := by
  fun_induction readFollowers bounds done bits k bytes with
  | case1 => cases h; exact Nat.le_refl _
  | case2 => cases h
  | case3 _ _ _ _ _ _ _ ih => exact Nat.le_succ_of_le (ih h)
  | case4 => cases h

/-- Reading a character uses up its lead byte, and nothing comes back. -/
theorem length_readChar {b : UInt8} {bytes rest : List UInt8} {c : Char}
    (h : readChar b bytes = .ok (c, rest)) : rest.length ≤ bytes.length := by
  unfold readChar at h
  split at h
  · cases h
  · rename_i followers bits _
    match hr : readFollowers (followerBounds b.toNat) 1 bits followers bytes with
    | .error f => rw [hr] at h; cases h
    | .ok (scalar, rest') =>
      rw [hr] at h
      cases h
      exact length_readFollowers hr

/-! ### Reading a text -/

/-- Why bytes are no text: the fault and the position of the character it lies in. -/
inductive Fault where
  | invalid (length index : Nat)
  | incomplete (index : Nat)
deriving DecidableEq

/-- The wording of a fault. -/
def Fault.message : Fault → String
  | invalid length index => s!"invalid utf-8 sequence of {length} bytes from index {index}"
  | incomplete index => s!"incomplete utf-8 byte sequence from index {index}"

/-- The fault of a character, at its position. -/
def CharFault.at (index : Nat) : CharFault → Fault
  | .invalid length => .invalid length index
  | .incomplete => .incomplete index

/-- Reads characters up to the end; the first byte stands at position `index` of the whole. -/
def decodeFrom (index : Nat) (bytes : List UInt8) : Except Fault (List Char) :=
  match bytes with
  | [] => .ok []
  | b :: bytes =>
    match _h : readChar b bytes with
    | .error fault => .error (fault.at index)
    | .ok (c, rest) => (decodeFrom (index + (encodeChar c).length) rest).map (c :: ·)
termination_by bytes.length
decreasing_by
  have := length_readChar _h
  simp only [List.length_cons]
  omega

/-- The text of bytes. -/
def decode (bytes : List UInt8) : Except Fault (List Char) := decodeFrom 0 bytes

end MetricStore.Text.Utf8
