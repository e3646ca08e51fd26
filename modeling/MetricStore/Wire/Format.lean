import MetricStore.Int128
import MetricStore.Text.Utf8

/-!
Binary formats: how values are written as bytes and read back.

A `Wire.Format` writes a value of its type as bytes and reads one from the front of some bytes,
giving back the rest.  Formats are built from little-endian integers of fixed width by pairs,
options, lists and texts; a record is a chain of pairs under a change of type (`Format.map`).

Design notes: lengths take eight bytes, so `Fits` says which values a format can hold.  A list is
read one element after the other and no room is made in advance, so a length without elements
behind it is a fault at the first element that is not there.
-/

namespace MetricStore.Wire

/-- Why bytes do not decode. -/
inductive Fault where
  /-- An integer, a length or a tag is longer than the rest of the bytes. -/
  | ended
  /-- The content of a text is longer than the rest of the bytes. -/
  | textEnded
  /-- The content of a text is no text. -/
  | notText (fault : Text.Utf8.Fault)
  /-- The tag of an option is neither 0 nor 1. -/
  | badTag (tag : Nat)
deriving DecidableEq

/-- The wording of a fault. -/
def Fault.message : Fault → String
  | ended => "io error: unexpected end of file"
  | textEnded => "io error: "
  | notText fault => "string is not valid utf8: " ++ fault.message
  | badTag tag => s!"tag for enum is not valid, found {tag}"

/-- Reads from the front of some bytes and leaves the rest of them. -/
abbrev Reader (α : Type) := StateT (List UInt8) (Except Fault) α

/-- A way to write the values of a type as bytes and to read them back. -/
structure Format (α : Type) where
  write : α → List UInt8
  read : Reader α
  /-- The values that are written without loss. -/
  Fits : α → Prop

namespace Format

/-- Reads one value; bytes behind it do not matter. -/
def decode {α : Type} (f : Format α) (bytes : List UInt8) : Except Fault α :=
  (f.read.run bytes).map Prod.fst

/-! ### Integers -/

/-- The `width` lowest bytes of a number, the lowest first. -/
def littleEndian : (width : Nat) → Nat → List UInt8
  | 0, _ => []
  | width + 1, n => UInt8.ofNat (n % 256) :: littleEndian width (n / 256)

/-- How many numbers there are in so many bytes. -/
def codes : (width : Nat) → Nat
  | 0 => 1
  | width + 1 => 256 * codes width

/-- The number written by bytes, the lowest first. -/
def ofLittleEndian : List UInt8 → Nat
  | [] => 0
  | b :: bytes => b.toNat + 256 * ofLittleEndian bytes

theorem length_littleEndian (width n : Nat) : (littleEndian width n).length = width := by
  induction width generalizing n with
  | zero => rfl
  | succ width ih => rw [littleEndian, List.length_cons, ih]

theorem ofLittleEndian_littleEndian (width n : Nat) :
    ofLittleEndian (littleEndian width n) = n % codes width := by
  induction width generalizing n with
  | zero => rw [littleEndian, ofLittleEndian, codes, Nat.mod_one]
  | succ width ih =>
    have h : (UInt8.ofNat (n % 256)).toNat = n % 256 :=
      UInt8.toNat_ofNat_of_lt (Nat.mod_lt n (by decide))
    rw [littleEndian, ofLittleEndian, ih, h, codes, Nat.mod_mul]

/-- A natural number in a fixed number of bytes. -/
def unsigned (width : Nat) : Format Nat where
  write n := littleEndian width n
  read := fun bytes =>
    let field := bytes.take width
    if field.length = width then .ok (ofLittleEndian field, bytes.drop width) else .error .ended
  Fits n := n < codes width

/-- An integer in a fixed number of bytes, in two's complement. -/
def signed (width : Nat) : Format Int where
  write n := littleEndian width (n % codes width).toNat
  read := do
    let n ← (unsigned width).read
    return if 2 * n < codes width then (n : Int) else (n : Int) - codes width
  Fits n := -(codes width : Int) ≤ 2 * n ∧ 2 * n < codes width

/-! ### Combinations -/

/-- The format of one type as that of another. -/
def map {α β : Type} (f : Format α) (make : α → β) (parts : β → α) : Format β where
  write y := f.write (parts y)
  read := do
    let x ← f.read
    return make x
  Fits y := f.Fits (parts y)

/-- One value behind another. -/
def pair {α β : Type} (f : Format α) (g : Format β) : Format (α × β) where
  write p := f.write p.1 ++ g.write p.2
  read := do
    let x ← f.read
    let y ← g.read
    return (x, y)
  Fits p := f.Fits p.1 ∧ g.Fits p.2

/-- Reads a number of values one after the other. -/
def readMany {α : Type} (f : Format α) : Nat → Reader (List α)
  | 0 => return []
  | n + 1 => do
    let x ← f.read
    let xs ← readMany f n
    return x :: xs

/-- Eight bytes for the length, then the elements. -/
def list {α : Type} (f : Format α) : Format (List α) where
  write xs := (unsigned 8).write xs.length ++ xs.flatMap f.write
  read := do
    let n ← (unsigned 8).read
    readMany f n
  Fits xs := (unsigned 8).Fits xs.length ∧ ∀ x ∈ xs, f.Fits x

/-- One byte for whether there is a value, 0 or 1, then the value. -/
def option {α : Type} (f : Format α) : Format (Option α) where
  write
    | none => [0]
    | some x => 1 :: f.write x
  read := do
    let tag ← (unsigned 1).read
    match tag with
    | 0 => return none
    | 1 =>
      let x ← f.read
      return some x
    | tag => throw (.badTag tag)
  Fits x := ∀ y ∈ x, f.Fits y

/-- Reads the bytes of a text. -/
def readContent (length : Nat) : Reader (List UInt8) := fun bytes =>
  let content := bytes.take length
  if content.length = length then .ok (content, bytes.drop length) else .error .textEnded

/-- Eight bytes for the number of bytes of a text, then these bytes. -/
def text : Format String where
  write s :=
    let content := Text.Utf8.encode s.toList
    (unsigned 8).write content.length ++ content
  read := do
    let n ← (unsigned 8).read
    let content ← readContent n
    match Text.Utf8.decode content with
    | .error fault => throw (.notText fault)
    | .ok chars => return String.ofList chars
  Fits s := (unsigned 8).Fits (Text.Utf8.encode s.toList).length

/-- A natural number below 2⁶⁴. -/
def nat64 : Format Nat := unsigned 8

/-- An integer of 64 bits. -/
def int64 : Format Int64 := (signed 8).map Int64.ofInt Int64.toInt

/-- An integer of 128 bits. -/
def int128 : Format Int128 := (signed 16).map Int128.clamp Int128.toInt

end Format

end MetricStore.Wire
