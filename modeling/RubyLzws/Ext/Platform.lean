import Mathlib.Tactic.Ring
import Mathlib.Data.List.Infix

/-!
# Machine words and Ruby strings

The word size is a parameter: `size_t` and `long` have `longBits` bits.  A Ruby
string is a byte list whose length fits a `long`, so that no longer string can
be built; `rb_str_resize` is total on the lengths that do fit.
-/

namespace RubyLzws.Ext

abbrev Byte := UInt8

/-- What the build of the extension fixes. -/
structure Platform where
  /-- Bits of `long` and `size_t`. -/
  longBits : Nat
  longBits_ge : 32 ≤ longBits
  /-- Bits of `uint_fast8_t`, the type `lzws_byte_fast_t` stands for. -/
  byteFastBits : Nat
  byteFastBits_ge : 8 ≤ byteFastBits
  /-- `HAVE_RB_THREAD_CALL_WITHOUT_GVL` -/
  haveThreadCallWithoutGvl : Bool

namespace Platform

/-- `x86_64` under Linux, one of the test images. -/
def linux64 : Platform := ⟨64, by decide, 8, by decide, true⟩

variable (p : Platform)

/-- The number of values of `size_t`. -/
def sizeModulus : Nat := 2 ^ p.longBits

/-- `LONG_MAX`, the largest length of a Ruby string. -/
def maxStringLength : Nat := 2 ^ (p.longBits - 1) - 1

/-- Fixnums are the integers below this bound and not below its opposite. -/
def fixnumBound : Nat := 2 ^ (p.longBits - 2)

/-- Addition of `size_t`. -/
def sizeAdd (left right : Nat) : Nat := (left + right) % p.sizeModulus

/-- Subtraction of `size_t`. -/
def sizeSub (left right : Nat) : Nat :=
  (left + (p.sizeModulus - right % p.sizeModulus)) % p.sizeModulus

theorem sizeModulus_eq : p.sizeModulus = 2 * (p.maxStringLength + 1) := by
  have bits := p.longBits_ge
  have positive : 0 < 2 ^ (p.longBits - 1) := Nat.two_pow_pos _
  have split : p.longBits = p.longBits - 1 + 1 := by omega
  rw [sizeModulus, maxStringLength, split, Nat.pow_succ, Nat.add_sub_cancel]
  omega

theorem maxStringLength_succ_eq : p.maxStringLength + 1 = 2 * p.fixnumBound := by
  have bits := p.longBits_ge
  have positive : 0 < 2 ^ (p.longBits - 1) := Nat.two_pow_pos _
  have split : p.longBits - 1 = p.longBits - 2 + 1 := by omega
  have twice : 2 ^ (p.longBits - 1) = 2 * 2 ^ (p.longBits - 2) := by
    rw [split, Nat.pow_succ, Nat.mul_comm]
  rw [maxStringLength, fixnumBound]
  omega

theorem sizeAdd_eq {left right : Nat} (fits : left + right < p.sizeModulus) :
    p.sizeAdd left right = left + right := Nat.mod_eq_of_lt fits

theorem sizeSub_eq {left right : Nat} (ordered : right ≤ left) (fits : left < p.sizeModulus) :
    p.sizeSub left right = left - right := by
  have small : right % p.sizeModulus = right := Nat.mod_eq_of_lt (Nat.lt_of_le_of_lt ordered fits)
  have shifted : left + (p.sizeModulus - right) = left - right + p.sizeModulus := by omega
  rw [sizeSub, small, shifted, Nat.add_mod_right]
  exact Nat.mod_eq_of_lt (by omega)

end Platform

/-! ## Ruby strings -/

/-- The bytes of a Ruby string; its length is a `long`. -/
structure RString (p : Platform) where
  bytes : List Byte
  length_le : bytes.length ≤ p.maxStringLength

namespace RString

variable {p : Platform}

@[ext]
theorem ext {left right : RString p} (same : left.bytes = right.bytes) : left = right := by
  cases left
  cases right
  cases same
  rfl

/-- `RSTRING_LEN` -/
def length (string : RString p) : Nat := string.bytes.length

theorem length_lt_sizeModulus (string : RString p) : string.length < p.sizeModulus := by
  have bound := string.length_le
  have size := p.sizeModulus_eq
  rw [length]
  omega

/-- The string without bytes. -/
def empty : RString p := ⟨[], Nat.zero_le _⟩

/-- A short literal string. -/
def ofBytes (bytes : List Byte) (short : bytes.length < 2 ^ 31 := by decide) : RString p where
  bytes := bytes
  length_le := by
    have bits := p.longBits_ge
    have wide : 2 ^ 31 ≤ 2 ^ (p.longBits - 1) := Nat.pow_le_pow_right (by decide) (by omega)
    rw [Platform.maxStringLength]
    omega

/-- The first `length` bytes, followed by bytes nobody wrote where there are not that many. -/
def resize (string : RString p) (length : Nat) (garbage : Nat → Byte)
    (fits : length ≤ p.maxStringLength) : RString p where
  bytes := string.bytes.take length ++
    (List.range (length - string.length)).map fun index => garbage (string.length + index)
  length_le := by
    simp only [List.length_append, List.length_take, List.length_map, List.length_range,
      RString.length]
    omega

@[simp]
theorem resize_length (string : RString p) (length : Nat) (garbage : Nat → Byte)
    (fits : length ≤ p.maxStringLength) : (string.resize length garbage fits).length = length := by
  simp only [RString.length, resize, List.length_append, List.length_take, List.length_map,
    List.length_range]
  omega

/-- Resizing keeps every byte below both lengths. -/
theorem resize_take (string : RString p) (length : Nat) (garbage : Nat → Byte)
    (fits : length ≤ p.maxStringLength) {kept : Nat} (below : kept ≤ length)
    (inside : kept ≤ string.length) :
    (string.resize length garbage fits).bytes.take kept = string.bytes.take kept := by
  have room : kept ≤ (string.bytes.take length).length := by
    rw [List.length_take]
    exact Nat.le_min.mpr ⟨below, inside⟩
  rw [resize, List.take_append_of_le_length room, List.take_take, Nat.min_eq_left below]

theorem resize_bytes_of_le (string : RString p) (length : Nat) (garbage : Nat → Byte)
    (fits : length ≤ p.maxStringLength) (shorter : length ≤ string.length) :
    (string.resize length garbage fits).bytes = string.bytes.take length := by
  simp only [resize, Nat.sub_eq_zero_of_le shorter, List.range_zero, List.map_nil,
    List.append_nil]

/--
Writing through a pointer to the byte at `offset`.  Bytes written beyond the end
do not belong to the string, so its length stays as it is.
-/
def write (string : RString p) (offset : Nat) (written : List Byte) : RString p where
  bytes := (string.bytes.take offset ++ written ++
    string.bytes.drop (offset + written.length)).take string.length
  length_le := by
    rw [List.length_take]
    exact Nat.le_trans (Nat.min_le_left _ _) string.length_le

/-- A write inside the string puts its bytes right behind those below the offset. -/
theorem write_take (string : RString p) {offset : Nat} {written : List Byte}
    (inside : offset + written.length ≤ string.length) :
    (string.write offset written).bytes.take (offset + written.length) =
      string.bytes.take offset ++ written := by
  have front : (string.bytes.take offset ++ written).length = offset + written.length := by
    rw [List.length_append, List.length_take]
    rw [length] at inside
    omega
  rw [write, List.take_take, Nat.min_eq_left inside, ← front, List.take_left]

/-- A write inside the string leaves every byte below the offset. -/
theorem write_take_below (string : RString p) {offset : Nat} {written : List Byte}
    (inside : offset + written.length ≤ string.length) :
    (string.write offset written).bytes.take offset = string.bytes.take offset := by
  have front : (string.bytes.take offset).length = offset := by
    rw [List.length_take]
    rw [length] at inside
    omega
  have whole := congrArg (List.take offset) (string.write_take inside)
  rw [List.take_take, Nat.min_eq_left (Nat.le_add_right _ _)] at whole
  rw [whole]
  exact List.take_left' front

@[simp]
theorem write_length (string : RString p) (offset : Nat) (written : List Byte)
    (inside : offset + written.length ≤ string.length) :
    (string.write offset written).length = string.length := by
  simp only [length, write, List.length_take, List.length_append, List.length_drop] at inside ⊢
  omega

/-- A copy of the first `length` bytes. -/
def front (string : RString p) (length : Nat) : RString p where
  bytes := string.bytes.take length
  length_le := by
    rw [List.length_take]
    exact Nat.le_trans (Nat.min_le_right _ _) string.length_le

end RString

end RubyLzws.Ext
