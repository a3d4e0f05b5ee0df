import Mathlib

/-!
# Byte strings

The crate works on `&[u8]` and `Vec<u8>` throughout; both are `List UInt8` here. This file holds
what the rest of the development needs of them: big-endian integers in both directions, the
checked slice `data.get(a..b)`, and the two number formats its error texts use.

Nothing in this file is about the card.
-/

namespace MynaCard

/-- A byte string: a slice, an owned vector or a fixed array of the source. -/
abbrev Bytes := List UInt8

/-! ### Big-endian integers -/

/-- `fold(0, |acc, &b| (acc << 8) | b)`. -/
def bigEndian (bs : Bytes) : ℕ := bs.foldl (fun acc b => (acc <<< 8) ||| b.toNat) 0

/-- Appending one byte to a big-endian number. -/
theorem shift_or_byte (acc : ℕ) (b : UInt8) : (acc <<< 8) ||| b.toNat = acc * 256 + b.toNat := by
  have h := Nat.shiftLeft_add_eq_or_of_lt (i := 8) (b := b.toNat) (by have := b.toNat_lt; omega) acc
  rw [← h, Nat.shiftLeft_eq]

@[simp] theorem bigEndian_nil : bigEndian [] = 0 := rfl

@[simp] theorem bigEndian_snoc (bs : Bytes) (b : UInt8) :
    bigEndian (bs ++ [b]) = bigEndian bs * 256 + b.toNat := by
  simp only [bigEndian, List.foldl_append, List.foldl_cons, List.foldl_nil, shift_or_byte]

theorem bigEndian_append (xs ys : Bytes) :
    bigEndian (xs ++ ys) = bigEndian xs * 256 ^ ys.length + bigEndian ys := by
  induction ys using List.reverseRecOn with
  | nil => simp
  | append_singleton ys y ih =>
    rw [← List.append_assoc, bigEndian_snoc, ih, bigEndian_snoc, List.length_append,
      List.length_singleton]
    ring

@[simp] theorem bigEndian_singleton (b : UInt8) : bigEndian [b] = b.toNat := by
  simpa using bigEndian_snoc [] b

theorem bigEndian_cons (b : UInt8) (bs : Bytes) :
    bigEndian (b :: bs) = b.toNat * 256 ^ bs.length + bigEndian bs := by
  simpa using bigEndian_append [b] bs

theorem bigEndian_lt (bs : Bytes) : bigEndian bs < 256 ^ bs.length := by
  induction bs using List.reverseRecOn with
  | nil => simp
  | append_singleton bs b ih =>
    have hb := b.toNat_lt
    rw [bigEndian_snoc, List.length_append, List.length_singleton, pow_succ]
    omega

/-- Two byte strings of one length denoting one number are equal. -/
theorem bigEndian_inj {xs ys : Bytes} (hlen : xs.length = ys.length)
    (h : bigEndian xs = bigEndian ys) : xs = ys := by
  induction xs using List.reverseRecOn generalizing ys with
  | nil => exact (List.length_eq_zero_iff.mp hlen.symm).symm
  | append_singleton xs x ih =>
    cases ys using List.reverseRecOn with
    | nil => simp at hlen
    | append_singleton ys y =>
      simp only [bigEndian_snoc] at h
      have hx := x.toNat_lt
      have hy := y.toNat_lt
      have hbyte : x = y := UInt8.toNat_inj.mp (by omega)
      rw [ih (by simpa using hlen) (by omega), hbyte]

/-- `u16::to_be_bytes`. -/
def u16Bytes (n : UInt16) : Bytes := [(n >>> 8).toUInt8, n.toUInt8]

/-- `u16::from_be_bytes`. -/
def u16OfBytes (hi lo : UInt8) : UInt16 := (hi.toUInt16 <<< 8) ||| lo.toUInt16

/-- `u32::to_be_bytes`. -/
def u32Bytes (n : UInt32) : Bytes :=
  [(n >>> 24).toUInt8, (n >>> 16).toUInt8, (n >>> 8).toUInt8, n.toUInt8]

@[simp] theorem u16Bytes_length (n : UInt16) : (u16Bytes n).length = 2 := rfl

theorem u16OfBytes_toNat (hi lo : UInt8) :
    (u16OfBytes hi lo).toNat = hi.toNat * 256 + lo.toNat := by
  have hhi := hi.toNat_lt
  have hmod : (hi.toNat <<< 8) % 65536 = hi.toNat <<< 8 := by
    rw [Nat.shiftLeft_eq]
    omega
  simp only [u16OfBytes, UInt16.toNat_or, UInt16.toNat_shiftLeft, UInt8.toNat_toUInt16]
  simp only [UInt16.reduceToNat, Nat.reduceMod, Nat.reducePow]
  rw [hmod]
  exact shift_or_byte _ _

theorem u16_hi_toNat (n : UInt16) : ((n >>> 8).toUInt8).toNat = n.toNat / 256 := by
  have := n.toNat_lt
  simp only [UInt16.toNat_toUInt8, UInt16.toNat_shiftRight, Nat.shiftRight_eq_div_pow,
    UInt16.reduceToNat, Nat.reduceMod, Nat.reducePow]
  omega

theorem u16_lo_toNat (n : UInt16) : (n.toUInt8).toNat = n.toNat % 256 := by
  simp

/-- Splitting a `u16` into its two bytes loses nothing. -/
theorem u16OfBytes_u16Bytes (n : UInt16) : u16OfBytes (n >>> 8).toUInt8 n.toUInt8 = n := by
  apply UInt16.toNat_inj.mp
  rw [u16OfBytes_toNat, u16_hi_toNat, u16_lo_toNat]
  omega

theorem u16Bytes_u16OfBytes (hi lo : UInt8) : u16Bytes (u16OfBytes hi lo) = [hi, lo] := by
  have hhi := hi.toNat_lt
  have hlo := lo.toNat_lt
  have h1 : (u16OfBytes hi lo >>> 8).toUInt8 = hi := by
    apply UInt8.toNat_inj.mp
    rw [u16_hi_toNat, u16OfBytes_toNat]
    omega
  have h2 : (u16OfBytes hi lo).toUInt8 = lo := by
    apply UInt8.toNat_inj.mp
    rw [u16_lo_toNat, u16OfBytes_toNat]
    omega
  rw [u16Bytes, h1, h2]

theorem bigEndian_u16Bytes (n : UInt16) : bigEndian (u16Bytes n) = n.toNat := by
  rw [u16Bytes, bigEndian_cons, bigEndian_singleton, u16_hi_toNat, u16_lo_toNat,
    List.length_singleton]
  omega

/-- The `width` low bytes of `n`, big-endian. -/
def beBytes : ℕ → ℕ → Bytes
  | 0, _ => []
  | width + 1, n => beBytes width (n / 256) ++ [UInt8.ofNat n]

@[simp] theorem beBytes_length (width n : ℕ) : (beBytes width n).length = width := by
  induction width generalizing n with
  | zero => rfl
  | succ width ih => rw [beBytes, List.length_append, ih, List.length_singleton]

theorem bigEndian_beBytes {width n : ℕ} (h : n < 256 ^ width) :
    bigEndian (beBytes width n) = n := by
  induction width generalizing n with
  | zero =>
    rw [pow_zero] at h
    rw [beBytes, bigEndian_nil]
    omega
  | succ width ih =>
    rw [pow_succ] at h
    rw [beBytes, bigEndian_snoc, ih (by omega), UInt8.toNat_ofNat']
    omega

/-! ### Checked slices -/

/-- `data.get(start..stop)`: absent when the range is reversed or leaves the slice. -/
def slice (data : Bytes) (start stop : ℕ) : Option Bytes :=
  if start ≤ stop ∧ stop ≤ data.length then some ((data.drop start).take (stop - start)) else none

theorem slice_eq_some {data v : Bytes} {start stop : ℕ} :
    slice data start stop = some v ↔
      ∃ pre post, data = pre ++ v ++ post ∧ pre.length = start ∧ start + v.length = stop := by
  unfold slice
  constructor
  · intro h
    split at h
    · rename_i hb
      cases h
      refine ⟨data.take start, data.drop stop, ?_, ?_, ?_⟩
      · have hdrop : data.drop stop = (data.drop start).drop (stop - start) := by
          rw [List.drop_drop, Nat.add_sub_cancel' hb.1]
        rw [hdrop, List.append_assoc, List.take_append_drop, List.take_append_drop]
      · rw [List.length_take]
        omega
      · rw [List.length_take, List.length_drop]
        omega
    · cases h
  · rintro ⟨pre, post, rfl, rfl, rfl⟩
    rw [if_pos (by simp only [List.length_append]; omega)]
    simp

/-- The slice between a prefix and a suffix. -/
theorem slice_append (pre v post : Bytes) :
    slice (pre ++ v ++ post) pre.length (pre.length + v.length) = some v :=
  slice_eq_some.mpr ⟨pre, post, rfl, rfl, rfl⟩

/-! ### Number formats of the error texts -/

/-- `format!("{:0width$X}", n)`. -/
def hexUpper (width n : ℕ) : String :=
  String.ofList (List.leftpad width '0' ((Nat.toDigits 16 n).map Char.toUpper))

/-- `format!("{:0width$}", n)`. -/
def decimal (width n : ℕ) : String := String.ofList (List.leftpad width '0' (Nat.toDigits 10 n))

/-- Bytes for a reader: two hexadecimal digits each, with spaces between. -/
def hex (bytes : Bytes) : String := " ".intercalate (bytes.map fun b => hexUpper 2 b.toNat)

/-- `u8::is_ascii_digit`. -/
def isAsciiDigit (b : UInt8) : Bool := 0x30 ≤ b && b ≤ 0x39

/-- The value of a run of ASCII digits, `text.parse().unwrap()`. -/
def digitsValue (bs : Bytes) : ℕ := bs.foldl (fun acc b => acc * 10 + (b.toNat - 0x30)) 0

end MynaCard
