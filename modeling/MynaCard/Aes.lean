import Mathlib

/-!
# AES-128

The block cipher, on states of four columns of four bytes, and its inverse. A round substitutes the
bytes, shifts the rows, mixes the columns and adds a round key. Each of the four can be undone, so a
round can, and by induction on the round keys so can the cipher (`decipher_encipher`), whatever the
round keys are.

Mixing a column four times gives the column back (`Column.mix_mix_mix_mix`), so undoing it is mixing
it three times more.
-/

namespace MynaCard.Aes

/-! ### Bytes -/

/-- The substitution table: a row for each high nibble, a column for each low one. -/
def sBox : List (List UInt8) := [
    [0x63, 0x7C, 0x77, 0x7B, 0xF2, 0x6B, 0x6F, 0xC5, 0x30, 0x01, 0x67, 0x2B, 0xFE, 0xD7, 0xAB, 0x76],
    [0xCA, 0x82, 0xC9, 0x7D, 0xFA, 0x59, 0x47, 0xF0, 0xAD, 0xD4, 0xA2, 0xAF, 0x9C, 0xA4, 0x72, 0xC0],
    [0xB7, 0xFD, 0x93, 0x26, 0x36, 0x3F, 0xF7, 0xCC, 0x34, 0xA5, 0xE5, 0xF1, 0x71, 0xD8, 0x31, 0x15],
    [0x04, 0xC7, 0x23, 0xC3, 0x18, 0x96, 0x05, 0x9A, 0x07, 0x12, 0x80, 0xE2, 0xEB, 0x27, 0xB2, 0x75],
    [0x09, 0x83, 0x2C, 0x1A, 0x1B, 0x6E, 0x5A, 0xA0, 0x52, 0x3B, 0xD6, 0xB3, 0x29, 0xE3, 0x2F, 0x84],
    [0x53, 0xD1, 0x00, 0xED, 0x20, 0xFC, 0xB1, 0x5B, 0x6A, 0xCB, 0xBE, 0x39, 0x4A, 0x4C, 0x58, 0xCF],
    [0xD0, 0xEF, 0xAA, 0xFB, 0x43, 0x4D, 0x33, 0x85, 0x45, 0xF9, 0x02, 0x7F, 0x50, 0x3C, 0x9F, 0xA8],
    [0x51, 0xA3, 0x40, 0x8F, 0x92, 0x9D, 0x38, 0xF5, 0xBC, 0xB6, 0xDA, 0x21, 0x10, 0xFF, 0xF3, 0xD2],
    [0xCD, 0x0C, 0x13, 0xEC, 0x5F, 0x97, 0x44, 0x17, 0xC4, 0xA7, 0x7E, 0x3D, 0x64, 0x5D, 0x19, 0x73],
    [0x60, 0x81, 0x4F, 0xDC, 0x22, 0x2A, 0x90, 0x88, 0x46, 0xEE, 0xB8, 0x14, 0xDE, 0x5E, 0x0B, 0xDB],
    [0xE0, 0x32, 0x3A, 0x0A, 0x49, 0x06, 0x24, 0x5C, 0xC2, 0xD3, 0xAC, 0x62, 0x91, 0x95, 0xE4, 0x79],
    [0xE7, 0xC8, 0x37, 0x6D, 0x8D, 0xD5, 0x4E, 0xA9, 0x6C, 0x56, 0xF4, 0xEA, 0x65, 0x7A, 0xAE, 0x08],
    [0xBA, 0x78, 0x25, 0x2E, 0x1C, 0xA6, 0xB4, 0xC6, 0xE8, 0xDD, 0x74, 0x1F, 0x4B, 0xBD, 0x8B, 0x8A],
    [0x70, 0x3E, 0xB5, 0x66, 0x48, 0x03, 0xF6, 0x0E, 0x61, 0x35, 0x57, 0xB9, 0x86, 0xC1, 0x1D, 0x9E],
    [0xE1, 0xF8, 0x98, 0x11, 0x69, 0xD9, 0x8E, 0x94, 0x9B, 0x1E, 0x87, 0xE9, 0xCE, 0x55, 0x28, 0xDF],
    [0x8C, 0xA1, 0x89, 0x0D, 0xBF, 0xE6, 0x42, 0x68, 0x41, 0x99, 0x2D, 0x0F, 0xB0, 0x54, 0xBB, 0x16]]

/-- The table that undoes it. -/
def invSBox : List (List UInt8) := [
    [0x52, 0x09, 0x6A, 0xD5, 0x30, 0x36, 0xA5, 0x38, 0xBF, 0x40, 0xA3, 0x9E, 0x81, 0xF3, 0xD7, 0xFB],
    [0x7C, 0xE3, 0x39, 0x82, 0x9B, 0x2F, 0xFF, 0x87, 0x34, 0x8E, 0x43, 0x44, 0xC4, 0xDE, 0xE9, 0xCB],
    [0x54, 0x7B, 0x94, 0x32, 0xA6, 0xC2, 0x23, 0x3D, 0xEE, 0x4C, 0x95, 0x0B, 0x42, 0xFA, 0xC3, 0x4E],
    [0x08, 0x2E, 0xA1, 0x66, 0x28, 0xD9, 0x24, 0xB2, 0x76, 0x5B, 0xA2, 0x49, 0x6D, 0x8B, 0xD1, 0x25],
    [0x72, 0xF8, 0xF6, 0x64, 0x86, 0x68, 0x98, 0x16, 0xD4, 0xA4, 0x5C, 0xCC, 0x5D, 0x65, 0xB6, 0x92],
    [0x6C, 0x70, 0x48, 0x50, 0xFD, 0xED, 0xB9, 0xDA, 0x5E, 0x15, 0x46, 0x57, 0xA7, 0x8D, 0x9D, 0x84],
    [0x90, 0xD8, 0xAB, 0x00, 0x8C, 0xBC, 0xD3, 0x0A, 0xF7, 0xE4, 0x58, 0x05, 0xB8, 0xB3, 0x45, 0x06],
    [0xD0, 0x2C, 0x1E, 0x8F, 0xCA, 0x3F, 0x0F, 0x02, 0xC1, 0xAF, 0xBD, 0x03, 0x01, 0x13, 0x8A, 0x6B],
    [0x3A, 0x91, 0x11, 0x41, 0x4F, 0x67, 0xDC, 0xEA, 0x97, 0xF2, 0xCF, 0xCE, 0xF0, 0xB4, 0xE6, 0x73],
    [0x96, 0xAC, 0x74, 0x22, 0xE7, 0xAD, 0x35, 0x85, 0xE2, 0xF9, 0x37, 0xE8, 0x1C, 0x75, 0xDF, 0x6E],
    [0x47, 0xF1, 0x1A, 0x71, 0x1D, 0x29, 0xC5, 0x89, 0x6F, 0xB7, 0x62, 0x0E, 0xAA, 0x18, 0xBE, 0x1B],
    [0xFC, 0x56, 0x3E, 0x4B, 0xC6, 0xD2, 0x79, 0x20, 0x9A, 0xDB, 0xC0, 0xFE, 0x78, 0xCD, 0x5A, 0xF4],
    [0x1F, 0xDD, 0xA8, 0x33, 0x88, 0x07, 0xC7, 0x31, 0xB1, 0x12, 0x10, 0x59, 0x27, 0x80, 0xEC, 0x5F],
    [0x60, 0x51, 0x7F, 0xA9, 0x19, 0xB5, 0x4A, 0x0D, 0x2D, 0xE5, 0x7A, 0x9F, 0x93, 0xC9, 0x9C, 0xEF],
    [0xA0, 0xE0, 0x3B, 0x4D, 0xAE, 0x2A, 0xF5, 0xB0, 0xC8, 0xEB, 0xBB, 0x3C, 0x83, 0x53, 0x99, 0x61],
    [0x17, 0x2B, 0x04, 0x7E, 0xBA, 0x77, 0xD6, 0x26, 0xE1, 0x69, 0x14, 0x63, 0x55, 0x21, 0x0C, 0x7D]]

def lookup (table : List (List UInt8)) (b : UInt8) : UInt8 :=
  (table.getD (b.toNat / 16) []).getD (b.toNat % 16) 0

def subByte (b : UInt8) : UInt8 := lookup sBox b

def invSubByte (b : UInt8) : UInt8 := lookup invSBox b

theorem invSubByte_subByte : ∀ b, invSubByte (subByte b) = b := by decide +kernel

/-- Twice a byte, in the field of 256 elements. -/
def xtime (b : UInt8) : UInt8 := (b <<< 1) ^^^ (b >>> 7) * 0x1B

theorem highBit_le_one : ∀ b : UInt8, b >>> 7 ≤ 1 := by decide +kernel

theorem reduce_xor {p q : UInt8} (hp : p ≤ 1) (hq : q ≤ 1) :
    (p ^^^ q) * 0x1B = p * 0x1B ^^^ q * 0x1B := by
  have hbit : ∀ r : UInt8, r ≤ 1 → r = 0 ∨ r = 1 := by decide +kernel
  obtain rfl | rfl := hbit p hp
  all_goals
    obtain rfl | rfl := hbit q hq
    all_goals rfl

theorem xtime_xor (a b : UInt8) : xtime (a ^^^ b) = xtime a ^^^ xtime b := by
  unfold xtime
  rw [UInt8.shiftLeft_xor, UInt8.shiftRight_xor,
    reduce_xor (highBit_le_one a) (highBit_le_one b)]
  ac_rfl

theorem xor_cancel_left (a b : UInt8) : a ^^^ (a ^^^ b) = b := by
  rw [← UInt8.xor_assoc, UInt8.xor_self, UInt8.zero_xor]

theorem xor_left_comm (a b c : UInt8) : a ^^^ (b ^^^ c) = b ^^^ (a ^^^ c) := by
  rw [← UInt8.xor_assoc, UInt8.xor_comm a, UInt8.xor_assoc]

theorem xor_xor_xor_cancel (a c x : UInt8) : a ^^^ x ^^^ (c ^^^ x) = a ^^^ c := by
  rw [UInt8.xor_assoc, UInt8.xor_comm c, xor_cancel_left]

/-! ### Columns -/

structure Column where
  a : UInt8
  b : UInt8
  c : UInt8
  d : UInt8
  deriving DecidableEq

namespace Column

def map (f : UInt8 → UInt8) : Column → Column
  | ⟨a, b, c, d⟩ => ⟨f a, f b, f c, f d⟩

def xor : Column → Column → Column
  | ⟨a, b, c, d⟩, ⟨a', b', c', d'⟩ => ⟨a ^^^ a', b ^^^ b', c ^^^ c', d ^^^ d'⟩

def rotate : Column → Column
  | ⟨a, b, c, d⟩ => ⟨b, c, d, a⟩

/-- Every byte becomes twice itself, three times the next one, and the other two. -/
def mix : Column → Column
  | ⟨a, b, c, d⟩ =>
    ⟨xtime a ^^^ (xtime b ^^^ b) ^^^ c ^^^ d, a ^^^ xtime b ^^^ (xtime c ^^^ c) ^^^ d,
      a ^^^ b ^^^ xtime c ^^^ (xtime d ^^^ d), (xtime a ^^^ a) ^^^ b ^^^ c ^^^ xtime d⟩

def invMix (x : Column) : Column := x.mix.mix.mix

def ofBytes (bytes : List UInt8) : Column :=
  ⟨bytes.getD 0 0, bytes.getD 1 0, bytes.getD 2 0, bytes.getD 3 0⟩

def toBytes : Column → List UInt8
  | ⟨a, b, c, d⟩ => [a, b, c, d]

theorem map_map {f g : UInt8 → UInt8} (h : ∀ b, g (f b) = b) (x : Column) :
    (x.map f).map g = x := by
  simp only [map, h]

theorem xor_xor (x k : Column) : (x.xor k).xor k = x := by
  simp only [xor, UInt8.xor_assoc, UInt8.xor_self, UInt8.xor_zero]

/-- Mixing twice adds to every byte four times itself and the one after the next. -/
theorem mix_mix (a b c d : UInt8) :
    (mix ⟨a, b, c, d⟩).mix =
      ⟨a ^^^ xtime (xtime (a ^^^ c)), b ^^^ xtime (xtime (b ^^^ d)),
        c ^^^ xtime (xtime (a ^^^ c)), d ^^^ xtime (xtime (b ^^^ d))⟩ := by
  simp only [mix, xtime_xor, mk.injEq]
  generalize xtime (xtime a) = a₄
  generalize xtime (xtime b) = b₄
  generalize xtime (xtime c) = c₄
  generalize xtime (xtime d) = d₄
  generalize xtime a = a₂
  generalize xtime b = b₂
  generalize xtime c = c₂
  generalize xtime d = d₂
  refine ⟨?_, ?_, ?_, ?_⟩
  all_goals
    simp only [UInt8.xor_comm, xor_left_comm, xor_cancel_left, UInt8.xor_self, UInt8.xor_zero]

theorem mix_mix_mix_mix (x : Column) : x.mix.mix.mix.mix = x := by
  obtain ⟨a, b, c, d⟩ := x
  rw [mix_mix, mix_mix]
  simp only [xor_xor_xor_cancel]
  simp only [UInt8.xor_assoc, UInt8.xor_self, UInt8.xor_zero]

end Column

/-! ### States -/

structure State where
  c₀ : Column
  c₁ : Column
  c₂ : Column
  c₃ : Column
  deriving DecidableEq

namespace State

/-- The same to every column. -/
def each (f : Column → Column) : State → State
  | ⟨w, x, y, z⟩ => ⟨f w, f x, f y, f z⟩

def addRoundKey : State → State → State
  | ⟨w, x, y, z⟩, ⟨w', x', y', z'⟩ => ⟨w.xor w', x.xor x', y.xor y', z.xor z'⟩

def subBytes : State → State := each (Column.map subByte)

def invSubBytes : State → State := each (Column.map invSubByte)

def mixColumns : State → State := each Column.mix

def invMixColumns : State → State := each Column.invMix

/-- Row `i` moves `i` columns to the left. -/
def shiftRows : State → State
  | ⟨⟨a₀, b₀, c₀, d₀⟩, ⟨a₁, b₁, c₁, d₁⟩, ⟨a₂, b₂, c₂, d₂⟩, ⟨a₃, b₃, c₃, d₃⟩⟩ =>
    ⟨⟨a₀, b₁, c₂, d₃⟩, ⟨a₁, b₂, c₃, d₀⟩, ⟨a₂, b₃, c₀, d₁⟩, ⟨a₃, b₀, c₁, d₂⟩⟩

def invShiftRows : State → State
  | ⟨⟨a₀, b₀, c₀, d₀⟩, ⟨a₁, b₁, c₁, d₁⟩, ⟨a₂, b₂, c₂, d₂⟩, ⟨a₃, b₃, c₃, d₃⟩⟩ =>
    ⟨⟨a₀, b₃, c₂, d₁⟩, ⟨a₁, b₀, c₃, d₂⟩, ⟨a₂, b₁, c₀, d₃⟩, ⟨a₃, b₂, c₁, d₀⟩⟩

def ofBytes (bytes : List UInt8) : State :=
  ⟨.ofBytes bytes, .ofBytes (bytes.drop 4), .ofBytes (bytes.drop 8), .ofBytes (bytes.drop 12)⟩

def toBytes : State → List UInt8
  | ⟨w, x, y, z⟩ => w.toBytes ++ x.toBytes ++ y.toBytes ++ z.toBytes

theorem each_each {f g : Column → Column} (h : ∀ x, g (f x) = x) (s : State) :
    (s.each f).each g = s := by
  simp only [each, h]

theorem addRoundKey_addRoundKey (s k : State) : (s.addRoundKey k).addRoundKey k = s := by
  simp only [addRoundKey, Column.xor_xor]

theorem invSubBytes_subBytes (s : State) : s.subBytes.invSubBytes = s :=
  each_each (Column.map_map invSubByte_subByte) s

theorem invMixColumns_mixColumns (s : State) : s.mixColumns.invMixColumns = s :=
  each_each Column.mix_mix_mix_mix s

theorem invShiftRows_shiftRows (s : State) : s.shiftRows.invShiftRows = s := rfl

@[simp] theorem toBytes_length (s : State) : s.toBytes.length = 16 := rfl

theorem ofBytes_toBytes (s : State) : ofBytes s.toBytes = s := rfl

theorem toBytes_ofBytes {bytes : List UInt8} (h : bytes.length = 16) :
    (ofBytes bytes).toBytes = bytes := by
  match bytes, h with
  | [_, _, _, _, _, _, _, _, _, _, _, _, _, _, _, _], _ => rfl

end State

/-! ### The cipher -/

/-- One round: the last one does not mix. -/
def round (s k : State) : State := s.subBytes.shiftRows.mixColumns.addRoundKey k

def lastRound (s k : State) : State := s.subBytes.shiftRows.addRoundKey k

def invRound (s k : State) : State := (s.addRoundKey k).invMixColumns.invShiftRows.invSubBytes

def invLastRound (s k : State) : State := (s.addRoundKey k).invShiftRows.invSubBytes

theorem invRound_round (s k : State) : invRound (round s k) k = s := by
  rw [invRound, round, State.addRoundKey_addRoundKey, State.invMixColumns_mixColumns,
    State.invShiftRows_shiftRows, State.invSubBytes_subBytes]

theorem invLastRound_lastRound (s k : State) : invLastRound (lastRound s k) k = s := by
  rw [invLastRound, lastRound, State.addRoundKey_addRoundKey, State.invShiftRows_shiftRows,
    State.invSubBytes_subBytes]

/-- The rounds of these keys, the last of which does not mix. -/
def rounds : List State → State → State
  | [], s => s
  | [k], s => lastRound s k
  | k :: keys, s => rounds keys (round s k)

def invRounds : List State → State → State
  | [], s => s
  | [k], s => invLastRound s k
  | k :: keys, s => invRound (invRounds keys s) k

theorem invRounds_rounds (keys : List State) (s : State) : invRounds keys (rounds keys s) = s := by
  fun_induction rounds keys s with
  | case1 s => rfl
  | case2 k s => exact invLastRound_lastRound s k
  | case3 k keys s hne ih =>
    rw [invRounds, ih, invRound_round]
    exact hne

/-- The round key after `k`. -/
def nextKey (rcon : UInt8) : State → State
  | ⟨w, x, y, z⟩ =>
    let w' := (w.xor (z.rotate.map subByte)).xor ⟨rcon, 0, 0, 0⟩
    let x' := x.xor w'
    let y' := y.xor x'
    ⟨w', x', y', z.xor y'⟩

def roundKeys : List UInt8 → State → List State
  | [], _ => []
  | rcon :: rcons, k => nextKey rcon k :: roundKeys rcons (nextKey rcon k)

/-- The ten round keys of a key. -/
def expand (key : State) : List State :=
  roundKeys [0x01, 0x02, 0x04, 0x08, 0x10, 0x20, 0x40, 0x80, 0x1B, 0x36] key

def encipher (key s : State) : State := rounds (expand key) (s.addRoundKey key)

def decipher (key s : State) : State := (invRounds (expand key) s).addRoundKey key

/-- **Deciphering undoes enciphering.** -/
theorem decipher_encipher (key s : State) : decipher key (encipher key s) = s := by
  rw [decipher, encipher, invRounds_rounds, State.addRoundKey_addRoundKey]

/-- The block of zeros under the key of zeros. -/
example : (encipher (.ofBytes (List.replicate 16 0)) (.ofBytes (List.replicate 16 0))).toBytes =
    [0x66, 0xE9, 0x4B, 0xD4, 0xEF, 0x8A, 0x2C, 0x3B, 0x88, 0x4C, 0xFA, 0x59, 0xCA, 0x34, 0x2B,
      0x2E] := by
  decide +kernel

-- whatever uses the cipher goes by `decipher_encipher`, or has the kernel compute
attribute [irreducible] encipher decipher

end MynaCard.Aes
