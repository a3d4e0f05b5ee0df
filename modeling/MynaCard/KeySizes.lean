import MynaCard.Data

/-!
# The size of a key

`RsaPublicKey::bits` looks for the first byte of the modulus that is not zero and counts from
there. It gives the number of binary digits of the modulus (`RsaPublicKey.bits_eq`): leading zero
bytes do not count, and neither subtraction goes below zero.
-/

namespace MynaCard

/-! ### Binary digits -/

/-- The number of binary digits of `n`; zero has none. -/
def bitLength (n : ℕ) : ℕ := (Nat.digits 2 n).length

@[simp] theorem bitLength_zero : bitLength 0 = 0 := by simp [bitLength]

theorem bitLength_of_ne_zero {n : ℕ} (h : n ≠ 0) : bitLength n = Nat.log 2 n + 1 :=
  Nat.length_digits 2 n (by norm_num) h

theorem bitLength_eq_succ {n k : ℕ} (hlow : 2 ^ k ≤ n) (hhigh : n < 2 ^ (k + 1)) :
    bitLength n = k + 1 := by
  have hn : n ≠ 0 := by
    have := Nat.one_le_two_pow (n := k)
    omega
  rw [bitLength_of_ne_zero hn, Nat.log_eq_of_pow_le_of_lt_pow hlow hhigh]

/-- `u8::leading_zeros`. -/
def leadingZeros (b : UInt8) : ℕ := b.toBitVec.clz.toNat

/-- A byte that is not zero has its highest bit right after its leading zeros. -/
theorem leadingZeros_spec {b : UInt8} (h : b ≠ 0) :
    leadingZeros b ≤ 7 ∧ 2 ^ (7 - leadingZeros b) ≤ b.toNat ∧
      b.toNat < 2 ^ (8 - leadingZeros b) := by
  revert b
  decide +kernel

/-- The highest byte of a number fixes how many digits it has beyond those of the bytes below. -/
theorem bitLength_bigEndian_cons {b : UInt8} (h : b ≠ 0) (bs : Bytes) :
    bitLength (bigEndian (b :: bs)) = (bs.length + 1) * 8 - leadingZeros b := by
  obtain ⟨hle, hlow, hhigh⟩ := leadingZeros_spec h
  have h256 : (256 : ℕ) ^ bs.length = 2 ^ (8 * bs.length) := by
    rw [pow_mul]
    norm_num
  have hrest := bigEndian_lt bs
  rw [h256] at hrest
  rw [bigEndian_cons, h256]
  have hexp : (bs.length + 1) * 8 - leadingZeros b = 7 - leadingZeros b + 8 * bs.length + 1 := by
    omega
  rw [hexp]
  apply bitLength_eq_succ
  · calc 2 ^ (7 - leadingZeros b + 8 * bs.length)
        = 2 ^ (7 - leadingZeros b) * 2 ^ (8 * bs.length) := pow_add _ _ _
      _ ≤ b.toNat * 2 ^ (8 * bs.length) := Nat.mul_le_mul_right _ hlow
      _ ≤ _ := Nat.le_add_right _ _
  · calc b.toNat * 2 ^ (8 * bs.length) + bigEndian bs
        < (b.toNat + 1) * 2 ^ (8 * bs.length) := by
          rw [add_mul, one_mul]
          omega
      _ ≤ 2 ^ (8 - leadingZeros b) * 2 ^ (8 * bs.length) := Nat.mul_le_mul_right _ hhigh
      _ = 2 ^ (7 - leadingZeros b + 8 * bs.length + 1) := by
          rw [← pow_add]
          congr 1
          omega

/-! ### The size of a key -/

/-- `a - b` at type `usize`, when it does not go below zero. -/
def usizeSub (a b : ℕ) : Option ℕ := if b ≤ a then some (a - b) else none

/-- `RsaPublicKey::bits`. Nothing is given where a subtraction underflows or the index is not in the
modulus. The product is one of the length of a byte string in memory: it would miss `usize` at
`2^61` bytes, which no machine has. -/
def RsaPublicKey.bits (key : RsaPublicKey) : Option ℕ :=
  match key.modulus.findIdx? fun b => b ≠ 0 with
  | some first => do
    let count ← usizeSub key.modulus.length first
    let byte ← key.modulus[first]?
    usizeSub (count * 8) (leadingZeros byte)
  | none => some 0

theorem RsaPublicKey.bits_zero_cons (exponent m : Bytes) :
    (⟨exponent, 0 :: m⟩ : RsaPublicKey).bits = (⟨exponent, m⟩ : RsaPublicKey).bits := by
  simp only [bits, List.findIdx?_cons, ne_eq, not_true_eq_false, decide_false, Bool.false_eq_true,
    if_false]
  cases List.findIdx? (fun b => decide (¬ b = 0)) m with
  | none => rfl
  | some first =>
    -- one byte more, and every position one further
    simp only [Option.map_some, usizeSub, List.length_cons, Nat.add_le_add_iff_right,
      Nat.add_sub_add_right, List.getElem?_cons_succ]

theorem RsaPublicKey.bits_cons (exponent m : Bytes) {b : UInt8} (h : b ≠ 0) :
    (⟨exponent, b :: m⟩ : RsaPublicKey).bits = some ((m.length + 1) * 8 - leadingZeros b) := by
  have hle := (leadingZeros_spec h).1
  simp only [bits, List.findIdx?_cons, ne_eq, h, not_false_eq_true, decide_true, if_true]
  show usizeSub ((m.length + 1) * 8) (leadingZeros b) = _
  rw [usizeSub, if_pos (by omega)]

/-- The size is the number of binary digits of the modulus. -/
theorem RsaPublicKey.bits_eq (exponent m : Bytes) :
    (⟨exponent, m⟩ : RsaPublicKey).bits = some (bitLength (bigEndian m)) := by
  induction m with
  | nil => rfl
  | cons b m ih =>
    by_cases h : b = 0
    · subst h
      rw [bits_zero_cons, ih, bigEndian_cons]
      simp
    · rw [bits_cons _ _ h, bitLength_bigEndian_cons h]

theorem bigEndian_replicate_zero_append (count : ℕ) (m : Bytes) :
    bigEndian (List.replicate count 0 ++ m) = bigEndian m := by
  induction count with
  | zero => rfl
  | succ count ih =>
    rw [List.replicate_succ, List.cons_append, bigEndian_cons, ih]
    simp

/-- **The size of a key is the bit length of its modulus**: 0 for the integer zero, else one more
than the logarithm. It is always given, and zero bytes in front do not change it. -/
theorem RsaPublicKey.bits_bitLength (exponent m : Bytes) :
    (⟨exponent, m⟩ : RsaPublicKey).bits = some (Nat.digits 2 (bigEndian m)).length ∧
      (⟨exponent, m⟩ : RsaPublicKey).bits =
        some (if bigEndian m = 0 then 0 else Nat.log 2 (bigEndian m) + 1) ∧
      ∀ zeros, (⟨exponent, List.replicate zeros 0 ++ m⟩ : RsaPublicKey).bits =
        (⟨exponent, m⟩ : RsaPublicKey).bits := by
  refine ⟨RsaPublicKey.bits_eq exponent m, ?_, ?_⟩
  · rw [RsaPublicKey.bits_eq]
    by_cases hzero : bigEndian m = 0
    · rw [if_pos hzero, hzero, bitLength_zero]
    · rw [if_neg hzero, bitLength_of_ne_zero hzero]
  · intro zeros
    rw [RsaPublicKey.bits_eq, RsaPublicKey.bits_eq, bigEndian_replicate_zero_append]

end MynaCard
