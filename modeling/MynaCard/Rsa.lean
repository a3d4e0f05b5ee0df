import MynaCard.Bytes

/-!
# RSA

Powers modulo a number, key pairs, and signatures of PKCS #1 v1.5. The exponents of a pair undo one
another (`KeyPair.pow_both`): they do so modulo each of the two primes, by Fermat's theorem, and so
modulo their product. **What a pair signs verifies under its public half**
(`KeyPair.verify_sign`).

A prime that is one more than a product of twos and threes is recognised by Lucas's test
(`prime_of_generator`).
-/

namespace MynaCard.Rsa

/-! ### Powers -/

/-- The power by squaring, for an exponent of at most so many bits. -/
def powBits (n : ℕ) : ℕ → ℕ → ℕ → ℕ
  | 0, _, _ => 1 % n
  | bits + 1, b, k =>
    if k % 2 = 1 then b * powBits n bits (b * b % n) (k / 2) % n
    else powBits n bits (b * b % n) (k / 2)

/-- `b ^ k` modulo `n`. -/
def modPow (n b k : ℕ) : ℕ := powBits n (k.log2 + 1) b k

theorem powBits_eq (n : ℕ) {bits k : ℕ} (b : ℕ) (h : k < 2 ^ bits) :
    powBits n bits b k = b ^ k % n := by
  induction bits generalizing b k with
  | zero =>
    obtain rfl : k = 0 := by omega
    rw [powBits, pow_zero]
  | succ bits ih =>
    have hhalf : powBits n bits (b * b % n) (k / 2) = b ^ (2 * (k / 2)) % n := by
      rw [ih _ (by omega), ← Nat.pow_mod, ← pow_two, ← pow_mul]
    rw [powBits, hhalf]
    split
    · rename_i hodd
      have hk : b ^ k = b * b ^ (2 * (k / 2)) := by
        rw [← pow_succ']
        congr 1
        omega
      rw [hk, Nat.mul_mod_mod]
    · rename_i heven
      have hk : 2 * (k / 2) = k := by omega
      rw [hk]

theorem modPow_eq (n b k : ℕ) : modPow n b k = b ^ k % n := powBits_eq n b Nat.lt_log2_self

/-! ### Primes -/

theorem cast_pow_eq_one_iff {n : ℕ} (hn : 1 < n) (b k : ℕ) :
    ((b : ZMod n) ^ k = 1) ↔ modPow n b k = 1 := by
  rw [modPow_eq, ← Nat.cast_pow, ← Nat.cast_one, ZMod.natCast_eq_natCast_iff', Nat.mod_eq_of_lt hn]

/-- A number whose predecessor is made of twos and threes is prime if something has that order. -/
theorem prime_of_generator {n i j : ℕ} (hn : n = 2 ^ i * 3 ^ j + 1) (hone : 1 < n) (b : ℕ)
    (hall : modPow n b (n - 1) = 1) (htwo : modPow n b ((n - 1) / 2) ≠ 1)
    (hthree : modPow n b ((n - 1) / 3) ≠ 1) : n.Prime := by
  refine lucas_primality n b ((cast_pow_eq_one_iff hone b _).mpr hall) ?_
  intro r hr hdvd
  rw [Ne, cast_pow_eq_one_iff hone]
  have hfactor : n - 1 = 2 ^ i * 3 ^ j := by omega
  rw [hfactor, hr.dvd_mul] at hdvd
  obtain hdvd | hdvd := hdvd
  · obtain rfl := (Nat.prime_dvd_prime_iff_eq hr Nat.prime_two).mp (hr.dvd_of_dvd_pow hdvd)
    exact htwo
  · obtain rfl := (Nat.prime_dvd_prime_iff_eq hr Nat.prime_three).mp (hr.dvd_of_dvd_pow hdvd)
    exact hthree

/-- To the power of one more than a multiple of `p - 1`, a number stays what it is modulo `p`. -/
theorem pow_modEq_self {p : ℕ} (hp : p.Prime) (m k : ℕ) : m ^ (1 + (p - 1) * k) ≡ m [MOD p] := by
  have : Fact p.Prime := ⟨hp⟩
  rw [← ZMod.natCast_eq_natCast_iff, Nat.cast_pow]
  by_cases hm : (m : ZMod p) = 0
  · rw [hm, zero_pow (by omega)]
  · rw [pow_add, pow_one, pow_mul, ZMod.pow_card_sub_one_eq_one hm, one_pow, mul_one]

/-! ### Key pairs -/

/-- Two primes, and two exponents that undo one another. -/
structure KeyPair where
  p : ℕ
  q : ℕ
  e : ℕ
  d : ℕ
  prime_p : p.Prime
  prime_q : q.Prime
  ne : p ≠ q
  inverse : ∃ k, e * d = 1 + (p - 1) * (q - 1) * k

namespace KeyPair

variable (pair : KeyPair)

def modulus : ℕ := pair.p * pair.q

theorem one_lt_modulus : 1 < pair.modulus :=
  Nat.one_lt_mul_iff.mpr ⟨pair.prime_p.pos, pair.prime_q.pos, .inl pair.prime_p.one_lt⟩

/-- To the power of both exponents, a number stays what it is. -/
theorem pow_both {m : ℕ} (hm : m < pair.modulus) : m ^ (pair.e * pair.d) % pair.modulus = m := by
  obtain ⟨k, hk⟩ := pair.inverse
  have hpq : Nat.Coprime pair.p pair.q :=
    (Nat.coprime_primes pair.prime_p pair.prime_q).mpr pair.ne
  have hp : m ^ (pair.e * pair.d) ≡ m [MOD pair.p] := by
    rw [hk, mul_assoc]
    exact pow_modEq_self pair.prime_p m _
  have hq : m ^ (pair.e * pair.d) ≡ m [MOD pair.q] := by
    rw [hk, mul_comm (pair.p - 1), mul_assoc]
    exact pow_modEq_self pair.prime_q m _
  have hboth : m ^ (pair.e * pair.d) ≡ m [MOD pair.modulus] :=
    (Nat.modEq_and_modEq_iff_modEq_mul hpq).mp ⟨hp, hq⟩
  rw [hboth, Nat.mod_eq_of_lt hm]

/-- The public exponent undoes the private one. -/
theorem pow_pow {m : ℕ} (hm : m < pair.modulus) :
    modPow pair.modulus (modPow pair.modulus m pair.d) pair.e = m := by
  rw [modPow_eq, modPow_eq, ← Nat.pow_mod, ← pow_mul, mul_comm pair.d, pair.pow_both hm]

/-- And the other way round. -/
theorem pow_pow' {m : ℕ} (hm : m < pair.modulus) :
    modPow pair.modulus (modPow pair.modulus m pair.e) pair.d = m := by
  rw [modPow_eq, modPow_eq, ← Nat.pow_mod, ← pow_mul, pair.pow_both hm]

end KeyPair

/-! ### Signatures -/

/-- How many bytes a number takes. -/
def size (n : ℕ) : ℕ := n.log2 / 8 + 1

theorem lt_pow_size (n : ℕ) : n < 256 ^ size n := by
  have hlt : n < 2 ^ (n.log2 + 1) := Nat.lt_log2_self
  refine hlt.trans_le ?_
  rw [show 256 = 2 ^ 8 from rfl, ← pow_mul]
  exact Nat.pow_le_pow_right (by decide) (by unfold size; omega)

theorem pow_size_le {n : ℕ} (hn : n ≠ 0) : 256 ^ (size n - 1) ≤ n := by
  refine le_trans ?_ (Nat.log2_self_le hn)
  rw [show 256 = 2 ^ 8 from rfl, ← pow_mul]
  exact Nat.pow_le_pow_right (by decide) (by unfold size; omega)

/-- A payload with the padding of a signature around it, `k` bytes in all. -/
def block (k : ℕ) (payload : Bytes) : Bytes :=
  0x00 :: 0x01 :: (List.replicate (k - payload.length - 3) 0xFF ++ 0x00 :: payload)

theorem block_length {k : ℕ} {payload : Bytes} (h : payload.length + 11 ≤ k) :
    (block k payload).length = k := by
  simp only [block, List.length_cons, List.length_append, List.length_replicate]
  omega

/-- A block that begins with zero is less than every number of as many bytes. -/
theorem bigEndian_zero_cons_lt {n : ℕ} (hn : n ≠ 0) {rest : Bytes}
    (h : (0x00 :: rest).length = size n) : bigEndian (0x00 :: rest) < n := by
  have hlt := bigEndian_lt rest
  rw [show rest.length = size n - 1 by rw [← h, List.length_cons, Nat.add_sub_cancel]] at hlt
  rw [bigEndian_cons]
  simpa using hlt.trans_le (pow_size_le hn)

/-- Whether a signature of a payload verifies under a modulus and an exponent. -/
def verify (n e : ℕ) (payload signature : Bytes) : Bool :=
  decide (payload.length + 11 ≤ size n ∧ signature.length = size n ∧ bigEndian signature < n ∧
    beBytes (size n) (modPow n (bigEndian signature) e) = block (size n) payload)

/-- What the private half of a pair makes of a payload. -/
def KeyPair.sign (pair : KeyPair) (payload : Bytes) : Bytes :=
  beBytes (size pair.modulus)
    (modPow pair.modulus (bigEndian (block (size pair.modulus) payload)) pair.d)

theorem beBytes_bigEndian (bs : Bytes) : beBytes bs.length (bigEndian bs) = bs :=
  bigEndian_inj (beBytes_length _ _) (bigEndian_beBytes (bigEndian_lt bs))

/-- **What a pair signs verifies**, as long as there is room for the payload in a block. -/
theorem KeyPair.verify_sign (pair : KeyPair) {payload : Bytes}
    (h : payload.length + 11 ≤ size pair.modulus) :
    verify pair.modulus pair.e payload (pair.sign payload) = true := by
  have hpos : 0 < pair.modulus := Nat.zero_lt_of_lt pair.one_lt_modulus
  have hmod : modPow pair.modulus (bigEndian (block (size pair.modulus) payload)) pair.d <
      pair.modulus := by
    rw [modPow_eq]
    exact Nat.mod_lt _ hpos
  have hvalue : bigEndian (pair.sign payload) = _ :=
    bigEndian_beBytes (hmod.trans (lt_pow_size _))
  refine decide_eq_true ⟨h, beBytes_length _ _, hvalue ▸ hmod, ?_⟩
  have hlength := block_length h
  have hblock : bigEndian (block (size pair.modulus) payload) < pair.modulus :=
    bigEndian_zero_cons_lt hpos.ne' hlength
  rw [hvalue, pair.pow_pow hblock]
  calc beBytes (size pair.modulus) (bigEndian (block (size pair.modulus) payload))
      = beBytes (block (size pair.modulus) payload).length
          (bigEndian (block (size pair.modulus) payload)) := by rw [hlength]
    _ = block (size pair.modulus) payload := beBytes_bigEndian _

end MynaCard.Rsa
