import MynaCard.Rsa
import MynaCard.Sha256

/-!
# RSAES-OAEP

Encryption under a public key, with SHA-256 as the digest and in the mask. A message is laid out behind
the digest of an empty label; a seed masks the layout, and the masked layout the seed. Both masks come
off again (`decode_encode`), so **what is encrypted under a key is decrypted by its private half**
(`decrypt_encrypt`), whatever the seed is.
-/

namespace MynaCard.Rsa

/-! ### Masks -/

def xorBytes (xs ys : Bytes) : Bytes := List.zipWith (· ^^^ ·) xs ys

/-- So many digests of a seed, counted from `i`. -/
def maskFrom (seed : Bytes) : ℕ → ℕ → Bytes
  | _, 0 => []
  | i, blocks + 1 => (Sha256.sha256 (seed ++ beBytes 4 i)).1 ++ maskFrom seed (i + 1) blocks

/-- `MGF1`: the first bytes of the digests of a seed. -/
def mask (seed : Bytes) (length : ℕ) : Bytes := (maskFrom seed 0 (length / 32 + 1)).take length

theorem maskFrom_length (seed : Bytes) (i blocks : ℕ) :
    (maskFrom seed i blocks).length = 32 * blocks := by
  induction blocks generalizing i with
  | zero => rfl
  | succ blocks ih =>
    rw [maskFrom, List.length_append, (Sha256.sha256 _).2, ih]
    omega

@[simp] theorem mask_length (seed : Bytes) (length : ℕ) : (mask seed length).length = length := by
  rw [mask, List.length_take, maskFrom_length]
  omega

theorem xorBytes_length {xs ys : Bytes} (h : xs.length = ys.length) :
    (xorBytes xs ys).length = xs.length := by
  rw [xorBytes, List.length_zipWith, h, min_self]

/-- A mask comes off. -/
theorem xorBytes_xorBytes {xs ys : Bytes} (h : xs.length = ys.length) :
    xorBytes (xorBytes xs ys) ys = xs := by
  induction xs generalizing ys with
  | nil => rfl
  | cons x xs ih =>
    cases ys with
    | nil => cases h
    | cons y ys =>
      show (x ^^^ y ^^^ y) :: xorBytes (xorBytes xs ys) ys = x :: xs
      rw [ih (Nat.succ.inj h), UInt8.xor_assoc, UInt8.xor_self, UInt8.xor_zero]

/-! ### The layout -/

/-- What is masked: the digest of the label, zeros, a one and the message. -/
def layout (k : ℕ) (message : Bytes) : Bytes :=
  (Sha256.sha256 []).1 ++ (List.replicate (k - message.length - 66) 0x00 ++ 0x01 :: message)

/-- A message in a block of `k` bytes, under a seed. -/
def encode (k : ℕ) (seed : { d : Bytes // d.length = 32 }) (message : Bytes) : Bytes :=
  let masked := xorBytes (layout k message) (mask seed.1 (k - 33))
  0x00 :: (xorBytes seed.1 (mask masked 32) ++ masked)

/-- The message of a layout. -/
def messageOf (layout : Bytes) : Option Bytes :=
  if layout.take 32 = (Sha256.sha256 []).1 then
    match (layout.drop 32).dropWhile (· = 0x00) with
    | b :: message => if b = 0x01 then some message else none
    | [] => none
  else none

/-- The message in a block. -/
def decode (block : Bytes) : Option Bytes :=
  match block with
  | b :: rest =>
    let masked := rest.drop 32
    let seed := xorBytes (rest.take 32) (mask masked 32)
    if b = 0x00 then messageOf (xorBytes masked (mask seed masked.length)) else none
  | [] => none

theorem layout_length {k : ℕ} {message : Bytes} (h : message.length + 66 ≤ k) :
    (layout k message).length = k - 33 := by
  simp only [layout, List.length_append, (Sha256.sha256 _).2, List.length_replicate,
    List.length_cons]
  omega

theorem messageOf_layout (k : ℕ) (message : Bytes) : messageOf (layout k message) = some message := by
  have hdigest : (Sha256.sha256 []).1.length = 32 := (Sha256.sha256 []).2
  rw [messageOf, layout, List.take_left' hdigest, if_pos rfl, List.drop_left' hdigest,
    List.dropWhile_append_of_pos (by simp)]
  rfl

theorem maskedLayout_length {k : ℕ} {message : Bytes} (h : message.length + 66 ≤ k) (seed : Bytes) :
    (xorBytes (layout k message) (mask seed (k - 33))).length = k - 33 := by
  have hlayout := layout_length h
  rw [xorBytes_length (by rw [hlayout, mask_length]), hlayout]

theorem maskedSeed_length (seed : { d : Bytes // d.length = 32 }) (masked : Bytes) :
    (xorBytes seed.1 (mask masked 32)).length = 32 := by
  rw [xorBytes_length (by rw [seed.2, mask_length]), seed.2]

theorem encode_length {k : ℕ} (seed : { d : Bytes // d.length = 32 }) {message : Bytes}
    (h : message.length + 66 ≤ k) : (encode k seed message).length = k := by
  rw [encode, List.length_cons, List.length_append, maskedSeed_length, maskedLayout_length h]
  omega

/-- **Both masks come off.** -/
theorem decode_encode {k : ℕ} (seed : { d : Bytes // d.length = 32 }) {message : Bytes}
    (h : message.length + 66 ≤ k) : decode (encode k seed message) = some message := by
  have hmask : (layout k message).length = (mask seed.1 (k - 33)).length := by
    rw [layout_length h, mask_length]
  have hseed := maskedSeed_length seed (xorBytes (layout k message) (mask seed.1 (k - 33)))
  rw [encode, decode, if_pos rfl, List.drop_left' hseed, List.take_left' hseed,
    xorBytes_xorBytes (by rw [seed.2, mask_length]), maskedLayout_length h, xorBytes_xorBytes hmask]
  exact messageOf_layout k message

/-! ### Encryption -/

/-- A message encrypted under a public key, if there is room for it. -/
def encrypt (n e : ℕ) (seed : { d : Bytes // d.length = 32 }) (message : Bytes) : Option Bytes :=
  if message.length + 66 ≤ size n then
    some (beBytes (size n) (modPow n (bigEndian (encode (size n) seed message)) e))
  else none

/-- What the private half of a pair makes of it. -/
def KeyPair.decrypt (pair : KeyPair) (encrypted : Bytes) : Option Bytes :=
  if encrypted.length = size pair.modulus ∧ bigEndian encrypted < pair.modulus then
    decode (beBytes (size pair.modulus) (modPow pair.modulus (bigEndian encrypted) pair.d))
  else none

/-- **What is encrypted is decrypted.** -/
theorem KeyPair.decrypt_encrypt (pair : KeyPair) (seed : { d : Bytes // d.length = 32 })
    {message encrypted : Bytes} (h : encrypt pair.modulus pair.e seed message = some encrypted) :
    pair.decrypt encrypted = some message := by
  obtain ⟨hroom, hencrypted⟩ := Option.ite_none_right_eq_some.mp h
  obtain rfl := Option.some.inj hencrypted
  have hpos : 0 < pair.modulus := Nat.zero_lt_of_lt pair.one_lt_modulus
  have hlength := encode_length seed hroom
  have hblock : bigEndian (encode (size pair.modulus) seed message) < pair.modulus :=
    bigEndian_zero_cons_lt hpos.ne' hlength
  have hmod : modPow pair.modulus (bigEndian (encode (size pair.modulus) seed message)) pair.e <
      pair.modulus := by
    rw [modPow_eq]
    exact Nat.mod_lt _ hpos
  have hvalue := bigEndian_beBytes (hmod.trans (lt_pow_size _))
  rw [KeyPair.decrypt, beBytes_length, hvalue, if_pos ⟨rfl, hmod⟩, pair.pow_pow' hblock]
  have hback := beBytes_bigEndian (encode (size pair.modulus) seed message)
  rw [hlength] at hback
  rw [hback]
  exact decode_encode seed hroom

end MynaCard.Rsa
