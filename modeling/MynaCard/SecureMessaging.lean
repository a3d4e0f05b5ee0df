import MynaCard.Aes
import MynaCard.CardExchange
import MynaCard.Cbc

/-!
# Secure messaging

`sm.rs`. A session encrypts the data field of its commands with AES-128 in CBC mode, under an
initial vector that is a function of the key and of a counter, and counts its own commands to know
the counter the card is at. AES-128 is outside the crate: it is the parameter `aes`, of which the
crate relies on nothing but that decryption inverts encryption. `aes128` is the cipher itself.

The session's state changes while an operation runs, also when the operation then fails, so an
operation is a state transformer over dialogues with the state kept on failure. Its questions are
APDUs labelled with the counter the session is at when it hands them over. The label is not
transmitted: it says which counter a command was built for.
-/

namespace MynaCard

/-! ### The cipher -/

/-- One block of AES. -/
abbrev Block := { b : Bytes // b.length = 15 + 1 }

/-- AES-128 under a key of one block. -/
structure Aes128 where
  encryptBlock : Block → Block → Block
  decryptBlock : Block → Block → Block
  decryptBlock_encryptBlock : ∀ key b, decryptBlock key (encryptBlock key b) = b

namespace Block

def zero : Block := ⟨List.replicate 16 0, rfl⟩

def xor (a b : Block) : Block :=
  ⟨List.zipWith (· ^^^ ·) a.1 b.1, by rw [List.length_zipWith, a.2, b.2, min_self]⟩

/-- A counter as sixteen big-endian bytes. -/
def ofCounter (n : UInt32) : Block := ⟨List.replicate 12 0 ++ u32Bytes n, rfl⟩

theorem xor_xor (a b : Block) : xor a (xor a b) = b := by
  apply Subtype.ext
  apply List.ext_getElem
  · rw [(xor a (xor a b)).2, b.2]
  · intro i _ _
    simp only [xor, List.getElem_zipWith]
    rw [← UInt8.xor_assoc, UInt8.xor_self, UInt8.zero_xor]

end Block

/-- AES-128 itself. -/
def aes128 : Aes128 where
  encryptBlock key b :=
    ⟨(Aes.encipher (.ofBytes key.1) (.ofBytes b.1)).toBytes, Aes.State.toBytes_length _⟩
  decryptBlock key b :=
    ⟨(Aes.decipher (.ofBytes key.1) (.ofBytes b.1)).toBytes, Aes.State.toBytes_length _⟩
  decryptBlock_encryptBlock key b := by
    apply Subtype.ext
    dsimp only
    rw [Aes.State.ofBytes_toBytes, Aes.decipher_encipher, Aes.State.toBytes_ofBytes b.2]

/-! ### Padding and data objects -/

/-- `pad`: the marker `80`, and the zeros the loop adds up to a whole block. -/
def pad (data : Bytes) : Bytes :=
  data ++ 0x80 :: List.replicate ((16 - (data.length + 1) % 16) % 16) 0x00

/-- The loop of `unpad`, on the data from the back. -/
def unpadBack : Bytes → Option Bytes
  | [] => none
  | last :: rest =>
    if last = 0x00 then unpadBack rest
    else if last = 0x80 then some rest.reverse
    else none

/-- `unpad`. -/
def unpad (data : Bytes) : Run Bytes :=
  orMalformed ("decrypted data does not end in 80 00 … padding; the message counter is probably " ++
    "out of step with the card") (unpadBack data.reverse)

theorem pad_length (data : Bytes) : (pad data).length % 16 = 0 ∧
    data.length < (pad data).length ∧ (pad data).length ≤ data.length + 16 := by
  rw [pad, List.length_append, List.length_cons, List.length_replicate]
  omega

theorem unpadBack_replicate (k : ℕ) (rest : Bytes) :
    unpadBack (List.replicate k 0x00 ++ rest) = unpadBack rest := by
  induction k with
  | zero => rfl
  | succ k ih => rw [List.replicate_succ, List.cons_append, unpadBack, if_pos rfl, ih]

/-- Unpadding reverses padding. -/
@[simp] theorem unpad_pad (data : Bytes) : unpad (pad data) = .ok data := by
  have hback : (pad data).reverse =
      List.replicate ((16 - (data.length + 1) % 16) % 16) 0x00 ++ 0x80 :: data.reverse := by
    simp [pad]
  rw [unpad, hback, unpadBack_replicate, unpadBack, if_neg (by decide), if_pos rfl,
    List.reverse_reverse]
  rfl

/-- The shortest length field `cryptogram_object` has for what it wraps. -/
def cryptogramLength (inner : ℕ) : Bytes :=
  if inner < 0x80 then [UInt8.ofNat inner]
  else if inner ≤ 0xFF then [0x81, UInt8.ofNat inner]
  else 0x82 :: u16Bytes (UInt16.ofNat inner)

/-- `cryptogram_object`. -/
def cryptogramObject (cryptogram : Bytes) : Bytes :=
  0x86 :: cryptogramLength (cryptogram.length + 1) ++ 0x01 :: cryptogram

/-- How long a cryptogram object is tells how long its cryptogram is. -/
theorem cryptogramObject_length (cryptogram : Bytes) :
    (cryptogramObject cryptogram).length = cryptogram.length +
      if cryptogram.length + 1 < 0x80 then 3 else if cryptogram.length + 1 ≤ 0xFF then 4 else 5 := by
  simp only [cryptogramObject, cryptogramLength, List.cons_append, List.length_cons,
    List.length_append]
  split_ifs <;> simp only [List.length_cons, List.length_nil, u16Bytes_length] <;> omega

theorem cryptogramObject_injective : Function.Injective cryptogramObject := by
  intro a b h
  have hlen : a.length = b.length := by
    have htotal := congrArg List.length h
    rw [cryptogramObject_length, cryptogramObject_length] at htotal
    split_ifs at htotal <;> omega
  unfold cryptogramObject at h
  rw [hlen] at h
  exact (List.cons.inj (List.append_cancel_left h)).2

/-- `parse_cryptogram`. -/
def parseCryptogram (oc : OverflowChecks) (response : Bytes) : Run Bytes := do
  let tlv ← Ber.parse oc response
  if tlv.tag ≠ 0x86 then
    malformed s!"expected a cryptogram under tag 86, got {hexUpper 2 tlv.tag}"
  else
    match tlv.value with
    | [] => malformed "the cryptogram object is empty"
    | indicator :: cryptogram =>
      if indicator = 0x01 then .ok cryptogram
      else malformed s!"padding-content indicator is {hexUpper 2 indicator.toNat}, expected 01"

/-- `is_secure_messaging_error`. -/
def isSecureMessagingError (sw : StatusWord) : Bool :=
  sw.value == 0x6987 || sw.value == 0x6988 || sw.value == 0x69FC || sw.value == 0x6882

namespace Aes128

variable (aes : Aes128)

/-- `SecureSession::iv`: the counter encrypted under the session key with a zero vector. -/
def iv (key : Block) (n : UInt32) : Block :=
  aes.encryptBlock key (Block.xor Block.zero (Block.ofCounter n))

/-- `SecureSession::encrypt`, for the counter `n`. -/
def encrypt (key : Block) (n : UInt32) (plaintext : Bytes) : Bytes :=
  Cbc.unblocks (Cbc.encrypt (aes.encryptBlock key) Block.xor (aes.iv key n)
    (Cbc.blocks 15 (pad plaintext)))

/-- `SecureSession::decrypt`, for the counter `n`. -/
def decrypt (key : Block) (n : UInt32) (ciphertext : Bytes) : Run Bytes :=
  if ciphertext = [] ∨ ciphertext.length % 16 ≠ 0 then
    malformed s!"a cryptogram of {ciphertext.length} bytes is not a whole number of blocks"
  else
    unpad (Cbc.unblocks (Cbc.decrypt (aes.decryptBlock key) Block.xor (aes.iv key n)
      (Cbc.blocks 15 ciphertext)))

theorem encrypt_length (key : Block) (n : UInt32) (plaintext : Bytes) :
    (aes.encrypt key n plaintext).length = (pad plaintext).length := by
  have hblocks := Cbc.unblocks_blocks 15 (pad plaintext) (pad_length plaintext).1
  rw [encrypt, Cbc.unblocks_length, Cbc.encrypt_length, ← Cbc.unblocks_length, hblocks]

/-- Decryption inverts encryption for one key and counter. -/
theorem decrypt_encrypt (key : Block) (n : UInt32) (plaintext : Bytes) :
    aes.decrypt key n (aes.encrypt key n plaintext) = .ok plaintext := by
  have hpad := pad_length plaintext
  have hlen := aes.encrypt_length key n plaintext
  have hne : aes.encrypt key n plaintext ≠ [] := by
    intro hnil
    rw [hnil, List.length_nil] at hlen
    omega
  rw [decrypt, if_neg (by rw [hlen]; tauto), encrypt, Cbc.blocks_unblocks,
    Cbc.decrypt_encrypt (aes.decryptBlock_encryptBlock key) Block.xor_xor,
    Cbc.unblocks_blocks 15 _ hpad.1, unpad_pad]

theorem encrypt_injective (key : Block) (n : UInt32) :
    Function.Injective (aes.encrypt key n) := by
  intro a b h
  have ha := aes.decrypt_encrypt key n a
  rw [h, aes.decrypt_encrypt key n b] at ha
  exact (Except.ok.inj ha).symm

end Aes128

/-! ### Sessions -/

/-- A secure messaging session, the borrowed card apart. -/
structure SecureSession where
  key : Block
  counter : UInt32
  broken : Bool
  deriving DecidableEq, Repr

/-- An APDU on its way, with the counter the session is at. -/
structure Sent where
  apdu : Bytes
  counter : UInt32
  deriving DecidableEq, Repr

/-- An operation on a session. -/
abbrev SessionM := ExceptT Stop (StateT SecureSession (Dialogue Sent Answer))

/-- An operation on the card the session borrows. -/
def liftCard {α : Type} (x : CardM α) : SessionM α := ExceptT.mk fun s =>
  (x.run.relabel fun apdu => ⟨apdu, s.counter⟩).bind fun r => .done (r, s)

/-- A pure part of an operation. -/
def liftRun {α : Type} (x : Run α) : SessionM α := ExceptT.mk fun s => .done (x, s)

namespace SecureSession

/-- `SecureSession::establish`, the RSA-OAEP encryption under the card's key being `encryptOaep`.
The seed is the session key and sixteen more bytes. -/
def establish (encryptOaep : Bytes → Run Bytes) (fuel : ℕ) (seed : Block × Block) :
    CardM SecureSession := do
  let delivered ← encryptOaep ([0xA0, 0x22, 0x80, 0x20] ++ seed.1.1 ++ seed.2.1)
  let _ ← Card.callOk fuel (.withData Cla.system Ins.setSessionKey 0x00 0x00 delivered)
  pure ⟨seed.1, 1, false⟩

/-- `self.counter += 1` and the latch. -/
def advance (oc : OverflowChecks) (status : StatusWord) : SessionM Unit := ExceptT.mk fun s =>
  match counterSucc oc s.counter with
  | .ok n => .done (.ok (), { s with
      counter := n
      broken := s.broken || isSecureMessagingError status })
  | .error stop => .done (.error stop, s)

variable (aes : Aes128) (oc : OverflowChecks) (fuel : ℕ)

/-- `SecureSession::call`. The counter advances once the card's answer is in hand, whatever its
status word. -/
def call (command : Command) : SessionM Bytes := do
  if (← get).broken then throw (.err (.status ⟨0x69FC⟩))
  else
    let response ← liftCard (Card.call fuel command)
    advance oc response.status
    liftRun response.intoData

/-- The VERIFY of `SecureSession::verify`, for a session that is at `s`. -/
def verifyCommand (s : SecureSession) (sfi : ShortEfId) (value : Pin) : Command :=
  .withData Cla.smWithoutIntegrity Ins.verify 0x00 (0x80 ||| sfi.value)
    (cryptogramObject (aes.encrypt s.key s.counter value.bytes))

/-- `SecureSession::verify`. -/
def verify (key : UInt16) (value : Pin) : SessionM Unit := do
  let sfi ← liftRun (ShortEfId.fromEfId key)
  let _ ← call oc fuel (verifyCommand aes (← get) sfi value)
  pure ()

/-- The SELECT FILE of `SecureSession::select_ef`. -/
def selectEfCommand (s : SecureSession) (id : UInt16) : Command :=
  .withData Cla.smWithoutIntegrity Ins.selectFile 0x02 0x0C
    (cryptogramObject (aes.encrypt s.key s.counter (u16Bytes id)))

/-- `SecureSession::select_ef`. -/
def selectEf (id : UInt16) : SessionM Unit := do
  let _ ← call oc fuel (selectEfCommand aes (← get) id)
  pure ()

/-- The READ BINARY of `SecureSession::read_binary`. Its `Le` is the largest an APDU can ask for;
the length wanted is in the data object. -/
def readBinaryCommand (offset length : UInt16) : Command :=
  .withDataLe Cla.smWithoutIntegrity Ins.readBinary (offset >>> 8).toUInt8 offset.toUInt8
    ([0x96, 0x03, 0x00] ++ u16Bytes length) 65536

/-- `SecureSession::read_binary`. The counter has just advanced, so in a checked build it is not
zero and one less does not overflow. -/
def readBinary (offset length : UInt16) : SessionM Bytes := do
  let response ← call oc fuel (readBinaryCommand offset length)
  let s ← get
  liftRun (parseCryptogram oc response >>= aes.decrypt s.key (s.counter - 1))

/-- `SecureSession::read_ef_physical`. -/
def readEfPhysical (id : UInt16) : SessionM Bytes := do
  selectEf aes oc fuel id
  readBinary aes oc fuel 0 0

/-- How much the loop asks for next: what is missing, or as much as two bytes can ask for. -/
def want (total : ℕ) (out : Bytes) : UInt16 :=
  if total - out.length ≤ 0xFFFF then UInt16.ofNat (total - out.length) else 0xFFFF

/-- The loop of `SecureSession::read_ef`. -/
@[semireducible] def readEfLoop (total : ℕ) (out : Bytes) : SessionM Bytes :=
  if _hmore : out.length < total then
    if out.length > 0xFFFF then throw (.err (.offsetOutOfRange out.length))
    else do
      let chunk ← readBinary aes oc fuel (UInt16.ofNat out.length) (want total out)
      if _hchunk : chunk = [] then pure out
      else readEfLoop total (out ++ chunk)
  else pure out
termination_by total - out.length
decreasing_by
  have := List.length_pos_iff.mpr _hchunk
  rw [List.length_append]
  omega

variable {aes} {total : ℕ} {out : Bytes}

/-- A turn of the loop. -/
theorem readEfLoop_step (hmore : out.length < total) (hoffset : out.length ≤ 0xFFFF) :
    readEfLoop aes oc fuel total out =
      readBinary aes oc fuel (UInt16.ofNat out.length) (want total out) >>= fun chunk =>
        if chunk = [] then pure out else readEfLoop aes oc fuel total (out ++ chunk) := by
  rw [readEfLoop, dif_pos hmore, if_neg (by omega)]
  rfl

theorem readEfLoop_refused (hmore : out.length < total) (hoffset : ¬ out.length ≤ 0xFFFF) :
    readEfLoop aes oc fuel total out = throw (.err (.offsetOutOfRange out.length)) := by
  rw [readEfLoop, dif_pos hmore, if_pos (by omega)]

theorem readEfLoop_done (hdone : ¬ out.length < total) :
    readEfLoop aes oc fuel total out = pure out := by
  rw [readEfLoop, dif_neg hdone]

variable (aes)

/-- What `SecureSession::read_ef` does with what the first read gave. -/
def readEfOn (out : Bytes) : SessionM Bytes :=
  if out = [] then pure out
  else
    match Ber.parseHeader out with
    | .ok header => do
      let total ← liftRun (header.totalLen oc)
      if total ≤ out.length then pure (out.take total) else readEfLoop aes oc fuel total out
    -- not a TLV file: what the card sent
    | .error _ => pure out

/-- `SecureSession::read_ef`. -/
def readEf (id : UInt16) : SessionM Bytes := do
  let out ← readEfPhysical aes oc fuel id
  readEfOn aes oc fuel out

end SecureSession

end MynaCard
