import MynaCard.FileReads
import MynaCard.SessionExchange

/-!
# A card that holds one file

A card whose current EF is `file`. It answers a plain READ BINARY with the bytes asked for, and a
secure one with the bytes asked for, or any shorter part of them from the front, encrypted for the
counter it is at; past the end of the file it answers `6B00` either way. `cuts` is how long the
answers to its secure reads may be.

This file says what the operations of `Card` and `SecureSession` that exchange one command do with
such a card; `ReadAgreement` goes on from there to the two file readers.
-/

namespace MynaCard

open Ber Dialogue

/-! ### Runs of session operations -/

section Runs

variable {τ α β : Type}

/-- An operation on a session, run against a party that does not see the labels. -/
def SessionM.runOn (answer : Bytes → τ → Answer × τ) (x : SessionM α) (s : SecureSession) (σ : τ) :
    (Run α × SecureSession) × τ :=
  (x.run.run s).run (fun q => answer q.apdu) σ

variable {answer : Bytes → τ → Answer × τ} {s s' : SecureSession} {σ σ' : τ}

theorem runOn_liftCard (x : CardM α) :
    (liftCard x).runOn answer s σ =
      (((x.run.run answer σ).1, s), (x.run.run answer σ).2) := by
  show ((x.run.relabel fun apdu => (⟨apdu, s.counter⟩ : Sent)).bind _).run _ σ = _
  rw [run_bind, run_relabel]
  rfl

theorem runOn_liftRun (x : Run α) : (liftRun x).runOn answer s σ = ((x, s), σ) := rfl

theorem runOn_get : (get : SessionM SecureSession).runOn answer s σ = ((.ok s, s), σ) := rfl

theorem runOn_bind_ok {x : SessionM α} {f : α → SessionM β} {a : α}
    (h : x.runOn answer s σ = ((.ok a, s'), σ')) :
    (x >>= f).runOn answer s σ = (f a).runOn answer s' σ' := by
  show ((x.run.run s).bind _).run _ σ = _
  rw [run_bind, show (x.run.run s).run _ σ = _ from h]
  rfl

theorem runOn_bind_error {x : SessionM α} {f : α → SessionM β} {stop : Stop}
    (h : x.runOn answer s σ = ((.error stop, s'), σ')) :
    (x >>= f).runOn answer s σ = ((.error stop, s'), σ') := by
  show ((x.run.run s).bind _).run _ σ = _
  rw [run_bind, show (x.run.run s).run _ σ = _ from h]
  rfl

theorem runOn_get_bind {f : SecureSession → SessionM β} :
    (get >>= f).runOn answer s σ = (f s).runOn answer s σ := runOn_bind_ok runOn_get

end Runs

/-! ### Cryptogram objects -/

theorem cryptogramLength_lengthField {inner : ℕ} (h : inner ≤ 0xFFFF) :
    LengthField (cryptogramLength inner) inner := by
  unfold cryptogramLength
  split_ifs with hshort hone
  · have hval : (UInt8.ofNat inner).toNat = inner := by
      rw [UInt8.toNat_ofNat']
      omega
    have hfield := LengthField.short (UInt8.ofNat inner) (by
      rw [UInt8.lt_iff_toNat_lt, hval]
      exact hshort)
    rwa [hval] at hfield
  · have hval : (UInt8.ofNat inner).toNat = inner := by
      rw [UInt8.toNat_ofNat']
      omega
    have hfield := LengthField.long 0x81 [UInt8.ofNat inner] (by simp) (by simp) (by simp)
    rwa [bigEndian_singleton, hval] at hfield
  · have hfield := LengthField.long 0x82 (u16Bytes (UInt16.ofNat inner)) (by simp) (by simp)
      (by simp)
    rwa [bigEndian_u16Bytes, UInt16.toNat_ofNat', Nat.mod_eq_of_lt (by omega)] at hfield

/-- What `cryptogram_object` wraps, `parse_cryptogram` pulls out, whatever follows. -/
theorem parseCryptogram_cryptogramObject_append (oc : OverflowChecks) {cryptogram : Bytes}
    (h : cryptogram.length + 1 ≤ 0xFFFF) (rest : Bytes) :
    parseCryptogram oc (cryptogramObject cryptogram ++ rest) = .ok cryptogram := by
  have hwf : IsHeader (0x86 :: cryptogramLength (cryptogram.length + 1))
      ⟨0x86, (0x01 :: cryptogram).length, (0x86 :: cryptogramLength (cryptogram.length + 1)).length⟩ :=
    ⟨[0x86], _, rfl, .single 0x86 (by decide), cryptogramLength_lengthField h, rfl, rfl⟩
  let o : Obj := ⟨_, 0x86, 0x01 :: cryptogram, hwf⟩
  have hraw : cryptogramObject cryptogram = o.raw := rfl
  have hsize : o.raw.length < usizeSize := by
    have hlen := cryptogramObject_length cryptogram
    rw [hraw] at hlen
    rw [hlen]
    unfold usizeSize
    split_ifs <;> omega
  rw [parseCryptogram, hraw, parse_raw_append oc o hsize]
  rfl

theorem parseCryptogram_cryptogramObject (oc : OverflowChecks) {cryptogram : Bytes}
    (h : cryptogram.length + 1 ≤ 0xFFFF) :
    parseCryptogram oc (cryptogramObject cryptogram) = .ok cryptogram := by
  rw [← List.append_nil (cryptogramObject cryptogram)]
  exact parseCryptogram_cryptogramObject_append oc h []

/-! ### The card -/

/-- A card with a selected file, in a secure messaging session. -/
structure FileCard where
  file : Bytes
  key : Block
  counter : UInt32
  /-- how many bytes the card gives, at most, in answer to its first, second, … secure read -/
  cuts : ℕ → ℕ
  /-- the secure reads answered so far -/
  reads : ℕ

/-- A non-empty part of `data` from the front, if there is one. -/
def shortened (cut : ℕ) (data : Bytes) : Bytes := data.take (max 1 cut)

/-- The length a secure READ BINARY asks for. -/
def expectedLength : Bytes → Option ℕ
  | [0x96, 0x03, 0x00, hi, lo] => some (u16OfBytes hi lo).toNat
  | _ => none

namespace FileCard

variable (aes : Aes128) (card : FileCard)

/-- The file from `offset` on, if that is not past its end. -/
def readFrom (offset : ℕ) (answer : Bytes → Bytes) : Response :=
  if offset < card.file.length then ⟨answer (card.file.drop offset), .success⟩
  else ⟨[], ⟨0x6B00⟩⟩

def plainRead (offset le : ℕ) : Response := card.readFrom offset (List.take le)

/-- The plaintext of the answer to a secure read at `offset`. -/
def plaintext (offset length : ℕ) : Bytes :=
  let asked := card.file.drop offset
  shortened (card.cuts card.reads) (if length = 0 then asked else asked.take length)

def secureRead (offset length : ℕ) : Response :=
  card.readFrom offset fun _ =>
    cryptogramObject (aes.encrypt card.key card.counter (card.plaintext offset length))

/-- The card after one secure messaging command. -/
def counted : FileCard := { card with counter := card.counter + 1 }

/-- The card after one secure read. -/
def readOnce : FileCard := { card with counter := card.counter + 1, reads := card.reads + 1 }

theorem plaintext_prefix (offset length : ℕ) :
    card.plaintext offset length <+: card.file.drop offset := by
  unfold plaintext shortened
  dsimp only
  split
  · exact List.take_prefix _ _
  · exact (List.take_prefix _ _).trans (List.take_prefix _ _)

theorem plaintext_ne_nil {offset : ℕ} (length : ℕ) (hwithin : offset < card.file.length) :
    card.plaintext offset length ≠ [] := by
  apply List.ne_nil_of_length_pos
  unfold plaintext shortened
  dsimp only
  split <;> simp only [List.length_take, List.length_drop] <;> omega

theorem plaintext_length_le (offset : ℕ) {length : ℕ} (hpos : length ≠ 0) :
    (card.plaintext offset length).length ≤ length := by
  unfold plaintext shortened
  dsimp only
  rw [if_neg hpos]
  simp only [List.length_take]
  omega

@[simp] theorem counted_file : card.counted.file = card.file := rfl

@[simp] theorem readOnce_file : card.readOnce.file = card.file := rfl

/-- What the card answers to a command, and the card afterwards. Commands other than READ BINARY
succeed. -/
def respond (c : Command) (card : FileCard) : Response × FileCard :=
  let offset := (u16OfBytes c.p1 c.p2).toNat
  if c.cla = Cla.smWithoutIntegrity then
    if c.ins = Ins.readBinary then
      match expectedLength c.data with
      | some length => (card.secureRead aes offset length, card.readOnce)
      | none => (⟨[], ⟨0x6A80⟩⟩, card.counted)
    else (⟨[], .success⟩, card.counted)
  else if c.ins = Ins.readBinary then
    (card.plainRead offset (c.le.elim 0 UInt32.toNat), card)
  else (⟨[], .success⟩, card)

/-- The card as the other end of a transport. -/
def transmit (apdu : Bytes) (card : FileCard) : Answer × FileCard :=
  match isoDecode apdu with
  | some (_, c) => (.ok (respond aes c card).1.toBytes, (respond aes c card).2)
  | none => (.ok (Response.toBytes ⟨[], ⟨0x6700⟩⟩), card)

theorem transmit_encoding {c : Command} (hv : c.Valid) :
    transmit aes c.encoding card =
      (.ok (respond aes c card).1.toBytes, (respond aes c card).2) := by
  rw [transmit, Command.isoDecode_encoding hv]

theorem readFrom_status (offset : ℕ) (answer : Bytes → Bytes) :
    (card.readFrom offset answer).status = .success ∨
      (card.readFrom offset answer).status = ⟨0x6B00⟩ := by
  unfold readFrom
  split
  · exact .inl rfl
  · exact .inr rfl

/-- No answer of the card has anything to follow up. -/
theorem respond_final (c : Command) :
    (respond aes c card).1.status.correctLe = none ∧
      (respond aes c card).1.status.moreDataAvailable = none := by
  have hstatus : (respond aes c card).1.status = .success ∨
      (respond aes c card).1.status = ⟨0x6B00⟩ ∨ (respond aes c card).1.status = ⟨0x6A80⟩ := by
    unfold respond
    dsimp only
    split
    · split
      · split
        · exact (card.readFrom_status _ _).imp_right .inl
        · exact .inr (.inr rfl)
      · exact .inl rfl
    · split
      · exact (card.readFrom_status _ _).imp_right .inl
      · exact .inl rfl
  rcases hstatus with h | h | h
  all_goals
    rw [h]
    exact ⟨rfl, rfl⟩

theorem call_run {fuel : ℕ} {c : Command} (hv : c.Valid) :
    (Card.call fuel c).run.run (transmit aes) card =
      (.ok (respond aes c card).1, (respond aes c card).2) :=
  Card.call_run_final fuel hv (transmit_encoding aes card hv) (respond_final aes card c).1
    (respond_final aes card c).2

theorem callOk_run {fuel : ℕ} {c : Command} (hv : c.Valid) :
    (Card.callOk fuel c).run.run (transmit aes) card =
      ((respond aes c card).1.intoData, (respond aes c card).2) :=
  Card.callOk_run_final fuel hv (transmit_encoding aes card hv) (respond_final aes card c).1
    (respond_final aes card c).2

/-! ### Plain reads -/

theorem selectEf_run {fuel : ℕ} (id : UInt16) :
    (Card.selectEf fuel id).run.run (transmit aes) card = (.ok (), card) := by
  have hv : (Command.withData Cla.user Ins.selectFile 0x02 0x0C (u16Bytes id)).Valid :=
    ⟨by simp [Command.withData], by simp [Command.withData]⟩
  rw [Card.selectEf, run_bind_ok (callOk_run aes card hv)]
  rfl

/-- The card gives the bytes a plain read asks for, and stays as it is. -/
theorem transmit_readsBy : ReadsBy (InFull card.file) (transmit aes) (· = card) := by
  intro apdu σ form c le hσ hdecode hcla hins hdata hle hpos hoff
  subst hσ
  have hrespond : respond aes c σ =
      (σ.plainRead (u16OfBytes c.p1 c.p2).toNat le.toNat, σ) := by
    unfold respond
    dsimp only
    rw [if_neg (by rw [hcla]; decide), if_pos hins, hle]
    rfl
  refine ⟨σ.plainRead (u16OfBytes c.p1 c.p2).toNat le.toNat, σ, ?_, rfl, ?_⟩
  · rw [transmit, hdecode]
    dsimp only
    rw [hrespond]
  · unfold plainRead readFrom
    split
    · rename_i hwithin
      exact .within hwithin
    · rename_i hpast
      exact .past (by omega)

/-! ### Secure reads -/

/-- The session is at the card's counter, under the card's key. -/
structure InSession (s : SecureSession) (card : FileCard) : Prop where
  key_eq : s.key = card.key
  counter_eq : s.counter = card.counter
  unbroken : s.broken = false

theorem InSession.readOnce {s : SecureSession} {card : FileCard} (h : InSession s card)
    {sw : StatusWord} (hsw : isSecureMessagingError sw = false) :
    InSession (s.advanced sw) card.readOnce where
  key_eq := h.key_eq
  counter_eq := congrArg (· + 1) h.counter_eq
  unbroken := by
    show (s.broken || isSecureMessagingError sw) = false
    rw [h.unbroken, hsw]
    rfl

theorem InSession.counted {s : SecureSession} {card : FileCard} (h : InSession s card) :
    InSession (s.advanced .success) card.counted where
  key_eq := h.key_eq
  counter_eq := congrArg (· + 1) h.counter_eq
  unbroken := by
    show (s.broken || false) = false
    rw [h.unbroken]
    rfl

section

variable (oc : OverflowChecks) (fuel : ℕ) {s : SecureSession}

/-- A secure command whose count fits the counter. -/
theorem call_runOn {c : Command} (hc : SessionCommand aes s c) (hs : InSession s card)
    (hroom : s.counter.toNat + 1 < 2 ^ 32) :
    (SecureSession.call oc fuel c).runOn (transmit aes) s card =
      (((respond aes c card).1.intoData, s.advanced (respond aes c card).1.status),
        (respond aes c card).2) := by
  have hcall : (liftCard (Card.call fuel c)).runOn (transmit aes) s card =
      ((.ok (respond aes c card).1, s), (respond aes c card).2) := by
    rw [runOn_liftCard, call_run aes card hc.valid]
  have hadvance : (SecureSession.advance oc (respond aes c card).1.status).runOn (transmit aes) s
      (respond aes c card).2 =
      ((.ok (), s.advanced (respond aes c card).1.status), (respond aes c card).2) := by
    have hsucc : counterSucc oc s.counter = .ok (s.counter + 1) := if_pos hroom
    show Dialogue.run _ (SecureSession.advance oc (respond aes c card).1.status s) _ = _
    rw [SecureSession.advance_of_ok _ hsucc]
    rfl
  rw [SecureSession.call, runOn_get_bind, if_neg (by rw [hs.unbroken]; simp),
    runOn_bind_ok hcall, runOn_bind_ok hadvance, runOn_liftRun]

theorem selectEf_runOn (id : UInt16) (hs : InSession s card)
    (hroom : s.counter.toNat + 1 < 2 ^ 32) :
    (SecureSession.selectEf aes oc fuel id).runOn (transmit aes) s card =
      ((.ok (), s.advanced .success), card.counted) := by
  have hcall := call_runOn aes card oc fuel (SessionCommand.selectEf id) hs hroom
  rw [SecureSession.selectEf, runOn_get_bind, runOn_bind_ok hcall]
  rfl

theorem respond_readBinary (offset length : UInt16) :
    respond aes (SecureSession.readBinaryCommand offset length) card =
      (card.secureRead aes offset.toNat length.toNat, card.readOnce) := by
  show (card.secureRead aes
      (u16OfBytes (offset >>> 8).toUInt8 offset.toUInt8).toNat
      (u16OfBytes (length >>> 8).toUInt8 length.toUInt8).toNat, card.readOnce) = _
  rw [u16OfBytes_u16Bytes, u16OfBytes_u16Bytes]

/-- A secure read that begins within the file. -/
theorem readBinary_within (offset length : UInt16) (hs : InSession s card)
    (hroom : s.counter.toNat + 1 < 2 ^ 32) (hsize : card.file.length ≤ 0x8000)
    (hwithin : offset.toNat < card.file.length) :
    (SecureSession.readBinary aes oc fuel offset length).runOn (transmit aes) s card =
      ((.ok (card.plaintext offset.toNat length.toNat), s.advanced .success), card.readOnce) := by
  have hcall := call_runOn aes card oc fuel (SessionCommand.readBinary offset length) hs hroom
  rw [respond_readBinary, secureRead, readFrom, if_pos hwithin] at hcall
  have hplain := (card.plaintext_prefix offset.toNat length.toNat).length_le
  rw [List.length_drop] at hplain
  have hpad := pad_length (card.plaintext offset.toNat length.toNat)
  have hparse : parseCryptogram oc (cryptogramObject (aes.encrypt card.key card.counter
      (card.plaintext offset.toNat length.toNat))) = .ok (aes.encrypt card.key card.counter
      (card.plaintext offset.toNat length.toNat)) := by
    apply parseCryptogram_cryptogramObject
    rw [aes.encrypt_length]
    omega
  -- the session has advanced by the time it decrypts
  have hcounter : (s.advanced .success).counter - 1 = card.counter := by
    show s.counter + 1 - 1 = card.counter
    rw [hs.counter_eq, add_sub_cancel_right]
  have hkey : (s.advanced .success).key = card.key := hs.key_eq
  rw [SecureSession.readBinary, runOn_bind_ok hcall, runOn_get_bind, runOn_liftRun, hparse,
    hcounter, hkey]
  show ((aes.decrypt _ _ _, _), _) = _
  rw [aes.decrypt_encrypt]

/-- A secure read that begins past the end of the file. -/
theorem readBinary_past (offset length : UInt16) (hs : InSession s card)
    (hroom : s.counter.toNat + 1 < 2 ^ 32) (hpast : card.file.length ≤ offset.toNat) :
    (SecureSession.readBinary aes oc fuel offset length).runOn (transmit aes) s card =
      ((.error (.err (.status ⟨0x6B00⟩)), s.advanced ⟨0x6B00⟩), card.readOnce) := by
  have hcall := call_runOn aes card oc fuel (SessionCommand.readBinary offset length) hs hroom
  rw [respond_readBinary, secureRead, readFrom, if_neg (by omega)] at hcall
  have hstatus : Error.fromStatus ⟨0x6B00⟩ = .status ⟨0x6B00⟩ := by decide
  rw [SecureSession.readBinary, runOn_bind_error hcall, hstatus]

end

end FileCard

end MynaCard
