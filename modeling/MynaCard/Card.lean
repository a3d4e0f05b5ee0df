import MynaCard.Apdu
import MynaCard.Ber
import MynaCard.Dialogue

/-!
# Operations on a connected card

`pin.rs` and `card.rs`. The card is at the far end of a transport the crate knows nothing about, so
an operation is a dialogue: it hands over encoded command APDUs and is given raw responses or
transport errors, in any order the other side likes. `&mut self` carries no state here, a `Card`
holding nothing but its transport.

The loop that collects a chained response goes on for as long as the card answers `61xx`. `fuel` is
the number of GET RESPONSE commands one call is observed for; a call that wants more is `running`.
-/

namespace MynaCard

/-- What a transport hands back: the raw response, or its own error. -/
abbrev Answer := Except Error Bytes

/-- An operation on a card. -/
abbrev CardM := ExceptT Stop (Dialogue Bytes Answer)

/-! ### PINs -/

/-- A secret to present with VERIFY: 1 to 16 bytes of printable ASCII. -/
structure Pin where
  bytes : Bytes
  ne_nil : bytes ≠ []
  length_le : bytes.length ≤ 16
  printable : ∀ b ∈ bytes, 0x20 ≤ b ∧ b < 0x7F
  deriving DecidableEq

namespace Pin

/-- `Pin::new`. -/
def new (value : Bytes) : Run Pin :=
  if hne : value = [] then .error (.err (.invalidPin "must not be empty"))
  else if hlen : ¬ value.length ≤ 16 then .error (.err (.invalidPin "must not exceed 16 bytes"))
  else if hascii : ¬ ∀ b ∈ value, 0x20 ≤ b ∧ b < 0x7F then
    .error (.err (.invalidPin "must consist of printable ASCII"))
  else .ok ⟨value, hne, not_not.mp hlen, not_not.mp hascii⟩

/-- `Pin::numeric`. -/
def numeric (value : Bytes) : Run Pin := do
  let pin ← Pin.new value
  if ¬ pin.bytes.all isAsciiDigit then
    throw (.err (.invalidPin "must consist of decimal digits"))
  pure pin

/-- Digits are printable. -/
theorem printable_of_digits {value : Bytes} (h : value.all isAsciiDigit = true) :
    ∀ b ∈ value, 0x20 ≤ b ∧ b < 0x7F := by
  intro b hb
  have hdigit := List.all_eq_true.mp h b hb
  simp only [isAsciiDigit, Bool.and_eq_true, decide_eq_true_eq] at hdigit
  exact ⟨UInt8.le_trans (by decide) hdigit.1, UInt8.lt_of_le_of_lt hdigit.2 (by decide)⟩

end Pin

/-! ### Instruction bytes -/

namespace Ins

def verify : UInt8 := 0x20
def computeSignature : UInt8 := 0x2A
def changeReferenceData : UInt8 := 0x24
def changeKey : UInt8 := 0x32
def internalAuthenticate : UInt8 := 0x88
def setSessionKey : UInt8 := 0xAE
def selectFile : UInt8 := 0xA4
def readBinary : UInt8 := 0xB0
def readRecord : UInt8 := 0xB2
def getResponse : UInt8 := 0xC0
def getData : UInt8 := 0xCA

end Ins

/-- The largest number of bytes a single short READ BINARY can return. -/
def maxChunk : ℕ := 256

/-- The largest offset expressible in P1-P2 of a short READ BINARY. -/
def maxOffset : ℕ := 0x7FFF

/-- Attempts left on a key's retry counter. -/
inductive Retries
  | remaining (n : UInt8)
  | blocked
  | unlimited
  | notReported
  deriving DecidableEq, Repr

/-- The 5 bit form of an EF identifier in the range `0001`-`001E`. -/
structure ShortEfId where
  value : UInt8
  pos : 1 ≤ value.toNat
  le : value.toNat ≤ 0x1E
  deriving DecidableEq

/-- `ShortEfId::from_ef_id`. -/
def ShortEfId.fromEfId (id : UInt16) : Run ShortEfId :=
  if h : 0x0001 ≤ id.toNat ∧ id.toNat ≤ 0x001E then
    .ok ⟨id.toUInt8, by simp only [UInt16.toNat_toUInt8]; omega,
      by simp only [UInt16.toNat_toUInt8]; omega⟩
  else .error (.err (.noShortEfId id))

/-- Whether a status word means that there is nothing more to read. -/
def isEndOfFile (sw : StatusWord) : Bool := sw.value = 0x6B00 || sw.value = 0x6282

/-- `Err(Error::Status(sw)) if is_end_of_file(sw)`. -/
def Error.isEndOfFile : Error → Bool
  | .status sw => MynaCard.isEndOfFile sw
  | _ => false

def interpretRetries (status : StatusWord) : Run Retries :=
  if status.value = 0x6300 then .ok .unlimited
  else if status.value = 0x63C0 ∨ status.value = 0x6984 then .ok .blocked
  else if status.value = 0x9000 then .ok .notReported
  else match status.retriesRemaining with
    | some n => .ok (.remaining n)
    | none => .error (.err (.fromStatus status))

/-- `match f() { Ok(a) => …, Err(e) => … }`: a returned error becomes a value. A panic does not. -/
def attempt {α : Type} (x : CardM α) : CardM (Except Error α) := ExceptT.mk do
  match ← x.run with
  | .ok a => pure (.ok (.ok a))
  | .error (.err e) => pure (.ok (.error e))
  | .error stop => pure (.error stop)

namespace Card

/-! ### One exchange -/

/-- `Transmit::transmit`. -/
def transmit (apdu : Bytes) : CardM Bytes := ExceptT.mk do
  match ← Dialogue.query apdu with
  | .ok raw => pure (.ok raw)
  | .error e => pure (.error (.err e))

/-- `Card::transmit_once`. -/
def transmitOnce (command : Command) : CardM Response := do
  let apdu ← command.toBytes
  let raw ← transmit apdu
  Response.parse raw

/-- The GET RESPONSE that answers `61xx`. -/
def getResponse (available : UInt8) : Command :=
  Command.withLe Cla.user Ins.getResponse 0x00 0x00 available.toUInt32

/-- The loop of `Card::call` that collects a chained response. -/
def collect : ℕ → Response → CardM Response
  | fuel, response =>
    match response.status.moreDataAvailable, fuel with
    | none, _ => pure response
    | some _, 0 => throw .running
    | some available, fuel + 1 => do
      let next ← transmitOnce (getResponse available)
      collect fuel ⟨response.data ++ next.data, next.status⟩

/-- The command resent after `6Cxx`. `6C00` asks for 256. -/
def retry (command : Command) (le : UInt8) : Command :=
  { command with le := some (if le = 0 then 256 else le.toUInt32) }

/-- `Card::call`. -/
def call (fuel : ℕ) (command : Command) : CardM Response := do
  let response ← transmitOnce command
  let response ← match response.status.correctLe with
    | some le => transmitOnce (retry command le)
    | none => pure response
  collect fuel response

/-- `Card::call_ok`. -/
def callOk (fuel : ℕ) (command : Command) : CardM Bytes := do
  let response ← call fuel command
  response.intoData

/-! ### Selecting -/

/-- `Card::select_df`. -/
def selectDf (fuel : ℕ) (name : Bytes) : CardM Unit := do
  if name.isEmpty ∨ name.length > 16 then throw (.err (.invalidDfName name.length))
  -- P1=04: direct selection with a filename. P2=0C: first occurrence, no FCI output.
  let _ ← callOk fuel (.withData Cla.user Ins.selectFile 0x04 0x0C name)

/-- `Card::select_ef`. -/
def selectEf (fuel : ℕ) (id : UInt16) : CardM Unit := do
  -- P1=02: select an EF under the current DF by file ID. P2=0C: no FCI output.
  let _ ← callOk fuel (.withData Cla.user Ins.selectFile 0x02 0x0C (u16Bytes id))

/-! ### Reading transparent files -/

/-- `Card::read_binary_chunk`. -/
def readBinaryChunk (fuel offset : ℕ) (le : UInt32) : CardM Bytes := do
  if offset > maxOffset then throw (.err (.offsetOutOfRange offset))
  -- P1 b8 = 0, so P1-P2 is a 15 bit relative address
  let address := UInt16.ofNat offset
  callOk fuel (.withLe Cla.user Ins.readBinary (address >>> 8).toUInt8 address.toUInt8 le)

/-- The loop of `Card::read_binary`. Its second chunk is only asked for when the first was found at
an offset below `32768`, so the sum of the offset and what has been read stays in `usize`. -/
@[semireducible] def readBinaryLoop (fuel offset length : ℕ) (out : Bytes) : CardM Bytes :=
  if _hmore : out.length < length then do
    let want := min (length - out.length) maxChunk
    match ← attempt (readBinaryChunk fuel (offset + out.length) (UInt32.ofNat want)) with
    | .ok chunk =>
      if _hchunk : chunk = [] then pure out
      else readBinaryLoop fuel offset length (out ++ chunk)
    | .error e => if e.isEndOfFile then pure out else throw (.err e)
  else pure out
termination_by length - out.length
decreasing_by
  have := List.length_pos_iff.mpr _hchunk
  rw [List.length_append]
  omega

/-- A turn of the loop. -/
theorem readBinaryLoop_more (fuel offset : ℕ) {length : ℕ} {out : Bytes}
    (hmore : out.length < length) :
    readBinaryLoop fuel offset length out =
      attempt (readBinaryChunk fuel (offset + out.length)
        (UInt32.ofNat (min (length - out.length) maxChunk))) >>= fun
        | .ok chunk =>
          if chunk = [] then pure out else readBinaryLoop fuel offset length (out ++ chunk)
        | .error e => if e.isEndOfFile then pure out else throw (.err e) := by
  rw [readBinaryLoop, dif_pos hmore]
  rfl

theorem readBinaryLoop_done (fuel offset : ℕ) {length : ℕ} {out : Bytes}
    (hdone : ¬ out.length < length) : readBinaryLoop fuel offset length out = pure out := by
  rw [readBinaryLoop, dif_neg hdone]

/-- `Card::read_binary`. -/
def readBinary (pf : Platform) (fuel offset length : ℕ) : CardM Bytes := do
  pf.withCapacity length
  readBinaryLoop fuel offset length []

theorem readBinary_eq (pf : Platform) (fuel offset length : ℕ) :
    readBinary pf fuel offset length =
      if length > isizeMax then throw (.panic .capacityOverflow)
      else if length > pf.allocLimit then throw .abort
      else readBinaryLoop fuel offset length [] := by
  unfold readBinary Platform.withCapacity
  split_ifs <;> rfl

/-- Read on from the end of `out` until the card stops giving bytes: the loop of
`Card::read_binary_physical`, and of the fallback of `Card::read_binary_all`. -/
@[semireducible] def readToEnd (fuel : ℕ) (out : Bytes) : CardM Bytes :=
  if _hmore : out.length ≤ maxOffset then do
    match ← attempt (readBinaryChunk fuel out.length 256) with
    | .ok chunk =>
      if _hchunk : chunk = [] then pure out
      else if chunk.length < maxChunk then pure (out ++ chunk)
      else readToEnd fuel (out ++ chunk)
    | .error e => if e.isEndOfFile then pure out else throw (.err e)
  else pure out
termination_by maxOffset + 1 - out.length
decreasing_by
  have := List.length_pos_iff.mpr _hchunk
  rw [List.length_append]
  omega

/-- A turn of the loop. -/
theorem readToEnd_more (fuel : ℕ) {out : Bytes} (hmore : out.length ≤ maxOffset) :
    readToEnd fuel out =
      attempt (readBinaryChunk fuel out.length 256) >>= fun
        | .ok chunk =>
          if chunk = [] then pure out
          else if chunk.length < maxChunk then pure (out ++ chunk)
          else readToEnd fuel (out ++ chunk)
        | .error e => if e.isEndOfFile then pure out else throw (.err e) := by
  rw [readToEnd, dif_pos hmore]
  rfl

theorem readToEnd_done (fuel : ℕ) {out : Bytes} (hdone : ¬ out.length ≤ maxOffset) :
    readToEnd fuel out = pure out := by
  rw [readToEnd, dif_neg hdone]

/-- What `Card::read_binary_all` does once it has the first chunk: it stops at the end of the object
that begins there, or reads on to it. -/
def readOn (pf : Platform) (fuel : ℕ) (out : Bytes) : CardM Bytes :=
  if out.isEmpty then pure out
  else match Ber.parseHeader out with
    | .ok header => do
      let total ← header.totalLen pf
      if total ≤ out.length then pure (out.take total)
      else do
        let rest ← readBinary pf fuel out.length (total - out.length)
        pure (out ++ rest)
    -- not a TLV file: keep reading until the card stops giving us bytes
    | .error _ => readToEnd fuel out

/-- `Card::read_binary_all`. -/
def readBinaryAll (pf : Platform) (fuel : ℕ) : CardM Bytes := do
  match ← attempt (readBinaryChunk fuel 0 256) with
  | .error e => if e.isEndOfFile then pure [] else throw (.err e)
  | .ok out => readOn pf fuel out

/-- `Card::read_binary_physical`. -/
def readBinaryPhysical (fuel : ℕ) : CardM Bytes := readToEnd fuel []

/-! ### Reading record files -/

/-- `Card::read_record`. -/
def readRecord (fuel : ℕ) (record : UInt8) : CardM Bytes := do
  if record = 0 then throw (.err .invalidRecordNumber)
  callOk fuel (.withLe Cla.user Ins.readRecord record 0x04 256)

/-- `Card::read_records_from`. -/
def readRecordsFrom (fuel : ℕ) (first : UInt8) : CardM Bytes := do
  if first = 0 then throw (.err .invalidRecordNumber)
  callOk fuel (.withLe Cla.user Ins.readRecord first 0x05 256)

/-! ### Data objects and challenges -/

/-- `Card::get_data`. A short `Le` answered `6700` is retried with an extended one. -/
def getData (fuel : ℕ) (tag : UInt16) : CardM Bytes := do
  let p1 := (tag >>> 8).toUInt8
  let p2 := tag.toUInt8
  let response ← call fuel (.withLe Cla.user Ins.getData p1 p2 256)
  if response.status.isSuccess then pure response.data
  else if response.status.value = 0x6700 then
    callOk fuel (.withLe Cla.user Ins.getData p1 p2 65536)
  else throw (.err (.fromStatus response.status))

/-- `Card::contact_atr`. -/
def contactAtr (fuel : ℕ) : CardM Bytes := do
  let stored ← getData fuel 0x5F51
  match stored.getLast? with
  | none => malformed "contact ATR is empty"
  | some tck =>
    let computed := stored.dropLast.foldl (fun acc b => acc ^^^ b) 0
    if computed ≠ tck then
      malformed s!"contact ATR checksum is {hexUpper 2 tck.toNat}, computed {hexUpper 2 computed.toNat}"
    else pure (0x3B :: stored)

/-- `Card::internal_authenticate`. -/
def internalAuthenticate (fuel : ℕ) (sfi : ShortEfId) (challenge : Bytes) : CardM Bytes := do
  if challenge.isEmpty ∨ challenge.length > 255 then
    malformed s!"challenge must be 1 to 255 bytes, got {challenge.length}"
  else
    callOk fuel (.withDataLe Cla.user Ins.internalAuthenticate 0x00 (0x80 ||| sfi.value) challenge
      256)

/-! ### Keys -/

/-- A VERIFY of the key `p2` names. -/
def verifyCommand (p2 : UInt8) (value : Bytes) : Command :=
  .withData Cla.user Ins.verify 0x00 p2 value

/-- `Card::verify`: P2=80 is the key of the current EF. -/
def verify (fuel : ℕ) (pin : Pin) : CardM Unit := do
  let _ ← callOk fuel (verifyCommand 0x80 pin.bytes)

/-- `Card::verify_sfi`. -/
def verifySfi (fuel : ℕ) (sfi : ShortEfId) (pin : Pin) : CardM Unit := do
  let _ ← callOk fuel (verifyCommand (0x80 ||| sfi.value) pin.bytes)

/-- `Card::change_reference_data`. -/
def changeReferenceData (fuel : ℕ) (newPin : Pin) : CardM Unit := do
  let _ ← callOk fuel (.withData Cla.user Ins.changeReferenceData 0x01 0x80 newPin.bytes)

/-- `Card::change_key`. -/
def changeKey (fuel : ℕ) (newPin : Pin) : CardM Unit := do
  let _ ← callOk fuel (.withData Cla.system Ins.changeKey 0x00 0x80 newPin.bytes)

/-- `Card::pin_retries`. -/
def pinRetries (fuel : ℕ) : CardM Retries := do
  let response ← call fuel (Command.new Cla.user Ins.verify 0x00 0x80)
  interpretRetries response.status

/-- `Card::pin_retries_sfi`. -/
def pinRetriesSfi (fuel : ℕ) (sfi : ShortEfId) : CardM Retries := do
  let response ← call fuel (Command.new Cla.user Ins.verify 0x00 (0x80 ||| sfi.value))
  interpretRetries response.status

end Card

end MynaCard
