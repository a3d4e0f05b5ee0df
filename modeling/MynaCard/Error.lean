import MynaCard.Bytes

/-!
# Status words, errors, and how a call can end

`apdu.rs` (`StatusWord`), `error.rs`, and the two value types an error can carry (`KeyId` of
`data.rs`, `SignatureScheme` of `ap/jpki.rs`).

A call of the crate does not only return `Ok` or `Err`. Arithmetic on a length field can overflow,
which panics in a build with overflow checks and wraps in one without; `Vec::with_capacity` panics
on a capacity no allocation can have, and aborts on one the machine does not give; and the loop that
collects a chained response may not have ended yet. `Stop` names these ends beside `Err`, and `Run α`
is a call that gives an `α` or stops.
-/

namespace MynaCard

/-! ### Status words -/

/-- A status word (SW1-SW2). -/
structure StatusWord where
  value : UInt16
  deriving DecidableEq, Repr

namespace StatusWord

/-- Normal end of processing. -/
def success : StatusWord := ⟨0x9000⟩

def sw1 (sw : StatusWord) : UInt8 := (sw.value >>> 8).toUInt8

def sw2 (sw : StatusWord) : UInt8 := sw.value.toUInt8

def isSuccess (sw : StatusWord) : Bool := sw.value == 0x9000

/-- Decode `61xx`, where `xx` is the number of bytes available via GET RESPONSE, zero included. -/
def moreDataAvailable (sw : StatusWord) : Option UInt8 :=
  if sw.sw1 = 0x61 then some sw.sw2 else none

/-- Decode `6Cxx`, where `xx` is the correct short `Le`, zero included. -/
def correctLe (sw : StatusWord) : Option UInt8 :=
  if sw.sw1 = 0x6C then some sw.sw2 else none

/-- 63Cx: verification failed and x attempts remain. -/
def retriesRemaining (sw : StatusWord) : Option UInt8 :=
  if sw.value &&& 0xFFF0 = 0x63C0 then some (sw.sw2 &&& 0x0F) else none

/-- The status word two bytes off the wire make. -/
def ofBytes (hi lo : UInt8) : StatusWord := ⟨u16OfBytes hi lo⟩

@[simp] theorem sw1_ofBytes (hi lo : UInt8) : (ofBytes hi lo).sw1 = hi := by
  have h := u16Bytes_u16OfBytes hi lo
  simp only [u16Bytes, List.cons.injEq] at h
  exact h.1

@[simp] theorem sw2_ofBytes (hi lo : UInt8) : (ofBytes hi lo).sw2 = lo := by
  have h := u16Bytes_u16OfBytes hi lo
  simp only [u16Bytes, List.cons.injEq] at h
  exact h.2.1

theorem ofBytes_sw1_sw2 (sw : StatusWord) : ofBytes sw.sw1 sw.sw2 = sw := by
  cases sw
  exact congrArg StatusWord.mk (u16OfBytes_u16Bytes _)

theorem isSuccess_iff (sw : StatusWord) : sw.isSuccess = true ↔ sw = success := by
  cases sw
  simp [isSuccess, success]

end StatusWord

/-! ### Values an error can carry -/

/-- A 16 byte key identifier. Equality is on all 16 bytes. -/
structure KeyId where
  bytes : Bytes
  length_eq : bytes.length = 16
  deriving DecidableEq, Repr

/-- The 方式種別 in P1 of the card's signing command. -/
inductive SignatureScheme
  | verbatim
  | sha256Bare
  | preHashedDigestInfo
  | sha256DigestInfo
  | preHashedPss
  | sha256Pss
  deriving DecidableEq, Repr

/-- `Error`. The payload of `pcsc` is the number of the PC/SC layer's own error. -/
inductive Error
  | pcsc (code : UInt32)
  | noReader
  | readerNotFound (name : String)
  | status (sw : StatusWord)
  | shortResponse (len : ℕ)
  | dataTooLong (len : ℕ)
  | expectedLengthOutOfRange (le : UInt32)
  | pinIncorrect (retries : Option UInt8)
  | pinBlocked
  | invalidPin (what : String)
  | offsetOutOfRange (offset : ℕ)
  | invalidDfName (len : ℕ)
  | noShortEfId (id : UInt16)
  | invalidRecordNumber
  | badSigningInput (scheme : SignatureScheme) (len : ℕ)
  | unknownCertificateAuthority (id : KeyId)
  | signatureInvalid (what : String)
  | malformed (what : String)
  deriving DecidableEq, Repr

/-- Classify a status word, routing the ones the crate understands to dedicated variants and
everything else to `Error.status`. -/
def Error.fromStatus (sw : StatusWord) : Error :=
  if sw.value = 0x63C0 ∨ sw.value = 0x6984 then .pinBlocked
  else if sw.value = 0x6300 then .pinIncorrect none
  else match sw.retriesRemaining with
    | some retries => .pinIncorrect (some retries)
    | none => .status sw

/-! ### How a call ends -/

/-- What a Rust panic of this crate's own code can be about. -/
inductive Panic
  /-- a sum of lengths that does not fit `usize`, in a build with overflow checks -/
  | usizeOverflow
  /-- the message counter, in a build with overflow checks -/
  | counterOverflow
  /-- `Vec::with_capacity` of more than `isize::MAX` bytes -/
  | capacityOverflow
  deriving DecidableEq, Repr

/-- Every way a call can fail to give a value. -/
inductive Stop
  /-- the call returned `Err(e)` -/
  | err (e : Error)
  | panic (why : Panic)
  /-- the allocator refused what `Vec::with_capacity` asked for, and the process is aborted -/
  | abort
  /-- the call has not returned within the number of GET RESPONSE rounds it was observed for -/
  | running
  deriving DecidableEq, Repr

/-- A call that gives an `α` or stops. -/
abbrev Run := Except Stop

/-- `return Err(Error::Malformed(what))`. -/
def malformed {α : Type} (what : String) : Run α := .error (.err (.malformed what))

/-- `Option::ok_or_else(|| malformed(what))`. -/
def orMalformed {α : Type} (what : String) : Option α → Run α
  | some a => .ok a
  | none => malformed what

theorem orMalformed_eq_ok {α : Type} {what : String} {o : Option α} {a : α} :
    orMalformed what o = .ok a ↔ o = some a := by
  cases o <;> simp [orMalformed, malformed]

/-- The call has not come back: it panicked or was aborted, or is still running. -/
def Run.isLost {α : Type} : Run α → Bool
  | .error (.panic _) => true
  | .error .abort => true
  | .error .running => true
  | _ => false

/-- The first step of a computation that succeeds has succeeded. -/
theorem Run.bind_eq_ok {α β : Type} {x : Run α} {f : α → Run β} {b : β} :
    (x >>= f) = .ok b ↔ ∃ a, x = .ok a ∧ f a = .ok b := by
  cases x with
  | error e => simp [bind, Except.bind]
  | ok a => simp [bind, Except.bind]

theorem Run.seq_eq_ok {β : Type} {x : Run Unit} {y : Run β} {b : β} :
    (x >>= fun _ => y) = .ok b ↔ x = .ok () ∧ y = .ok b := by
  rw [Run.bind_eq_ok]
  exact ⟨fun ⟨_, h⟩ => h, fun h => ⟨(), h⟩⟩

/-! ### Machine arithmetic -/

/-- Whether the build checks arithmetic for overflow (`-C overflow-checks`). -/
inductive OverflowChecks
  | on
  | off
  deriving DecidableEq, Repr

/-- One more than `usize::MAX`, `usize` being 64 bits wide. -/
def usizeSize : ℕ := 2 ^ 64

/-- `isize::MAX`, the most bytes one allocation can have. -/
def isizeMax : ℕ := 2 ^ 63 - 1

/-- A build of the crate and the machine it runs on: whether arithmetic is checked, and the most
bytes the allocator gives at once. What is read of one file has room. -/
structure Platform where
  overflowChecks : OverflowChecks
  allocLimit : ℕ
  le_allocLimit : 0x8000 ≤ allocLimit
  allocLimit_le : allocLimit ≤ isizeMax

namespace Platform

instance : Coe Platform OverflowChecks := ⟨Platform.overflowChecks⟩

/-- A build with overflow checks, on a machine that gives whatever an allocation can have. -/
def checked : Platform := ⟨.on, isizeMax, by decide, le_refl isizeMax⟩

/-- The same machine, with a build that checks arithmetic or does not. -/
def withChecks (pf : Platform) (oc : OverflowChecks) : Platform := { pf with overflowChecks := oc }

@[simp] theorem withChecks_overflowChecks (pf : Platform) (oc : OverflowChecks) :
    (pf.withChecks oc).overflowChecks = oc := rfl

/-- `Vec::with_capacity(capacity)`, for bytes. -/
def withCapacity (pf : Platform) (capacity : ℕ) : Run Unit :=
  if capacity > isizeMax then .error (.panic .capacityOverflow)
  else if capacity > pf.allocLimit then .error .abort
  else .ok ()

theorem withCapacity_of_le (pf : Platform) {capacity : ℕ} (h : capacity ≤ pf.allocLimit) :
    pf.withCapacity capacity = .ok () := by
  have hmax := pf.allocLimit_le
  rw [withCapacity, if_neg (by omega), if_neg (by omega)]

theorem withCapacity_of_lt (pf : Platform) {capacity : ℕ} (h : pf.allocLimit < capacity) :
    pf.withCapacity capacity = .error (.panic .capacityOverflow) ∨
      pf.withCapacity capacity = .error .abort := by
  unfold withCapacity
  split_ifs
  · exact .inl rfl
  · exact .inr rfl

theorem withCapacity_eq_ok_iff {pf : Platform} {capacity : ℕ} {u : Unit} :
    pf.withCapacity capacity = .ok u ↔ capacity ≤ pf.allocLimit := by
  refine ⟨fun h => ?_, pf.withCapacity_of_le⟩
  unfold withCapacity at h
  split_ifs at h
  omega

end Platform

/-- `a + b` at type `usize`. -/
def usizeAdd (oc : OverflowChecks) (a b : ℕ) : Run ℕ :=
  if a + b < usizeSize then .ok (a + b)
  else match oc with
    | .on => .error (.panic .usizeOverflow)
    | .off => .ok ((a + b) % usizeSize)

/-- `counter += 1` at type `u32`. -/
def counterSucc (oc : OverflowChecks) (n : UInt32) : Run UInt32 :=
  if n.toNat + 1 < 2 ^ 32 then .ok (n + 1)
  else match oc with
    | .on => .error (.panic .counterOverflow)
    | .off => .ok (n + 1)

theorem usizeAdd_of_lt (oc : OverflowChecks) {a b : ℕ} (h : a + b < usizeSize) :
    usizeAdd oc a b = .ok (a + b) := if_pos h

theorem usizeAdd_of_overflow (oc : OverflowChecks) {a b : ℕ} (h : usizeSize ≤ a + b) :
    usizeAdd oc a b = .error (.panic .usizeOverflow) ∨
      usizeAdd oc a b = .ok ((a + b) % usizeSize) := by
  unfold usizeAdd
  rw [if_neg (by omega)]
  cases oc with
  | on => exact .inl rfl
  | off => exact .inr rfl

end MynaCard
