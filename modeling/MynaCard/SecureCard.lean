import MynaCard.KeyCard
import MynaCard.ReadAgreement

/-!
# A card that keeps a session

An application of a card: its keys, its files, and the EF that is current.
`Application.Serves` says what it makes of a request that came through a session, whatever the card
is otherwise. `KeepsSession` says of any party that it has such an application behind a session: it
reads the data object of a command with `CLA=08` under the key and the counter it is at, counts the
command, and encrypts what it answers.

`call_runOn` is one secure command against such a party. The session and the card are at the same
counter before it and after it, and what the application is asked is what the session meant.
-/

namespace MynaCard

open Dialogue

/-! ### The application -/

/-- An application of a card. A file has to be made readable, by presentations, before it is read. -/
structure Application where
  keys : UInt16 → Option Key
  files : UInt16 → Option Bytes
  readable : UInt16 → Bool
  current : Option UInt16

/-- What a secure command asks of the application. -/
inductive SecureRequest
  | present (id : UInt16) (value : Bytes)
  | select (id : UInt16)
  | read (offset length : ℕ)

/-- A response that says no, and not because of the session. -/
structure Response.Refuses (r : Response) : Prop where
  data_eq : r.data = []
  status_ne : r.status ≠ .success
  correctLe_eq : r.status.correctLe = none
  moreDataAvailable_eq : r.status.moreDataAvailable = none
  not_session : isSecureMessagingError r.status = false

namespace Application

variable (a : Application)

/-- What there is to read in an EF at present. -/
def opened (id : UInt16) : Option Bytes := if a.readable id then a.files id else none

/-- Whether there is an EF of the identifier. -/
def Holds (id : UInt16) : Prop := a.files id ≠ none ∨ a.keys id ≠ none

/-- The application after a presentation to a key. Which files it makes readable is up to the
card, and so is the EF that is then current. -/
def presented (id : UInt16) (key : Key) (readable : UInt16 → Bool) (current : Option UInt16) :
    Application :=
  { a with keys := Function.update a.keys id (some key), readable := readable, current := current }

def goTo (current : Option UInt16) : Application := { a with current := current }

@[simp] theorem presented_files (id : UInt16) (key : Key) (readable : UInt16 → Bool)
    (current : Option UInt16) : (a.presented id key readable current).files = a.files := rfl

@[simp] theorem goTo_files (current : Option UInt16) : (a.goTo current).files = a.files := rfl

@[simp] theorem goTo_opened (current : Option UInt16) (id : UInt16) :
    (a.goTo current).opened id = a.opened id := rfl

/-- How much a READ BINARY asks for: zero stands for everything there is. -/
def asked (file : Bytes) (length : ℕ) : ℕ := if length = 0 then file.length else length

/-- What the application answers to a request, and what it is then. -/
inductive Serves : SecureRequest → Response → Application → Prop
  | presented {id : UInt16} {value : Bytes} {key : Key} (readable : UInt16 → Bool)
      (current : Option UInt16) (hkey : a.keys id = some key) :
      Serves (.present id value) ⟨[], (key.present value).1.status⟩
        (a.presented id (key.present value).2 readable current)
  | noKey {id : UInt16} {value : Bytes} {r : Response} (hkey : a.keys id = none)
      (hr : r.Refuses) : Serves (.present id value) r a
  | selected {id : UInt16} (hid : a.Holds id) :
      Serves (.select id) ⟨[], .success⟩ (a.goTo (some id))
  | notSelected {id : UInt16} {r : Response} (current : Option UInt16) (hid : ¬ a.Holds id)
      (hr : r.Refuses) : Serves (.select id) r (a.goTo current)
  | read {offset length : ℕ} {id : UInt16} {file : Bytes} {r : Response}
      (hcurrent : a.current = some id) (hfile : a.opened id = some file)
      (hr : InPart file offset (asked file length) r) : Serves (.read offset length) r a
  | notRead {offset length : ℕ} {r : Response} (hfile : a.current.bind a.opened = none)
      (hr : r.Refuses) : Serves (.read offset length) r a

end Application

/-! ### The card -/

/-- A card with an application selected and the session it is in, if it is in one: the session's
key, and the counter of the next secure command. -/
structure SecureCard where
  app : Application
  session : Option (Block × UInt32)

/-- What the card makes of a secure command, in a session that is at `n` under `key`. -/
def SecureRequest.ofCommand (aes : Aes128) (key : Block) (n : UInt32) (c : Command) :
    Option SecureRequest :=
  if c.ins = Ins.readBinary then
    (expectedLength c.data).map fun length => .read (u16OfBytes c.p1 c.p2).toNat length
  else
    match parseCryptogram .off c.data >>= aes.decrypt key n with
    | .error _ => none
    | .ok value =>
      if c.ins = Ins.verify ∧ 0x80 < c.p2 ∧ c.p2 ≤ 0x9E then
        some (.present (c.p2 - 0x80).toUInt16 value)
      else if c.ins = Ins.selectFile ∧ c.p1 = 0x02 then
        some (.select (UInt16.ofNat (bigEndian value)))
      else none

/-- A response as it is sent: what there is of data is encrypted. -/
def Response.secured (aes : Aes128) (key : Block) (n : UInt32) (r : Response) : Response :=
  if r.data = [] then r else ⟨cryptogramObject (aes.encrypt key n r.data), r.status⟩

@[simp] theorem Response.secured_status (aes : Aes128) (key : Block) (n : UInt32) (r : Response) :
    (r.secured aes key n).status = r.status := by
  unfold Response.secured
  split_ifs
  · rfl
  · rfl

/-- A command that has nothing to do with the session: a plain one that neither selects an
application nor delivers a key. -/
def Command.IsPlain (c : Command) : Prop :=
  c.cla ≠ Cla.smWithoutIntegrity ∧ c.ins ≠ Ins.setSessionKey ∧ ¬ c.EntersDf

section

variable {τ : Type}

/-- The party keeps a session, with an application behind it. Plain commands may present to keys,
and so change what is readable, but leave the session and the files alone. -/
structure KeepsSession (aes : Aes128) (answer : Bytes → τ → Answer × τ) (view : τ → SecureCard) :
    Prop where
  secure : ∀ s c key n request, c.Valid → c.cla = Cla.smWithoutIntegrity →
    (view s).session = some (key, n) → SecureRequest.ofCommand aes key n c = some request →
      Answers answer s c fun r s' => ∃ plain, r = plain.secured aes key n ∧
        (view s).app.Serves request plain (view s').app ∧ (view s').session = some (key, n + 1)
  plain : ∀ s apdu, Encodes Command.IsPlain apdu →
    (view (answer apdu s).2).session = (view s).session ∧
      (view (answer apdu s).2).app.files = (view s).app.files
  untouched : ∀ s apdu, Encodes (fun c => c.IsPlain ∧ ¬ c.TouchesKeys) apdu →
    (view (answer apdu s).2).app.keys = (view s).app.keys ∧
      (view (answer apdu s).2).app.readable = (view s).app.readable

/-- The session is at the card's counter, under the card's key. -/
structure SameSession (s : SecureSession) (card : SecureCard) : Prop where
  session_eq : card.session = some (s.key, s.counter)
  unbroken : s.broken = false

/-! ### What the card reads is what the session wrote -/

variable {aes : Aes128} {s : SecureSession}

theorem ofCommand_encrypted {key : Block} {n : UInt32} {ins p1 p2 : UInt8} {value : Bytes}
    (hins : ins ≠ Ins.readBinary) (hlen : value.length ≤ 16) :
    SecureRequest.ofCommand aes key n (.withData Cla.smWithoutIntegrity ins p1 p2
        (cryptogramObject (aes.encrypt key n value))) =
      if ins = Ins.verify ∧ 0x80 < p2 ∧ p2 ≤ 0x9E then
        some (.present (p2 - 0x80).toUInt16 value)
      else if ins = Ins.selectFile ∧ p1 = 0x02 then
        some (.select (UInt16.ofNat (bigEndian value)))
      else none := by
  have hpad := pad_length value
  have hread : (parseCryptogram .off (cryptogramObject (aes.encrypt key n value)) >>=
      aes.decrypt key n) = .ok value := by
    rw [parseCryptogram_cryptogramObject .off (by rw [aes.encrypt_length]; omega)]
    exact aes.decrypt_encrypt key n value
  unfold SecureRequest.ofCommand
  rw [if_neg (by exact hins)]
  show (match parseCryptogram .off (cryptogramObject (aes.encrypt key n value)) >>=
    aes.decrypt key n with | .error _ => none | .ok value => _) = _
  rw [hread]
  rfl

theorem sfi_p2 (sfi : ShortEfId) :
    (0x80 < 0x80 ||| sfi.value ∧ 0x80 ||| sfi.value ≤ 0x9E) ∧
      (0x80 ||| sfi.value) - 0x80 = sfi.value := by
  obtain ⟨value, hpos, hle⟩ := sfi
  have hall : ∀ v : UInt8, 1 ≤ v.toNat → v.toNat ≤ 0x1E →
      (0x80 < 0x80 ||| v ∧ 0x80 ||| v ≤ 0x9E) ∧ (0x80 ||| v) - 0x80 = v := by
    decide +kernel
  exact hall value hpos hle

/-- The short identifier of an EF is its identifier. -/
theorem ShortEfId.toUInt16_of_fromEfId {id : UInt16} {sfi : ShortEfId}
    (h : ShortEfId.fromEfId id = .ok sfi) : sfi.value.toUInt16 = id := by
  unfold ShortEfId.fromEfId at h
  split at h
  · rename_i hrange
    obtain rfl := Except.ok.inj h
    apply UInt16.toNat_inj.mp
    show id.toUInt8.toUInt16.toNat = id.toNat
    rw [UInt8.toNat_toUInt16, UInt16.toNat_toUInt8]
    omega
  · cases h

theorem ofCommand_verify {id : UInt16} {sfi : ShortEfId} (h : ShortEfId.fromEfId id = .ok sfi)
    (value : Pin) :
    SecureRequest.ofCommand aes s.key s.counter (SecureSession.verifyCommand aes s sfi value) =
      some (.present id value.bytes) := by
  obtain ⟨hrange, hback⟩ := sfi_p2 sfi
  rw [SecureSession.verifyCommand, ofCommand_encrypted (by decide) value.length_le,
    if_pos ⟨rfl, hrange⟩, hback, ShortEfId.toUInt16_of_fromEfId h]

theorem ofCommand_selectEf (id : UInt16) :
    SecureRequest.ofCommand aes s.key s.counter (SecureSession.selectEfCommand aes s id) =
      some (.select id) := by
  rw [SecureSession.selectEfCommand, ofCommand_encrypted (by decide) (by simp),
    if_neg (fun h => absurd h.1 (by decide)), if_pos ⟨rfl, rfl⟩, bigEndian_u16Bytes,
    UInt16.ofNat_toNat]

theorem ofCommand_readBinary (offset length : UInt16) :
    SecureRequest.ofCommand aes s.key s.counter
        (SecureSession.readBinaryCommand offset length) =
      some (.read offset.toNat length.toNat) := by
  show some (SecureRequest.read
    (u16OfBytes (offset >>> 8).toUInt8 offset.toUInt8).toNat
    (u16OfBytes (length >>> 8).toUInt8 length.toUInt8).toNat) = _
  rw [u16OfBytes_u16Bytes, u16OfBytes_u16Bytes]

/-! ### One secure command -/

/-- Every status word that counts attempts is about the application. -/
theorem counted_not_session : ∀ left < 16,
    isSecureMessagingError ⟨0x63C0 + UInt16.ofNat left⟩ = false := by
  decide

theorem verdict_not_session (key : Key) (value : Bytes) :
    isSecureMessagingError (key.present value).1.status = false := by
  cases hverdict : (key.present value).1 with
  | accepted => rfl
  | blocked => rfl
  | refused left =>
    cases left with
    | none => rfl
    | some left => exact counted_not_session left (Key.refused_lt hverdict)

/-- Nothing the application says ends the session. -/
theorem Application.Serves.not_session {a a' : Application} {request : SecureRequest}
    {r : Response} (h : a.Serves request r a') : isSecureMessagingError r.status = false := by
  cases h with
  | presented readable current hkey => exact verdict_not_session _ _
  | noKey hkey hr => exact hr.not_session
  | selected hid => rfl
  | notSelected current hid hr => exact hr.not_session
  | read hcurrent hfile hr =>
    cases hr with
    | within hne hpre => rfl
    | past hpast => rfl
  | notRead hfile hr => exact hr.not_session

variable {answer : Bytes → τ → Answer × τ} {view : τ → SecureCard} {σ : τ}

namespace KeepsSession

variable (h : KeepsSession aes answer view) (oc : OverflowChecks) (fuel : ℕ)

include h

/-- A secure command whose count fits the counter. -/
theorem call_runOn {c : Command} {request : SecureRequest} (hc : SessionCommand aes s c)
    (hrequest : SecureRequest.ofCommand aes s.key s.counter c = some request)
    (hs : SameSession s (view σ)) (hroom : s.counter.toNat + 1 < 2 ^ 32) :
    ∃ plain σ', (SecureSession.call oc fuel c).runOn answer s σ =
        (((plain.secured aes s.key s.counter).intoData, s.advanced plain.status), σ') ∧
      (view σ).app.Serves request plain (view σ').app ∧
      SameSession (s.advanced plain.status) (view σ') := by
  obtain ⟨r, σ', hcall, plain, rfl, hserves, hsession⟩ :=
    (h.secure σ c s.key s.counter request hc.valid hc.cla_eq hs.session_eq hrequest).call fuel
      hc.valid
  have hlifted : (liftCard (Card.call fuel c)).runOn answer s σ =
      ((.ok (plain.secured aes s.key s.counter), s), σ') := by
    rw [runOn_liftCard, hcall]
  have hadvance : (SecureSession.advance oc (plain.secured aes s.key s.counter).status).runOn answer
      s σ' = ((.ok (), s.advanced plain.status), σ') := by
    have hsucc : counterSucc oc s.counter = .ok (s.counter + 1) := if_pos hroom
    rw [Response.secured_status]
    show Dialogue.run _ (SecureSession.advance oc plain.status s) _ = _
    rw [SecureSession.advance_of_ok _ hsucc]
    rfl
  refine ⟨plain, σ', ?_, hserves, hsession, ?_⟩
  · rw [SecureSession.call, runOn_get_bind, if_neg (by rw [hs.unbroken]; simp),
      runOn_bind_ok hlifted, runOn_bind_ok hadvance, runOn_liftRun]
  · show (s.broken || isSecureMessagingError plain.status) = false
    rw [hs.unbroken, hserves.not_session]
    rfl

end KeepsSession

end

end MynaCard
