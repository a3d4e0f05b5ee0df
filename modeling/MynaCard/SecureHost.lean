import MynaCard.KeyRuns
import MynaCard.Oaep
import MynaCard.SecurePresentations
import MynaCard.WrittenFiles

/-!
# One card that keeps a session

A card with one application, its files opened by any key. It answers what comes through its session
and what comes in the clear from the same application, and deciphers what is delivered to it with
`decryptOaep`. It keeps a session, so what holds of every such party holds of it.
-/

namespace MynaCard

open Dialogue

/-! ### The application -/

namespace Application

variable (a : Application)

/-- The application after a presentation of `value` to `key`. A value that is let in opens the
files. -/
def afterPresent (id : UInt16) (key : Key) (value : Bytes) : Application :=
  a.presented id (key.present value).2
    (fun id' => decide ((key.present value).1 = .accepted) || a.readable id') a.current

/-- How much the card gives of a file at a time. -/
def atOnce (file : Bytes) : ℕ := if file.length < 0x100 then 10 else 0x100

/-- What the application answers. -/
def serve : SecureRequest → Response × Application
  | .present id value =>
    (a.keys id).elim (⟨[], ⟨0x6A88⟩⟩, a) fun key =>
      (⟨[], (key.present value).1.status⟩, a.afterPresent id key value)
  | .select id =>
    if (a.files id).isSome || (a.keys id).isSome then (⟨[], .success⟩, a.goTo (some id))
    else (⟨[], ⟨0x6A82⟩⟩, a)
  | .read offset length =>
    (a.current.bind a.opened).elim (⟨[], ⟨0x6982⟩⟩, a) fun file =>
      (if offset < file.length then
          ⟨((file.drop offset).take (asked file length)).take (atOnce file), .success⟩
        else ⟨[], ⟨0x6B00⟩⟩, a)

theorem refuses_of_status {sw : StatusWord}
    (h : sw = ⟨0x6A88⟩ ∨ sw = ⟨0x6A82⟩ ∨ sw = ⟨0x6982⟩) : (Response.mk [] sw).Refuses := by
  rcases h with rfl | rfl | rfl
  all_goals exact ⟨rfl, by decide, by decide, by decide, by decide⟩

/-- What it answers is what an application answers. -/
theorem serve_serves (request : SecureRequest) :
    a.Serves request (a.serve request).1 (a.serve request).2 := by
  cases request with
  | present id value =>
    cases hkey : a.keys id with
    | none =>
      rw [serve, hkey]
      exact .noKey hkey (refuses_of_status (.inl rfl))
    | some key =>
      rw [serve, hkey]
      exact .presented _ _ hkey
  | select id =>
    rw [serve]
    split
    · rename_i hsome
      refine .selected ?_
      rw [Bool.or_eq_true, Option.isSome_iff_ne_none, Option.isSome_iff_ne_none] at hsome
      exact hsome
    · rename_i hnone
      refine .notSelected a.current ?_ (refuses_of_status (.inr (.inl rfl)))
      rw [Bool.or_eq_true, Option.isSome_iff_ne_none, Option.isSome_iff_ne_none] at hnone
      exact hnone
  | read offset length =>
    cases hfile : a.current.bind a.opened with
    | none =>
      rw [serve, hfile]
      exact .notRead hfile (refuses_of_status (.inr (.inr rfl)))
    | some file =>
      obtain ⟨id, hcurrent, hopened⟩ := Option.bind_eq_some_iff.mp hfile
      rw [serve, hfile]
      refine .read hcurrent hopened ?_
      show InPart file offset _ (if offset < file.length then _ else _)
      split
      · rename_i hwithin
        refine .within ?_ (List.take_prefix _ _)
        apply List.ne_nil_of_length_pos
        rw [List.length_take, List.length_take, List.length_drop]
        unfold asked atOnce
        split_ifs <;> omega
      · rename_i hpast
        exact .past (by omega)

theorem success_final : StatusWord.success.correctLe = none ∧
    StatusWord.success.moreDataAvailable = none := ⟨rfl, rfl⟩

theorem Serves.final {a a' : Application} {request : SecureRequest} {r : Response}
    (h : a.Serves request r a') :
    r.status.correctLe = none ∧ r.status.moreDataAvailable = none := by
  cases h with
  | presented readable current hkey => exact KeyCard.verdict_final _ _
  | noKey hkey hr => exact ⟨hr.correctLe_eq, hr.moreDataAvailable_eq⟩
  | selected hid => exact ⟨rfl, rfl⟩
  | notSelected current hid hr => exact ⟨hr.correctLe_eq, hr.moreDataAvailable_eq⟩
  | read hcurrent hfile hr =>
    cases hr with
    | within hne hpre => exact ⟨success_final.1, success_final.2⟩
    | past hpast => exact ⟨by decide, by decide⟩
  | notRead hfile hr => exact ⟨hr.correctLe_eq, hr.moreDataAvailable_eq⟩

/-- Nothing but a presentation changes the keys or what can be read. -/
theorem Serves.untouched {a a' : Application} {request : SecureRequest} {r : Response}
    (h : a.Serves request r a') (hnot : ∀ id value, request ≠ .present id value) :
    a'.keys = a.keys ∧ a'.readable = a.readable := by
  cases h with
  | presented readable current hkey => exact absurd rfl (hnot _ _)
  | noKey | selected | notSelected | read | notRead => exact ⟨rfl, rfl⟩

end Application

/-! ### The card -/

namespace SecureCard

/-- The session key in a message that delivers one. -/
def sessionKeyOf (message : Bytes) : Option Block :=
  if h : message.length = 36 ∧ message.take 4 = [0xA0, 0x22, 0x80, 0x20] then
    some ⟨(message.drop 4).take 16, by rw [List.length_take, List.length_drop]; omega⟩
  else none

/-- What is asked of the application in the clear. -/
def plainRequest (c : Command) : Option SecureRequest :=
  if c.ins = Ins.verify ∧ c.data ≠ [] ∧ 0x80 < c.p2 ∧ c.p2 ≤ 0x9E then
    some (.present (c.p2 - 0x80).toUInt16 c.data)
  else if c.ins = Ins.selectFile ∧ c.p1 = 0x02 then
    some (.select (UInt16.ofNat (bigEndian c.data)))
  else if c.ins = Ins.readBinary then
    some (.read (u16OfBytes c.p1 c.p2).toNat (c.le.elim 0 UInt32.toNat))
  else none

variable (aes : Aes128) (decryptOaep : Bytes → Option Bytes)

/-- What the card answers to a command, and the card afterwards. A secure command it cannot make
sense of ends the session, and so does selecting an application. -/
def respond (c : Command) (card : SecureCard) : Response × SecureCard :=
  if c.cla = Cla.smWithoutIntegrity then
    card.session.elim (⟨[], ⟨0x69FC⟩⟩, card) fun session =>
      (SecureRequest.ofCommand aes session.1 session.2 c).elim
        (⟨[], ⟨0x6988⟩⟩, { card with session := none }) fun request =>
          ((card.app.serve request).1.secured aes session.1 session.2,
            ⟨(card.app.serve request).2, some (session.1, session.2 + 1)⟩)
  else if c.ins = Ins.setSessionKey then
    ((decryptOaep c.data).bind sessionKeyOf).elim (⟨[], ⟨0x6A80⟩⟩, card) fun key =>
      (⟨[], .success⟩, { card with session := some (key, 1) })
  else if c.ins = Ins.selectFile ∧ c.p1 = 0x04 then (⟨[], .success⟩, { card with session := none })
  else
    (plainRequest c).elim (⟨[], .success⟩, card) fun request =>
      ((card.app.serve request).1, { card with app := (card.app.serve request).2 })

/-- The card as the other end of a transport. -/
def transmit (apdu : Bytes) (card : SecureCard) : Answer × SecureCard :=
  (decoded apdu).elim (.ok (Response.toBytes ⟨[], ⟨0x6700⟩⟩), card) fun c =>
    (.ok (respond aes decryptOaep c card).1.toBytes, (respond aes decryptOaep c card).2)

theorem transmit_of_decoded {apdu : Bytes} {c : Command} (h : decoded apdu = some c)
    (card : SecureCard) : transmit aes decryptOaep apdu card =
      (.ok (respond aes decryptOaep c card).1.toBytes, (respond aes decryptOaep c card).2) := by
  rw [transmit, h]
  rfl

/-- What the card answers to a plain command. -/
theorem respond_plain {c : Command} (hc : c.IsPlain) (card : SecureCard) :
    respond aes decryptOaep c card =
      (plainRequest c).elim (⟨[], .success⟩, card) fun request =>
        ((card.app.serve request).1, { card with app := (card.app.serve request).2 }) := by
  obtain ⟨hcla, hins, hdf⟩ := hc
  rw [respond, if_neg hcla, if_neg hins]
  exact if_neg hdf

theorem plainRequest_of_untouched {c : Command} (hc : ¬ c.TouchesKeys) {request : SecureRequest}
    (h : plainRequest c = some request) (id : UInt16) (value : Bytes) :
    request ≠ .present id value := by
  rintro rfl
  unfold plainRequest at h
  split at h
  · rename_i hverify
    exact hc (.inl ⟨hverify.1, hverify.2.1⟩)
  · split at h
    · cases h
    · split at h
      · cases h
      · cases h

/-- The card keeps its session. -/
theorem transmit_keepsSession :
    KeepsSession aes (transmit aes decryptOaep) fun card => card where
  secure card c key n request hv hcla hsession hrequest := by
    have hserves := card.app.serve_serves request
    have hrespond : respond aes decryptOaep c card =
        ((card.app.serve request).1.secured aes key n,
          ⟨(card.app.serve request).2, some (key, n + 1)⟩) := by
      rw [respond, if_pos hcla, hsession, Option.elim_some, hrequest]
      rfl
    refine ⟨(card.app.serve request).1.secured aes key n,
      ⟨(card.app.serve request).2, some (key, n + 1)⟩, ?_, ?_, ?_,
      (card.app.serve request).1, rfl, hserves, rfl⟩
    · rw [transmit_of_decoded aes decryptOaep (decoded_encoding hv), hrespond]
    · rw [Response.secured_status]
      exact hserves.final.1
    · rw [Response.secured_status]
      exact hserves.final.2
  plain card apdu hapdu := by
    obtain ⟨c, hc, hplain⟩ := hapdu
    rw [transmit_of_decoded aes decryptOaep hc, respond_plain aes decryptOaep hplain]
    cases hrequest : plainRequest c with
    | none => exact ⟨rfl, rfl⟩
    | some request => exact ⟨rfl, (card.app.serve_serves request).files_eq⟩
  untouched card apdu hapdu := by
    obtain ⟨c, hc, hplain, hnot⟩ := hapdu
    rw [transmit_of_decoded aes decryptOaep hc, respond_plain aes decryptOaep hplain]
    cases hrequest : plainRequest c with
    | none => exact ⟨rfl, rfl⟩
    | some request =>
      exact (card.app.serve_serves request).untouched (plainRequest_of_untouched hnot hrequest)

theorem sessionKeyOf_eq_some {message : Bytes} {key : Block} (h : sessionKeyOf message = some key) :
    ∃ rest : Block, message = [0xA0, 0x22, 0x80, 0x20] ++ key.1 ++ rest.1 := by
  unfold sessionKeyOf at h
  split at h
  · rename_i hmessage
    obtain ⟨hlen, hfront⟩ := hmessage
    obtain rfl := Option.some.inj h
    refine ⟨⟨(message.drop 4).drop 16, by rw [List.length_drop, List.length_drop]; omega⟩, ?_⟩
    show message = _ ++ (message.drop 4).take 16 ++ (message.drop 4).drop 16
    rw [List.append_assoc, List.take_append_drop, ← hfront, List.take_append_drop]
  · cases h

theorem respond_setSessionKey (delivered : Bytes) (card : SecureCard) :
    respond aes decryptOaep (.withData Cla.system Ins.setSessionKey 0x00 0x00 delivered) card =
      ((decryptOaep delivered).bind sessionKeyOf).elim (⟨[], ⟨0x6A80⟩⟩, card) fun key =>
        (⟨[], .success⟩, { card with session := some (key, 1) }) := by
  have hcla : ¬ Cla.system = Cla.smWithoutIntegrity := by decide
  unfold respond
  rw [if_neg (by exact hcla)]
  exact if_pos rfl

/-- The card takes a key that was delivered to it. -/
theorem transmit_takesKeys :
    TakesKeys decryptOaep (transmit aes decryptOaep) fun card => card := by
  intro card delivered hlen
  have hv : (Command.withData Cla.system Ins.setSessionKey 0x00 0x00 delivered).Valid :=
    ⟨hlen, by simp [Command.withData]⟩
  have htransmit := transmit_of_decoded aes decryptOaep (decoded_encoding hv) card
  rw [respond_setSessionKey] at htransmit
  cases hkey : (decryptOaep delivered).bind sessionKeyOf with
  | none =>
    rw [hkey] at htransmit
    refine ⟨⟨[], ⟨0x6A80⟩⟩, card, htransmit, rfl, rfl, ?_⟩
    intro hsuccess
    exact absurd hsuccess (by decide)
  | some key =>
    rw [hkey] at htransmit
    obtain ⟨message, hmessage, hsession⟩ := Option.bind_eq_some_iff.mp hkey
    obtain ⟨rest, hrest⟩ := sessionKeyOf_eq_some hsession
    exact ⟨⟨[], .success⟩, { card with session := some (key, 1) }, htransmit, rfl, rfl,
      fun _ => ⟨key, rest, hrest ▸ hmessage, rfl⟩⟩

/-! ### What the card is after a command -/

variable {aes decryptOaep} {card : SecureCard}

/-- The card after SELECT FILE of an EF it has. -/
theorem selectEf_run (fuel : ℕ) {id : UInt16}
    (hid : ((card.app.files id).isSome || (card.app.keys id).isSome) = true) :
    (Card.selectEf fuel id).run.run (transmit aes decryptOaep) card =
      (.ok (), { card with app := card.app.goTo (some id) }) := by
  have hv : (Command.withData Cla.user Ins.selectFile 0x02 0x0C (u16Bytes id)).Valid :=
    withData_valid (by rw [u16Bytes_length]; decide)
  have hplain : (Command.withData Cla.user Ins.selectFile 0x02 0x0C (u16Bytes id)).IsPlain := by
    refine ⟨?_, ?_, (leavesVault_selectEf id).2⟩
    · show ¬ Cla.user = Cla.smWithoutIntegrity
      decide
    · show ¬ Ins.selectFile = Ins.setSessionKey
      decide
  have hrequest : plainRequest (.withData Cla.user Ins.selectFile 0x02 0x0C (u16Bytes id)) =
      some (.select id) := by
    unfold plainRequest
    have hverify : ¬ Ins.selectFile = Ins.verify := by decide
    rw [if_neg fun h => hverify h.1, if_pos ⟨rfl, rfl⟩]
    show some (SecureRequest.select (UInt16.ofNat (bigEndian (u16Bytes id)))) = _
    rw [bigEndian_u16Bytes, UInt16.ofNat_toNat]
  have hserve : card.app.serve (.select id) = (⟨[], .success⟩, card.app.goTo (some id)) :=
    if_pos hid
  have hrespond : respond aes decryptOaep (.withData Cla.user Ins.selectFile 0x02 0x0C
      (u16Bytes id)) card = (⟨[], .success⟩, { card with app := card.app.goTo (some id) }) := by
    rw [respond_plain aes decryptOaep hplain, hrequest, Option.elim_some, hserve]
  have htransmit := transmit_of_decoded aes decryptOaep (decoded_encoding hv) card
  rw [hrespond] at htransmit
  have hcall := Card.callOk_run_final fuel hv htransmit Application.success_final.1
    Application.success_final.2
  rw [Card.selectEf, run_bind_ok (a := []) hcall]
  rfl

theorem serve_read (a : Application) (offset length : ℕ) :
    (a.serve (.read offset length)).2 = a := by
  rw [Application.serve]
  cases a.current.bind a.opened with
  | none => rfl
  | some file => rfl

/-- A command that inspects leaves a card that is in no session as it is. -/
theorem respond_inspects (hsession : card.session = none) {c : Command}
    (h : c.Inspects ∨ c.ins = Ins.getResponse) : (respond aes decryptOaep c card).2 = card := by
  have hselect : c.ins ≠ Ins.selectFile ∧ c.ins ≠ Ins.setSessionKey ∧
      (c.ins = Ins.verify → c.data = []) := by
    obtain (h | h | ⟨h, hdata⟩) | h := h
    all_goals
      rw [h]
      refine ⟨by decide, by decide, ?_⟩
    · exact fun hverify => absurd hverify (by decide)
    · exact fun hverify => absurd hverify (by decide)
    · exact fun _ => hdata
    · exact fun hverify => absurd hverify (by decide)
  obtain ⟨hselect, hset, hverify⟩ := hselect
  by_cases hcla : c.cla = Cla.smWithoutIntegrity
  · rw [respond, if_pos hcla, hsession]
    rfl
  · rw [respond_plain aes decryptOaep ⟨hcla, hset, fun henters => hselect henters.1⟩, plainRequest,
      if_neg fun hpresents => hpresents.2.1 (hverify hpresents.1), if_neg fun h => hselect h.1]
    split
    · show ({ card with app := (card.app.serve (.read _ _)).2 } : SecureCard) = card
      rw [serve_read]
    · rfl

/-- So does a read. -/
theorem readBinaryAll_state (pf : Platform) (fuel : ℕ) (hsession : card.session = none) :
    ((Card.readBinaryAll pf fuel).run.run (transmit aes decryptOaep) card).2 = card := by
  refine run_keeps (P := Encodes fun c => c.Inspects ∨ c.ins = Ins.getResponse)
    (I := fun t => t = card) ?_ ?_ rfl
  · intro tr a hpath e he
    obtain ⟨c, hv, hc, hfrom⟩ := Card.transmits_readBinaryAll fuel pf tr a hpath e he
    exact encodes_fromCall hv (fun c' _ hins => .inr hins) (fun le => .inl hc) hfrom
  · rintro apdu t ⟨c, hc, hinspects⟩ rfl
    rw [transmit_of_decoded aes decryptOaep hc]
    exact respond_inspects hsession hinspects

/-- The card after it took a key. -/
theorem setSessionKey_run (fuel : ℕ) {delivered : Bytes} {key : Block}
    (hlen : delivered.length ≤ 65535)
    (hkey : (decryptOaep delivered).bind sessionKeyOf = some key) :
    (Card.callOk fuel (.withData Cla.system Ins.setSessionKey 0x00 0x00 delivered)).run.run
        (transmit aes decryptOaep) card =
      (.ok [], { card with session := some (key, 1) }) := by
  have hv : (Command.withData Cla.system Ins.setSessionKey 0x00 0x00 delivered).Valid :=
    ⟨hlen, by simp [Command.withData]⟩
  have htransmit := transmit_of_decoded aes decryptOaep (decoded_encoding hv) card
  rw [respond_setSessionKey, hkey] at htransmit
  exact Card.callOk_run_final fuel hv htransmit Application.success_final.1
    Application.success_final.2

end SecureCard

/-! ### A run -/

/-- The number of twelve ones, as an object. -/
def numberObject : Ber.Obj :=
  ⟨[0xFF, 0x10, 0x0C], 0xFF10, List.replicate 12 0x31, [0xFF, 0x10], [0x0C], rfl,
    .multi 0xFF [0x10] (by decide) (.last 0x10 (by decide)) (by decide), .short 0x0C (by decide),
    rfl, rfl⟩

/-- The number with filler, and the key to deliver a session key under. -/
def textFiles (id : UInt16) : Option Bytes :=
  if id = TextAp.Ef.myNumber then some (numberObject.raw ++ [0xFF, 0xFF])
  else if id = TextAp.Ef.sessionKeyPublicKey then
    some (Text.SessionKeyPublicKey.file .der ⟨syntheticKey⟩ [])
  else none

/-- A card with the text application selected, its number not readable yet. -/
def textCard : SecureCard where
  app :=
    { keys := fun id => if id = TextAp.Ef.codeA then some key4321 else none
      files := textFiles
      readable := fun id => id = TextAp.Ef.sessionKeyPublicKey
      current := none }
  session := none

/-- What `rsa` makes of a message, with a random seed that happens to be this one. -/
def encryptOaep (key : RsaPublicKey) (message : Bytes) : Run Bytes :=
  match Rsa.encrypt (bigEndian key.modulus) (bigEndian key.exponent)
      ⟨List.replicate 32 0xA5, by decide⟩ message with
  | some encrypted => .ok encrypted
  | none => .error (.err (.signatureInvalid "OAEP encryption failed"))

/-- The card of `textCard`, which has the private half of the pair. -/
def textParty : Bytes → SecureCard → Answer × SecureCard :=
  SecureCard.transmit aes128 syntheticPair.decrypt

theorem textParty_keepsSession : KeepsSession aes128 textParty fun card => card :=
  SecureCard.transmit_keepsSession aes128 syntheticPair.decrypt

theorem textParty_takesKeys : TakesKeys syntheticPair.decrypt textParty fun card => card :=
  SecureCard.transmit_takesKeys aes128 syntheticPair.decrypt

/-- The card after its key was read. -/
def readCard : SecureCard :=
  { textCard with app := textCard.app.goTo (some TextAp.Ef.sessionKeyPublicKey) }

theorem textCard_read :
    (TextAp.readSessionKeyPublicKey .checked 0).run.run textParty textCard =
      (.ok ⟨syntheticKey⟩, readCard) := by
  have hselect : (Card.selectEf 0 TextAp.Ef.sessionKeyPublicKey).run.run textParty textCard =
      (.ok (), readCard) :=
    SecureCard.selectEf_run 0 (by decide +kernel)
  have hfile : ((Card.readBinaryAll .checked 0).run.run textParty readCard).1 =
      .ok (Text.SessionKeyPublicKey.file .der ⟨syntheticKey⟩ []) := by
    decide +kernel
  have hread : (Card.readBinaryAll .checked 0).run.run textParty readCard =
      (.ok (Text.SessionKeyPublicKey.file .der ⟨syntheticKey⟩ []), readCard) :=
    Prod.ext hfile (SecureCard.readBinaryAll_state .checked 0 rfl)
  have hparse : Text.SessionKeyPublicKey.parse Platform.checked
      (Text.SessionKeyPublicKey.file .der ⟨syntheticKey⟩ []) = .ok ⟨syntheticKey⟩ := by
    decide +kernel
  have hef : (TextAp.readEf .checked 0 TextAp.Ef.sessionKeyPublicKey).run.run textParty textCard =
      (.ok (Text.SessionKeyPublicKey.file .der ⟨syntheticKey⟩ []), readCard) :=
    (run_bind_ok hselect).trans hread
  rw [TextAp.readSessionKeyPublicKey, Ap.parsed, run_bind_ok hef, hparse]
  rfl

/-- The card after a session was opened. -/
def openedCard : SecureCard := { readCard with session := some (Block.zero, 1) }

theorem encryptOaep_synthetic (message : Bytes) :
    encryptOaep syntheticKey message =
      match Rsa.encrypt syntheticPair.modulus syntheticPair.e ⟨List.replicate 32 0xA5, by decide⟩
        message with
      | some encrypted => .ok encrypted
      | none => .error (.err (.signatureInvalid "OAEP encryption failed")) := by
  unfold encryptOaep
  rw [syntheticKey_modulus, syntheticKey_exponent]

/-- What delivers a session key, and that the card finds it there. -/
theorem encryptOaep_delivers (message : Bytes) (h : message.length = 36) :
    ∃ delivered, encryptOaep syntheticKey message = .ok delivered ∧ delivered.length = 256 ∧
      syntheticPair.decrypt delivered = some message := by
  have hsize : Rsa.size syntheticPair.modulus = 256 := by decide +kernel
  obtain ⟨delivered, hdelivered⟩ : ∃ delivered, Rsa.encrypt syntheticPair.modulus syntheticPair.e
      ⟨List.replicate 32 0xA5, by decide⟩ message = some delivered :=
    ⟨_, by rw [Rsa.encrypt, if_pos (by rw [hsize]; omega)]⟩
  refine ⟨delivered, ?_, ?_, syntheticPair.decrypt_encrypt _ hdelivered⟩
  · rw [encryptOaep_synthetic, hdelivered]
  · obtain ⟨hroom, hencrypted⟩ := Option.ite_none_right_eq_some.mp hdelivered
    rw [← Option.some.inj hencrypted, beBytes_length, hsize]

theorem textCard_opened :
    (TextAp.openSecureSession .checked 0 encryptOaep (Block.zero, Block.zero)).run.run textParty
      textCard = (.ok (.opened Block.zero), openedCard) := by
  have hfound : SecureCard.sessionKeyOf
      ([0xA0, 0x22, 0x80, 0x20] ++ Block.zero.1 ++ Block.zero.1) = some Block.zero := by
    decide +kernel
  obtain ⟨delivered, hencrypted, hlen, hkey⟩ :=
    encryptOaep_delivers ([0xA0, 0x22, 0x80, 0x20] ++ Block.zero.1 ++ Block.zero.1) rfl
  have htaken : (Card.callOk 0 (.withData Cla.system Ins.setSessionKey 0x00 0x00
      delivered)).run.run textParty readCard = (.ok [], openedCard) :=
    SecureCard.setSessionKey_run 0 (by omega) (by rw [hkey, Option.bind_some, hfound])
  have hencrypt : (liftM (encryptOaep syntheticKey
      ([0xA0, 0x22, 0x80, 0x20] ++ Block.zero.1 ++ Block.zero.1)) : CardM Bytes).run.run textParty
        readCard = (.ok delivered, readCard) := by
    rw [hencrypted]
    rfl
  rw [TextAp.openSecureSession, run_bind_ok textCard_read, SecureSession.establish]
  exact (run_bind_ok hencrypt).trans (run_bind_ok htaken)

theorem textFiles_addressable {a : Application} (h : a.files = textFiles) : a.Addressable := by
  intro id file hfile
  rw [h] at hfile
  unfold textFiles at hfile
  split at hfile
  · obtain rfl := Option.some.inj hfile
    decide +kernel
  · split at hfile
    · obtain rfl := Option.some.inj hfile
      decide +kernel
    · cases hfile

theorem openedCard_same : SameSession (.opened Block.zero) openedCard := ⟨rfl, rfl⟩

theorem openedCard_addressable : openedCard.app.Addressable := textFiles_addressable rfl

/-- A wrong value, a plain SELECT FILE, and the right value, with a read before and after them. -/
def codeThenRead : List SessionStep :=
  [.secure (.readEf TextAp.Ef.myNumber), .secure (.verify TextAp.Ef.codeA pin1111),
    .plain (Card.selectEf 0 TextAp.Ef.codeA), .secure (.verify TextAp.Ef.codeA pin4321),
    .secure (.readEf TextAp.Ef.myNumber)]

/-- SELECT FILE of an EF has nothing to do with a session. -/
theorem transmits_selectEf_plain (fuel : ℕ) (id : UInt16) :
    Card.Transmits (fun c => c.IsPlain ∧ ¬ c.TouchesKeys) (Card.selectEf fuel id) := by
  refine (Card.transmits_callOk fuel ⟨⟨?_, ?_, ?_⟩, (leavesVault_selectEf id).1⟩).bind
    fun _ => .pure ()
  · show ¬ Cla.user = Cla.smWithoutIntegrity
    decide
  · show ¬ Ins.selectFile = Ins.setSessionKey
    decide
  · exact (leavesVault_selectEf id).2

theorem codeThenRead_plain {x : CardM Unit} (h : .plain x ∈ codeThenRead) :
    Card.Transmits (fun c => c.IsPlain ∧ ¬ c.TouchesKeys) x := by
  simp only [codeThenRead, List.mem_cons, SessionStep.plain.injEq, reduceCtorEq, List.not_mem_nil,
    or_false, false_or] at h
  exact h ▸ transmits_selectEf_plain 0 TextAp.Ef.codeA

/-- The key that is read off the card is the one it deciphers with. -/
theorem encryptOaep_deciphered {key : Text.SessionKeyPublicKey}
    (hkey : ((TextAp.readSessionKeyPublicKey .checked 0).run.run textParty textCard).1 = .ok key)
    {message delivered message' : Bytes}
    (hdelivered : encryptOaep key.publicKey message = .ok delivered)
    (hmessage : syntheticPair.decrypt delivered = some message') : message' = message := by
  rw [textCard_read] at hkey
  obtain rfl := Except.ok.inj hkey
  rw [encryptOaep_synthetic] at hdelivered
  split at hdelivered
  · rename_i encrypted hencrypted
    obtain rfl := Except.ok.inj hdelivered
    rw [syntheticPair.decrypt_encrypt _ hencrypted] at hmessage
    exact (Option.some.inj hmessage).symm
  · cases hdelivered

/-- From opening the session to the read. -/
theorem opened_session_refined_text :
    Execution (ApplicationStep .on) openedCard.app
        (sessionEntries aes128 textParty (fun card => card) .on 0 codeThenRead
          (.opened Block.zero) openedCard)
        (afterSteps aes128 textParty .on 0 codeThenRead (.opened Block.zero) openedCard).2.app ∧
      (sessionEntries aes128 textParty (fun card => card) .on 0 codeThenRead (.opened Block.zero)
        openedCard).map (fun e => e.2.1) <+: codeThenRead ∧
      SameSession (afterSteps aes128 textParty .on 0 codeThenRead (.opened Block.zero) openedCard).1
        (afterSteps aes128 textParty .on 0 codeThenRead (.opened Block.zero) openedCard).2 := by
  have hplain : ∀ x, .plain x ∈ codeThenRead → Card.Transmits Command.IsPlain x :=
    fun x hx => (codeThenRead_plain hx).mono fun c hc => hc.1
  have hroom : 0x8002 * codeThenRead.length + 1 < 2 ^ 32 := by decide
  exact opened_session_refined textParty_keepsSession textParty_takesKeys .checked 0
    (fun key hkey _ _ _ => encryptOaep_deciphered hkey) (Block.zero, Block.zero) codeThenRead
    textCard_opened hplain openedCard_addressable hroom

def codeThenReadEntries : List SessionEntry :=
  sessionEntries aes128 textParty (fun card => card) .on 0 codeThenRead (.opened Block.zero)
    openedCard

/-- The number is not read before the key has let somebody in, and then it is, in two pieces and
without its filler. -/
theorem session_reads_objects_text :
    (codeThenReadEntries.map fun e => e.2.2) =
        [.error (.err (.status ⟨0x6982⟩)), .error (.err (.pinIncorrect (some 1))), .ok [], .ok [],
          .ok numberObject.raw] ∧
      ∀ a r, (a, SessionStep.secure (.readEf TextAp.Ef.myNumber), r) ∈ codeThenReadEntries →
        a.readable TextAp.Ef.myNumber = true →
        r = .ok numberObject.raw ∨
          ∃ part, r = .ok part ∧ part <+: numberObject.raw ∧ part.length < 3 := by
  refine ⟨by decide +kernel, ?_⟩
  intro a r he hreadable
  have hfile : openedCard.app.files TextAp.Ef.myNumber =
      some (numberObject.raw ++ [0xFF, 0xFF]) := by
    decide +kernel
  exact session_reads_objects textParty_keepsSession .on 0 codeThenRead
    (fun x hx => (codeThenRead_plain hx).mono fun c hc => hc.1) openedCard_same
    openedCard_addressable (by decide) he numberObject hfile hreadable

/-- Another card, with the key alone, and the text application selected. -/
def codeCard : KeyCard where
  vault := ⟨TextAp.df, fun df id =>
    if df = TextAp.df ∧ id = TextAp.Ef.codeA then some key4321 else none⟩
  current := none
  verified := false

/-- The wrong value and the right one are told the same by that card. -/
theorem presented_as_in_clear_text :
    (codeThenReadEntries.filterMap presentation).map Prod.snd =
        [.error (.err (.pinIncorrect (some 1))), .ok ()] ∧
      (verifiedInTurn (KeyCard.transmit [TextAp.df]) 0
          ((codeThenReadEntries.filterMap presentation).map Prod.fst) codeCard).1 =
        (codeThenReadEntries.filterMap presentation).map Prod.snd ∧
      SameKeys (afterSteps aes128 textParty .on 0 codeThenRead (.opened Block.zero) openedCard).2.app
        (verifiedInTurn (KeyCard.transmit [TextAp.df]) 0
          ((codeThenReadEntries.filterMap presentation).map Prod.fst) codeCard).2.vault := by
  have hsame : SameKeys openedCard.app codeCard.vault := by
    intro sfi
    show (if sfi.value.toUInt16 = TextAp.Ef.codeA then some key4321 else none) =
      if TextAp.df = TextAp.df ∧ sfi.value.toUInt16 = TextAp.Ef.codeA then some key4321 else none
    simp only [true_and]
  refine ⟨by decide +kernel, ?_⟩
  refine presented_as_in_clear textParty_keepsSession (KeyCard.transmit_keepsKeys [TextAp.df]) .on 0 0
    codeThenRead (fun x hx => (codeThenRead_plain hx).mono fun c hc => hc.1)
    (fun x hx => (codeThenRead_plain hx).mono fun c hc => hc.2) openedCard_same
    openedCard_addressable (by decide) hsame ?_
  intro id value hmem
  simp only [codeThenRead, List.mem_cons, SessionStep.secure.injEq, SessionOperation.verify.injEq,
    reduceCtorEq, List.not_mem_nil, or_false, false_or] at hmem
  obtain ⟨rfl, -⟩ | ⟨rfl, -⟩ := hmem
  all_goals
    show openedCard.app.keys TextAp.Ef.codeA ≠ none
    decide

/-- Two wrong values, and the right one. -/
def wrongTwice : List SessionStep :=
  [.secure (.verify TextAp.Ef.codeA pin1111), .secure (.verify TextAp.Ef.codeA pin1111),
    .secure (.verify TextAp.Ef.codeA pin4321)]

def wrongTwiceEntries : List SessionEntry :=
  sessionEntries aes128 textParty (fun card => card) .on 0 wrongTwice (.opened Block.zero)
    openedCard

theorem session_lock_text :
    ((wrongTwiceEntries.drop 2).any fun e => (e.2.1.presents TextAp.Ef.codeA).isSome) = true ∧
      ∀ e ∈ wrongTwiceEntries.drop 2, (e.2.1.presents TextAp.Ef.codeA).isSome = true →
        e.2.2 = .error (.err .pinBlocked) := by
  have hplain : ∀ x, SessionStep.plain x ∉ wrongTwice := by
    intro x hx
    simp [wrongTwice] at hx
  have hall : (wrongTwiceEntries.take 2).all (fun e =>
      (e.2.1.presents TextAp.Ef.codeA).all fun pin => decide (pin.bytes ≠ key4321.value)) = true := by
    decide +kernel
  have hid : ShortEfId.fromEfId TextAp.Ef.codeA = .ok ⟨0x14, by decide, by decide⟩ := by decide
  have hkey : openedCard.app.keys TextAp.Ef.codeA = some key4321 := by decide +kernel
  have hleft : key4321.left = some 2 := rfl
  have hsplit : wrongTwiceEntries = wrongTwiceEntries.take 2 ++ wrongTwiceEntries.drop 2 :=
    (List.take_append_drop 2 _).symm
  refine ⟨by decide +kernel, ?_⟩
  refine (session_lock textParty_keepsSession .on 0 wrongTwice
    (fun x hx => absurd hx (hplain x)) (fun x hx => absurd hx (hplain x)) openedCard_same
    openedCard_addressable (by decide) hid hkey hleft hsplit ?_).2 (by decide +kernel)
  intro e he pin hpin
  have hone := List.all_eq_true.mp hall e he
  rw [hpin] at hone
  exact of_decide_eq_true hone

end MynaCard
