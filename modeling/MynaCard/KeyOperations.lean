import MynaCard.KeyCard
import MynaCard.WrapperRuns

/-!
# What the wrappers ask of a card's keys

Every operation of the six wrappers enters an application, presents a key, asks for its counter,
presents and replaces it, or has nothing to do with keys at all: `keyRequest` says which, and
`WrapperOperation.keyShape` that the operation is made so.

`Vault.Serves` is what such a request does to the keys of a card, with no current EF in it.
**`WrapperOperation.serves`** is that the operation does just that, from whatever state the card was
left in.
-/

namespace MynaCard

open Dialogue

/-! ### Requests -/

/-- What an operation asks of the keys of a card. -/
inductive KeyRequest
  | enter (df : Bytes)
  | present (id : UInt16) (value : Pin)
  | query (id : UInt16)
  | replace (id : UInt16) (currentPin newPin : Pin)
  | nothing

def CommonOperation.keyRequest : CommonOperation → KeyRequest
  | select => .enter CommonAp.df
  | verifyPin pin => .present CommonAp.Ef.pin pin
  | changePin currentPin newPin => .replace CommonAp.Ef.pin currentPin newPin
  | pinRetries => .query CommonAp.Ef.pin
  | _ => .nothing

def JukiOperation.keyRequest : JukiOperation → KeyRequest
  | select => .enter JukiAp.df
  | verifyPin pin => .present JukiAp.Ef.pin pin
  | changePin currentPin newPin => .replace JukiAp.Ef.pin currentPin newPin
  | pinRetries => .query JukiAp.Ef.pin
  | _ => .nothing

def SurfaceOperation.keyRequest : SurfaceOperation → KeyRequest
  | select => .enter SurfaceAp.df
  | verifyBirthDate code => .present SurfaceAp.Ef.birthDate code
  | verifyCodeA code => .present SurfaceAp.Ef.codeA code
  | verifyCodeB code => .present SurfaceAp.Ef.codeB code
  | retries key => .query key
  | _ => .nothing

def TextOperation.keyRequest : TextOperation → KeyRequest
  | select => .enter TextAp.df
  | verifyPin pin => .present TextAp.Ef.pin pin
  | changePin currentPin newPin => .replace TextAp.Ef.pin currentPin newPin
  | verifyCodeA code => .present TextAp.Ef.codeA code
  | verifyCodeB code => .present TextAp.Ef.codeB code
  | retries key => .query key
  | _ => .nothing

def JpkiOperation.keyRequest : JpkiOperation → KeyRequest
  | select => .enter JpkiAp.df
  | verifyAuthPin pin => .present JpkiAp.Ef.authPin pin
  | verifySignPin pin => .present JpkiAp.Ef.signPin pin
  | changeAuthPin currentPin newPin => .replace JpkiAp.Ef.authPin currentPin newPin
  | changeSignPin currentPin newPin => .replace JpkiAp.Ef.signPin currentPin newPin
  | authPinRetries => .query JpkiAp.Ef.authPin
  | signPinRetries => .query JpkiAp.Ef.signPin
  | _ => .nothing

def MasterFileOperation.keyRequest : MasterFileOperation → KeyRequest
  | select => .enter Ap.defaultDf
  | _ => .nothing

def WrapperOperation.keyRequest : WrapperOperation → KeyRequest
  | common op => op.keyRequest
  | juki op => op.keyRequest
  | surface op => op.keyRequest
  | text op => op.keyRequest
  | jpki op => op.keyRequest
  | masterFile op => op.keyRequest

/-! ### What an operation reports -/

/-- What a caller learns of the keys from an operation's return. -/
abbrev Reply := Run (Option Retries)

/-- Of a value, the counter if it is one. -/
def Value.counter {x509 : X509Crate} : Value x509 → Option Retries
  | retries counter => some counter
  | _ => none

/-- An operation, and of its value the counter. -/
def counterOf {x509 : X509Crate} (x : CardM (Value x509)) : CardM (Option Retries) := do
  let value ← x
  pure value.counter

section

variable (rsa : RsaCrate) (x509 : X509Crate) (pf : Platform) (fuel : ℕ)

def WrapperOperation.report (op : WrapperOperation) : CardM (Option Retries) :=
  counterOf (op.perform rsa x509 pf fuel)

/-! ### The five shapes -/

/-- How an operation goes about a request. -/
inductive KeyShape : KeyRequest → CardM (Value x509) → Prop
  | enter (df : Bytes) : KeyShape (.enter df) (yielding .unit (Card.selectDf fuel df))
  | present (id : UInt16) (value : Pin) :
      KeyShape (.present id value) (yielding .unit (Ap.verifyKey fuel id value))
  | query (id : UInt16) : KeyShape (.query id) (yielding .retries (Ap.keyRetries fuel id))
  | replace (id : UInt16) (currentPin newPin : Pin) (c : Command)
      (hc : c = .withData Cla.user Ins.changeReferenceData 0x01 0x80 newPin.bytes ∨
        c = .withData Cla.system Ins.changeKey 0x00 0x80 newPin.bytes) :
      KeyShape (.replace id currentPin newPin) (yielding .unit
        (Ap.changePin fuel id currentPin (Card.callOk fuel c >>= fun _ => pure ())))
  | nothing {α : Type} {f : α → Value x509} {x : CardM α}
      (hx : Card.Transmits Command.LeavesVault x) : KeyShape .nothing (yielding f x)

end

namespace Card.Transmits

variable {P Q : Command → Prop} {α : Type}

theorem mono {x : CardM α} (hx : Transmits P x) (hPQ : ∀ c, P c → Q c) : Transmits Q x := by
  intro tr out hpath e he
  obtain ⟨c, hv, hc, hfrom⟩ := hx tr out hpath e he
  exact ⟨c, hv, hPQ c hc, hfrom⟩

theorem parsed {x : CardM Bytes} (hx : Transmits P x) (parse : Bytes → Run α) :
    Transmits P (Ap.parsed x parse) :=
  hx.bind fun raw => .of_run (parse raw)

/-- What is done on an EF that leaves the keys alone does so together with its SELECT FILE. -/
theorem onEf {x : CardM α} (fuel : ℕ) (id : UInt16) (hx : Transmits Command.Inspects x) :
    Transmits Command.LeavesVault (Ap.onEf fuel id x) :=
  ((transmits_callOk fuel (leavesVault_selectEf id)).bind fun _ => .pure ()).bind fun _ =>
    hx.mono fun _ => Command.Inspects.leavesVault

end Card.Transmits

namespace Card

variable (pf : Platform) (fuel : ℕ)

theorem transmits_pinRetriesSfi (sfi : ShortEfId) :
    Transmits Command.Inspects (pinRetriesSfi fuel sfi) :=
  (transmits_call fuel (.inr (.inr ⟨rfl, rfl⟩))).bind fun _ => .of_run _

theorem leavesVault_readEf (id : UInt16) : Transmits Command.LeavesVault (Ap.readEf pf fuel id) :=
  .onEf fuel id (transmits_readBinaryAll fuel pf)

theorem leavesVault_readEfPhysical (id : UInt16) :
    Transmits Command.LeavesVault (Ap.readEfPhysical fuel id) :=
  .onEf fuel id (transmits_readBinaryPhysical fuel)

theorem leavesVault_readRecord (id : UInt16) (record : UInt8) :
    Transmits Command.LeavesVault (Ap.readRecord fuel id record) :=
  .onEf fuel id (transmits_readRecord fuel record)

theorem leavesVault_getData (tag : UInt16) : Transmits Command.LeavesVault (getData fuel tag) := by
  refine (transmits_call fuel (Command.leavesVault_of_ins Ins.getData rfl (by decide))).bind ?_
  intro response
  split
  · exact .pure _
  · split
    · exact transmits_callOk fuel (Command.leavesVault_of_ins Ins.getData rfl (by decide))
    · exact .throw _

theorem leavesVault_internalAuthenticate (sfi : ShortEfId) (challenge : Bytes) :
    Transmits Command.LeavesVault (internalAuthenticate fuel sfi challenge) := by
  unfold internalAuthenticate
  split
  · exact .of_run _
  · exact transmits_callOk fuel
      (Command.leavesVault_of_ins Ins.internalAuthenticate rfl (by decide))

theorem leavesVault_signDefault (rsa : RsaCrate) (data : Bytes) :
    Transmits Command.LeavesVault (Ap.signDefault rsa fuel data) :=
  transmits_callOk fuel (Command.leavesVault_of_ins Ins.computeSignature rfl (by decide))

theorem leavesVault_sign (key : UInt16) (scheme : SignatureScheme) (data : Bytes) :
    Transmits Command.LeavesVault (JpkiAp.sign fuel key scheme data) :=
  (Transmits.of_run _).bind fun _ => (Transmits.of_run _).bind fun _ =>
    transmits_callOk fuel (Command.leavesVault_of_ins Ins.computeSignature rfl (by decide))

theorem leavesVault_signChecked (rsa : RsaCrate) (x509 : X509Crate) (id : UInt16)
    {parse : Bytes → Run (Certificate x509)} (key : UInt16) (scheme : SignatureScheme)
    (data : Bytes) :
    Transmits Command.LeavesVault (JpkiAp.signChecked rsa x509
      (Ap.parsed (Ap.readEf pf fuel id) parse) (JpkiAp.sign fuel key scheme data) scheme data) :=
  ((leavesVault_readEf pf fuel id).parsed parse).bind fun _ => (Transmits.of_run _).bind fun _ =>
    (leavesVault_sign fuel key scheme data).bind fun _ => (Transmits.of_run _).bind fun _ => .pure _

theorem leavesVault_openSecureSession (encryptOaep : RsaPublicKey → Bytes → Run Bytes)
    (seed : Block × Block) :
    Transmits Command.LeavesVault (TextAp.openSecureSession pf fuel encryptOaep seed) :=
  ((leavesVault_readEf pf fuel _).parsed _).bind fun _ => (Transmits.of_run _).bind fun _ =>
    (transmits_callOk fuel (Command.leavesVault_of_ins Ins.setSessionKey rfl (by decide))).bind
      fun _ => .pure _

theorem leavesVault_certificateChainFrom (tags : List UInt16)
    (chain : List CardVerifiableCertificate) :
    Transmits Command.LeavesVault (MasterFile.certificateChainFrom pf fuel tags chain) := by
  induction tags generalizing chain with
  | nil => exact .pure chain
  | cons tag tags ih =>
    refine (leavesVault_getData fuel tag).attempt.bind fun r => ?_
    cases r with
    | ok raw => exact (Transmits.of_run _).bind fun certificate => ih _
    | error e =>
      simp only
      split
      · exact .pure chain
      · exact .throw _

theorem leavesVault_readAllRecords (id : UInt16) :
    Transmits Command.LeavesVault (MasterFile.readAllRecords fuel id) :=
  .onEf fuel id (MasterFile.transmits_readSelectedRecords fuel)

end Card

/-- Every operation goes about its request in the way of its kind. -/
theorem WrapperOperation.keyShape (rsa : RsaCrate) (x509 : X509Crate) (pf : Platform)
    (fuel : ℕ) (op : WrapperOperation) :
    KeyShape x509 fuel op.keyRequest (op.perform rsa x509 pf fuel) := by
  cases op with
  | common op =>
    cases op with
    | select => exact .enter CommonAp.df
    | verifyPin pin => exact .present _ pin
    | changePin currentPin newPin => exact .replace _ currentPin newPin _ (.inr rfl)
    | pinRetries => exact .query _
    | readRecord id record => exact .nothing (Card.leavesVault_readRecord fuel id record)
    | readCardInfo => exact .nothing ((Card.leavesVault_readRecord fuel _ 1).parsed _)
    | internalAuthenticate challenge =>
      exact .nothing ((Card.Transmits.of_run _).bind fun sfi =>
        Card.leavesVault_internalAuthenticate fuel sfi challenge)
  | juki op =>
    cases op with
    | select => exact .enter JukiAp.df
    | verifyPin pin => exact .present _ pin
    | changePin currentPin newPin => exact .replace _ currentPin newPin _ (.inr rfl)
    | pinRetries => exact .query _
    | readRecord id record => exact .nothing (Card.leavesVault_readRecord fuel id record)
  | surface op =>
    cases op with
    | select => exact .enter SurfaceAp.df
    | verifyBirthDate code | verifyCodeA code | verifyCodeB code => exact .present _ code
    | retries key => exact .query key
    | readEf id => exact .nothing (Card.leavesVault_readEf pf fuel id)
    | readApBasicData | readAgeRecord | readCardFace | readMyNumberImage | readCertificate =>
      exact .nothing ((Card.leavesVault_readEf pf fuel _).parsed _)
    | sign data => exact .nothing (Card.leavesVault_signDefault fuel rsa data)
  | text op =>
    cases op with
    | select => exact .enter TextAp.df
    | verifyPin pin | verifyCodeA pin | verifyCodeB pin => exact .present _ pin
    | changePin currentPin newPin => exact .replace _ currentPin newPin _ (.inl rfl)
    | retries key => exact .query key
    | readEf id => exact .nothing (Card.leavesVault_readEf pf fuel id)
    | readMyNumber | readAttributes | readCertificate | readApBasicData | readIntegrityRecord
    | readSignedPublicKey | readSessionKeyPublicKey =>
      exact .nothing ((Card.leavesVault_readEf pf fuel _).parsed _)
    | readMyNumberFile => exact .nothing (Card.leavesVault_readEfPhysical fuel _)
    | sign data => exact .nothing (Card.leavesVault_signDefault fuel rsa data)
    | openSecureSession encryptOaep seed =>
      exact .nothing (Card.leavesVault_openSecureSession pf fuel encryptOaep seed)
  | jpki op =>
    cases op with
    | select => exact .enter JpkiAp.df
    | verifyAuthPin pin | verifySignPin pin => exact .present _ pin
    | changeAuthPin currentPin newPin | changeSignPin currentPin newPin =>
      exact .replace _ currentPin newPin _ (.inl rfl)
    | authPinRetries | signPinRetries => exact .query _
    | readEf id => exact .nothing (Card.leavesVault_readEf pf fuel id)
    | readTokenType | readTokenInfo | readCertificateAvailability =>
      exact .nothing ((Card.leavesVault_readEfPhysical fuel _).parsed _)
    | readAuthCertificateDer | readAuthCaCertificateDer | readSignCertificateDer
    | readSignCaCertificateDer => exact .nothing (Card.leavesVault_readEf pf fuel _)
    | readAuthCertificate | readAuthCaCertificate | readSignCertificate | readSignCaCertificate =>
      exact .nothing ((Card.leavesVault_readEf pf fuel _).parsed _)
    | signWithAuthKey scheme data | signWithSignKey scheme data =>
      exact .nothing (Card.leavesVault_sign fuel _ scheme data)
    | signWithAuthKeyChecked scheme data | signWithSignKeyChecked scheme data =>
      exact .nothing (Card.leavesVault_signChecked pf fuel rsa x509 _ _ scheme data)
  | masterFile op =>
    cases op with
    | select => exact .enter Ap.defaultDf
    | new => exact .nothing (.pure ())
    | dataObject tag => exact .nothing (Card.leavesVault_getData fuel tag)
    | certificateChain =>
      exact .nothing (Card.leavesVault_certificateChainFrom pf fuel _ [])
    | cardIdentifier | applicationFolders | icManufacturerId =>
      exact .nothing ((Card.leavesVault_readAllRecords fuel _).parsed _)
    | readAllRecords id => exact .nothing (Card.leavesVault_readAllRecords fuel id)

/-! ### What a request does to the keys -/

/-- The keys before a request, the reply to it, and the keys afterwards. -/
inductive Vault.Serves (v : Vault) : KeyRequest → Reply → Vault → Prop
  | entered (df : Bytes) : Serves v (.enter df) (.ok none) (v.enter df)
  /-- there is no such application -/
  | notEntered (df : Bytes) (e : Error) : Serves v (.enter df) (.error (.err e)) v
  | presented (id : UInt16) (value : Pin) {key : Key} (hkey : v.key id = some key) :
      Serves v (.present id value) ((key.present value.bytes).1.reply none)
        (v.set id (key.present value.bytes).2)
  | queried (id : UInt16) {key : Key} (hkey : v.key id = some key) :
      Serves v (.query id) (.ok (some key.retries)) v
  /-- the card does not say -/
  | notReported (id : UInt16) {key : Key} (hkey : v.key id = some key) :
      Serves v (.query id) (.ok (some .notReported)) v
  | replaced (id : UInt16) (currentPin newPin : Pin) {key : Key} (hkey : v.key id = some key)
      (haccepted : (key.present currentPin.bytes).1 = .accepted) :
      Serves v (.replace id currentPin newPin) (.ok none)
        (v.set id ((key.present currentPin.bytes).2.replace newPin.bytes))
  /-- the card turns the new value down -/
  | notReplaced (id : UInt16) (currentPin newPin : Pin) (e : Error) {key : Key}
      (hkey : v.key id = some key) (haccepted : (key.present currentPin.bytes).1 = .accepted) :
      Serves v (.replace id currentPin newPin) (.error (.err e))
        (v.set id (key.present currentPin.bytes).2)
  | refused (id : UInt16) (currentPin newPin : Pin) {key : Key} (hkey : v.key id = some key)
      (hrefused : (key.present currentPin.bytes).1 ≠ .accepted) :
      Serves v (.replace id currentPin newPin) ((key.present currentPin.bytes).1.reply none)
        (v.set id (key.present currentPin.bytes).2)
  | noKey (id : UInt16) (value : Pin) (e : Error) (hkey : v.key id = none) :
      Serves v (.present id value) (.error (.err e)) v
  | noKeyToQuery (id : UInt16) (r : Reply) (hkey : v.key id = none) : Serves v (.query id) r v
  | noKeyToReplace (id : UInt16) (currentPin newPin : Pin) (e : Error) (hkey : v.key id = none) :
      Serves v (.replace id currentPin newPin) (.error (.err e)) v
  | nothing (r : Reply) : Serves v .nothing r v

section

variable {τ : Type} {answer : Bytes → τ → Answer × τ} {view : τ → KeyCard} {s : τ}
  {x509 : X509Crate} (fuel : ℕ)

/-- What is reported of an operation, of which nothing but its value is one of all of them. -/
theorem counterOf_run {α : Type} {x : CardM α} {f : α → Value x509} {r : Run α} {s' : τ}
    (h : x.run.run answer s = (r, s')) :
    (counterOf (yielding f x)).run.run answer s = (r.map fun a => (f a).counter, s') := by
  rw [counterOf, yielding, LawfulMonad.bind_assoc]
  cases r with
  | ok a => exact (run_bind_ok h).trans rfl
  | error stop => exact (run_bind_error h).trans rfl

/-- An EF that is the current one is the one P2=80 names. -/
theorem KeyCard.named_current {card : KeyCard} {id : UInt16} (h : card.current = some id) :
    card.named 0x80 = some id := by
  rw [KeyCard.named, if_pos rfl, h]

theorem Vault.key_congr {v w : Vault} {k : Option Key} {id : UInt16} (h : v = w)
    (hkey : w.key id = k) : v.key id = k := by
  rw [h, hkey]

namespace KeepsKeys

variable (h : KeepsKeys answer view)

include h

/-- Presenting a key, from whatever state. -/
theorem verifyKey_run (id : UInt16) (value : Pin) :
    ∃ r s', (Ap.verifyKey fuel id value).run.run answer s = (r, s') ∧
      ((∃ key, (view s).vault.key id = some key ∧ r = (key.present value.bytes).1.reply () ∧
          (view s').vault = (view s).vault.set id (key.present value.bytes).2 ∧
          ((key.present value.bytes).1 = .accepted →
            (view s').current = some id ∧ (view s').verified = true)) ∨
        ((view s).vault.key id = none ∧ (∃ e, r = .error (.err e)) ∧
          (view s').vault = (view s).vault)) := by
  obtain ⟨r₁, s₁, hselect, hvault, ⟨rfl, hcurrent⟩ | ⟨⟨e, rfl⟩, hnone⟩⟩ :=
    h.selectEf_run (s := s) fuel id
  · have hnamed := KeyCard.named_current hcurrent
    cases hkey : (view s).vault.key id with
    | some key =>
      obtain ⟨s', hrun, hvault', haccepted⟩ :=
        h.present_run fuel value hnamed (Vault.key_congr hvault hkey)
      refine ⟨_, s', (run_bind_ok hselect).trans hrun, .inl ⟨key, rfl, rfl, ?_, haccepted⟩⟩
      rw [hvault', hvault]
    | none =>
      obtain ⟨e, s', hrun, hvault'⟩ :=
        h.presentNothing_run fuel value hnamed (Vault.key_congr hvault hkey)
      exact ⟨_, s', (run_bind_ok hselect).trans hrun, .inr ⟨rfl, ⟨e, rfl⟩, hvault'.trans hvault⟩⟩
  · exact ⟨_, s₁, run_bind_error hselect, .inr ⟨hnone, ⟨e, rfl⟩, hvault⟩⟩

/-- Asking for the counter of a key, from whatever state. -/
theorem keyRetries_run (id : UInt16) :
    ∃ r s', (Ap.keyRetries fuel id).run.run answer s = (r, s') ∧
      (view s').vault = (view s).vault ∧
      ∀ key, (view s).vault.key id = some key → r = .ok key.retries ∨ r = .ok .notReported := by
  have hkept := h.run_leaves (s := s)
    (Card.Transmits.onEf fuel id (Card.transmits_pinRetries fuel)) fun _ hc => hc
  refine ⟨_, _, Prod.mk.eta.symm, hkept, ?_⟩
  intro key hkey
  obtain ⟨r₁, s₁, hselect, hvault, ⟨rfl, hcurrent⟩ | ⟨-, hnone⟩⟩ := h.selectEf_run (s := s) fuel id
  · obtain ⟨retries, s', hrun, hretries⟩ := h.query_run fuel (KeyCard.named_current hcurrent)
      (Vault.key_congr hvault hkey)
    have hall : (Ap.keyRetries fuel id).run.run answer s = (.ok retries, s') :=
      (run_bind_ok hselect).trans hrun
    rw [hall]
    exact hretries.imp (congrArg _) (congrArg _)
  · rw [hnone] at hkey
    cases hkey

/-- Presenting a key and replacing it, from whatever state. -/
theorem changePin_run (id : UInt16) (currentPin newPin : Pin) {c : Command}
    (hc : c = .withData Cla.user Ins.changeReferenceData 0x01 0x80 newPin.bytes ∨
      c = .withData Cla.system Ins.changeKey 0x00 0x80 newPin.bytes) :
    ∃ r s', (Ap.changePin fuel id currentPin (Card.callOk fuel c >>= fun _ => pure ())).run.run
        answer s = (r, s') ∧
      Vault.Serves (view s).vault (.replace id currentPin newPin) (r.map fun _ => none)
        (view s').vault := by
  have hsplit : Ap.changePin fuel id currentPin (Card.callOk fuel c >>= fun _ => pure ()) =
      Ap.verifyKey fuel id currentPin >>= fun _ => (Card.callOk fuel c >>= fun _ => pure ()) := by
    exact (LawfulMonad.bind_assoc _ _ _).symm
  rw [hsplit]
  obtain ⟨r₁, s₁, hverify, ⟨key, hkey, rfl, hvault, haccepted⟩ | ⟨hnone, ⟨e, rfl⟩, hvault⟩⟩ :=
    h.verifyKey_run (s := s) fuel id currentPin
  · by_cases hverdict : (key.present currentPin.bytes).1 = .accepted
    · obtain ⟨hcurrent, hverified⟩ := haccepted hverdict
      rw [hverdict] at hverify
      have hkey₁ : (view s₁).vault.key id = some (key.present currentPin.bytes).2 :=
        Vault.key_congr hvault (Vault.key_set_self _ _ _)
      obtain ⟨r, s', hrun, ⟨rfl, hvault'⟩ | ⟨⟨e, rfl⟩, hvault'⟩⟩ :=
        h.replace_run fuel newPin hcurrent hverified hkey₁ hc
      · refine ⟨_, s', (run_bind_ok hverify).trans hrun, ?_⟩
        rw [hvault', hvault, Vault.set_set]
        exact .replaced id currentPin newPin hkey hverdict
      · refine ⟨_, s', (run_bind_ok hverify).trans hrun, ?_⟩
        rw [hvault', hvault]
        exact .notReplaced id currentPin newPin e hkey hverdict
    · obtain ⟨e, he⟩ := Verdict.reply_error_of_ne () hverdict
      rw [he] at hverify
      refine ⟨_, s₁, run_bind_error hverify, ?_⟩
      rw [hvault, show (Except.error (Stop.err e) : Run Unit).map (fun _ => none) =
        (key.present currentPin.bytes).1.reply none from by
          rw [← he, Verdict.reply_map]]
      exact .refused id currentPin newPin hkey hverdict
  · refine ⟨_, s₁, run_bind_error hverify, ?_⟩
    rw [hvault]
    exact .noKeyToReplace id currentPin newPin e hnone

/-- An operation of the shape serves its request. -/
theorem serves_of_keyShape {request : KeyRequest} {x : CardM (Value x509)}
    (hx : KeyShape x509 fuel request x) (s : τ) :
    Vault.Serves (view s).vault request ((counterOf x).run.run answer s).1
      (view ((counterOf x).run.run answer s).2).vault := by
  cases hx with
  | enter df =>
    obtain ⟨r, s', hrun, ⟨rfl, hvault⟩ | ⟨⟨e, rfl⟩, hvault⟩⟩ := h.selectDf_run (s := s) fuel df
    · rw [counterOf_run hrun, hvault]
      exact .entered df
    · rw [counterOf_run hrun, hvault]
      exact .notEntered df e
  | present id value =>
    obtain ⟨r, s', hrun, ⟨key, hkey, rfl, hvault, -⟩ | ⟨hnone, ⟨e, rfl⟩, hvault⟩⟩ :=
      h.verifyKey_run (s := s) fuel id value
    · rw [counterOf_run hrun, hvault, Verdict.reply_map]
      exact .presented id value hkey
    · rw [counterOf_run hrun, hvault]
      exact .noKey id value e hnone
  | query id =>
    obtain ⟨r, s', hrun, hvault, hretries⟩ := h.keyRetries_run (s := s) fuel id
    rw [counterOf_run hrun, hvault]
    cases hkey : (view s).vault.key id with
    | some key =>
      obtain rfl | rfl := hretries key hkey
      · exact .queried id hkey
      · exact .notReported id hkey
    | none => exact .noKeyToQuery id _ hkey
  | replace id currentPin newPin c hc =>
    obtain ⟨r, s', hrun, hserves⟩ := h.changePin_run (s := s) fuel id currentPin newPin hc
    rw [counterOf_run hrun]
    exact hserves
  | @nothing α f x hx =>
    rw [counterOf_run (Prod.mk.eta.symm : x.run.run answer s = _), h.run_leaves hx fun _ hc => hc]
    exact .nothing _

end KeepsKeys

/-- **An operation of a wrapper does to the keys what its request says**, from whatever state the
card is in: which EF is current, and which key was last verified, makes no difference. -/
theorem WrapperOperation.serves (h : KeepsKeys answer view) (rsa : RsaCrate) (x509 : X509Crate)
    (pf : Platform) (op : WrapperOperation) (s : τ) :
    Vault.Serves (view s).vault op.keyRequest ((op.report rsa x509 pf fuel).run.run answer s).1
      (view ((op.report rsa x509 pf fuel).run.run answer s).2).vault :=
  h.serves_of_keyShape fuel (op.keyShape rsa x509 pf fuel) s

/-! ### Keys named by short identifier -/

theorem named_sfi (card : KeyCard) (sfi : ShortEfId) :
    card.named (0x80 ||| sfi.value) = some sfi.value.toUInt16 := by
  obtain ⟨value, hpos, hle⟩ := sfi
  have hall : ∀ v : UInt8, 1 ≤ v.toNat → v.toNat ≤ 0x1E →
      0x80 ||| v ≠ 0x80 ∧ (0x80 < 0x80 ||| v ∧ 0x80 ||| v ≤ 0x9E) ∧ (0x80 ||| v) - 0x80 = v := by
    decide +kernel
  obtain ⟨hne, hrange, hback⟩ := hall value hpos hle
  show (if 0x80 ||| value = 0x80 then _ else _) = _
  rw [if_neg hne, if_pos hrange, hback]

/-- **The commands that name their key do what selecting it first does**: `verify_sfi` is answered as
`verify` after a SELECT FILE is and leaves the keys the same, and either form of the query tells the
key's counter, if it tells anything, and changes no key. -/
theorem sfi_agrees (h : KeepsKeys answer view) (sfi : ShortEfId) (pin : Pin) (s : τ) {key : Key}
    (hkey : (view s).vault.key sfi.value.toUInt16 = some key) :
    ((Card.verifySfi fuel sfi pin).run.run answer s).1 =
        ((Ap.verifyKey fuel sfi.value.toUInt16 pin).run.run answer s).1 ∧
      (view ((Card.verifySfi fuel sfi pin).run.run answer s).2).vault =
        (view ((Ap.verifyKey fuel sfi.value.toUInt16 pin).run.run answer s).2).vault ∧
      (∀ x ∈ [Card.pinRetriesSfi fuel sfi, Ap.keyRetries fuel sfi.value.toUInt16],
        ((x.run.run answer s).1 = .ok key.retries ∨ (x.run.run answer s).1 = .ok .notReported) ∧
          (view (x.run.run answer s).2).vault = (view s).vault) := by
  have hnamed := named_sfi (view s) sfi
  obtain ⟨s₁, hsfi, hvault₁, -⟩ := h.present_run fuel pin hnamed hkey
  obtain ⟨r₂, s₂, hsel, ⟨key', hkey', rfl, hvault₂, -⟩ | ⟨hnone, -⟩⟩ :=
    h.verifyKey_run (s := s) fuel sfi.value.toUInt16 pin
  swap
  · rw [hnone] at hkey
    cases hkey
  obtain rfl := Option.some.inj (hkey'.symm.trans hkey)
  have hverify : (Card.verifySfi fuel sfi pin).run.run answer s =
      ((key'.present pin.bytes).1.reply (), s₁) := hsfi
  refine ⟨by rw [hverify, hsel], by rw [hverify, hsel, hvault₁, hvault₂], ?_⟩
  intro x hx
  obtain rfl | hx := List.mem_cons.mp hx
  · obtain ⟨retries, s₃, hquery, hretries⟩ := h.query_run fuel hnamed hkey
    have hrun : (Card.pinRetriesSfi fuel sfi).run.run answer s = (.ok retries, s₃) := hquery
    have hkept := h.run_leaves (s := s) (Card.transmits_pinRetriesSfi fuel sfi)
      fun _ => Command.Inspects.leavesVault
    rw [hrun] at hkept ⊢
    exact ⟨hretries.imp (congrArg _) (congrArg _), hkept⟩
  · obtain rfl := List.mem_singleton.mp hx
    obtain ⟨r, s₃, hquery, hvault, hretries⟩ :=
      h.keyRetries_run (s := s) fuel sfi.value.toUInt16
    rw [hquery]
    exact ⟨hretries _ hkey, hvault⟩

end

end MynaCard
