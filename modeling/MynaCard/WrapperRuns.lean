import MynaCard.CurrentEf

/-!
# Runs of the wrappers

Each operation of the six wrappers has one of the shapes `Disciplined` has a rule for, given what the
operations of a card it is made of transmit. A run is operations one after the other, so each APDU has
all of the earlier operations before it.

**`performFrom_allowed`** is the result about runs: whatever the operations, and whatever the card
answers, an APDU that acts on the current EF follows its own operation's SELECT FILE of the EF that
operation names.
-/

namespace MynaCard

open Dialogue Monitor

/-! ### What the operations of a card transmit -/

namespace Card

variable (fuel : ℕ)

theorem transmits_readBinaryChunk (offset : ℕ) (le : UInt32) :
    Transmits Command.Inspects (readBinaryChunk fuel offset le) := by
  unfold readBinaryChunk
  split
  · exact (Transmits.throw _).bind fun _ => transmits_callOk fuel (.inl rfl)
  · exact transmits_callOk fuel (.inl rfl)

theorem transmits_readBinaryPhysical : Transmits Command.Inspects (readBinaryPhysical fuel) :=
  transmits_closed.readToEnd (transmits_readBinaryChunk fuel) []

theorem transmits_readOn (pf : Platform) (out : Bytes) :
    Transmits Command.Inspects (readOn pf fuel out) := by
  unfold readOn
  split
  · exact .pure out
  · split
    · refine (Transmits.of_run _).bind fun total => ?_
      split
      · exact .pure _
      · exact (transmits_closed.readBinary (transmits_readBinaryChunk fuel) pf _ _).bind
          fun rest => .pure _
    · exact transmits_closed.readToEnd (transmits_readBinaryChunk fuel) out

theorem transmits_readBinaryAll (pf : Platform) :
    Transmits Command.Inspects (readBinaryAll pf fuel) := by
  refine (transmits_readBinaryChunk fuel 0 256).attempt.bind fun r => ?_
  cases r with
  | ok chunk => exact transmits_readOn fuel pf chunk
  | error e =>
    simp only
    split
    · exact .pure []
    · exact .throw _

theorem transmits_readRecord (record : UInt8) :
    Transmits Command.Inspects (readRecord fuel record) := by
  unfold readRecord
  split
  · exact (Transmits.throw _).bind fun _ => transmits_callOk fuel (.inr (.inl rfl))
  · exact transmits_callOk fuel (.inr (.inl rfl))

theorem transmits_readRecordsFrom (first : UInt8) :
    Transmits Command.Inspects (readRecordsFrom fuel first) := by
  unfold readRecordsFrom
  split
  · exact (Transmits.throw _).bind fun _ => transmits_callOk fuel (.inr (.inl rfl))
  · exact transmits_callOk fuel (.inr (.inl rfl))

/-- The query for the attempts left is a VERIFY that carries nothing. -/
theorem transmits_pinRetries : Transmits Command.Inspects (pinRetries fuel) :=
  (transmits_call fuel (.inr (.inr ⟨rfl, rfl⟩))).bind fun _ => .of_run _

theorem transmits_changeReferenceData (newPin : Pin) :
    Transmits Command.IsChange (changeReferenceData fuel newPin) :=
  (transmits_callOk fuel (.inl rfl)).bind fun _ => .pure _

theorem transmits_changeKey (newPin : Pin) : Transmits Command.IsChange (changeKey fuel newPin) :=
  (transmits_callOk fuel (.inr rfl)).bind fun _ => .pure _

theorem transmits_selectDf (name : Bytes) : Transmits Command.Unbound (selectDf fuel name) := by
  have hsend := (transmits_callOk fuel (c := .withData Cla.user Ins.selectFile 0x04 0x0C name)
    (Command.unbound_of_ins Ins.selectFile rfl (by decide)))
  unfold selectDf
  split
  · exact (Transmits.throw _).bind fun _ => hsend.bind fun _ => .pure _
  · exact hsend.bind fun _ => .pure _

theorem transmits_getData (tag : UInt16) : Transmits Command.Unbound (getData fuel tag) := by
  refine (transmits_call fuel (Command.unbound_of_ins Ins.getData rfl (by decide))).bind ?_
  intro response
  split
  · exact .pure _
  · split
    · exact transmits_callOk fuel (Command.unbound_of_ins Ins.getData rfl (by decide))
    · exact .throw _

theorem transmits_internalAuthenticate (sfi : ShortEfId) (challenge : Bytes) :
    Transmits Command.Unbound (internalAuthenticate fuel sfi challenge) := by
  unfold internalAuthenticate
  split
  · exact .of_run _
  · exact transmits_callOk fuel (Command.unbound_of_ins Ins.internalAuthenticate rfl (by decide))

end Card

/-! ### The wrappers -/

namespace Disciplined

variable {pin : Option Pin} (pf : Platform) (fuel : ℕ)

theorem readEf (id : UInt16) : Disciplined (some id) pin (Ap.readEf pf fuel id) :=
  onEf_inspects fuel (Card.transmits_readBinaryAll fuel pf)

theorem readEfPhysical (id : UInt16) : Disciplined (some id) pin (Ap.readEfPhysical fuel id) :=
  onEf_inspects fuel (Card.transmits_readBinaryPhysical fuel)

theorem readRecord (id : UInt16) (record : UInt8) :
    Disciplined (some id) pin (Ap.readRecord fuel id record) :=
  onEf_inspects fuel (Card.transmits_readRecord fuel record)

theorem keyRetries (key : UInt16) : Disciplined (some key) pin (Ap.keyRetries fuel key) :=
  onEf_inspects fuel (Card.transmits_pinRetries fuel)

theorem signDefault {ef : Option UInt16} (rsa : RsaCrate) (data : Bytes) :
    Disciplined ef pin (Ap.signDefault rsa fuel data) :=
  of_unbound (Card.transmits_callOk fuel
    (Command.unbound_of_ins Ins.computeSignature rfl (by decide)))

end Disciplined

variable (rsa : RsaCrate) (x509 : X509Crate) (pf : Platform) (fuel : ℕ)

theorem CommonOperation.disciplined (op : CommonOperation) :
    Disciplined op.ef op.currentPin (op.perform x509 fuel) := by
  cases op with
  | select => exact (Disciplined.of_unbound (Card.transmits_selectDf fuel CommonAp.df)).yielding _
  | readRecord id record => exact (Disciplined.readRecord fuel id record).yielding _
  | readCardInfo => exact ((Disciplined.readRecord fuel _ 1).parsed CardInfo.parse).yielding _
  | internalAuthenticate challenge =>
    exact Disciplined.yielding (.bind (.of_run _) fun sfi =>
      .of_unbound (Card.transmits_internalAuthenticate fuel sfi challenge)) _
  | verifyPin pin => exact (Disciplined.verifyKey fuel _ pin).yielding _
  | changePin currentPin newPin =>
    exact (Disciplined.changePin fuel (Card.transmits_changeKey fuel newPin)).yielding _
  | pinRetries => exact (Disciplined.keyRetries fuel _).yielding _

theorem JukiOperation.disciplined (op : JukiOperation) :
    Disciplined op.ef op.currentPin (op.perform x509 fuel) := by
  cases op with
  | select => exact (Disciplined.of_unbound (Card.transmits_selectDf fuel JukiAp.df)).yielding _
  | readRecord id record => exact (Disciplined.readRecord fuel id record).yielding _
  | verifyPin pin => exact (Disciplined.verifyKey fuel _ pin).yielding _
  | changePin currentPin newPin =>
    exact (Disciplined.changePin fuel (Card.transmits_changeKey fuel newPin)).yielding _
  | pinRetries => exact (Disciplined.keyRetries fuel _).yielding _

theorem SurfaceOperation.disciplined (op : SurfaceOperation) :
    Disciplined op.ef op.currentPin (op.perform rsa x509 pf fuel) := by
  cases op with
  | select => exact (Disciplined.of_unbound (Card.transmits_selectDf fuel SurfaceAp.df)).yielding _
  | readEf id => exact (Disciplined.readEf pf fuel id).yielding _
  | readApBasicData | readAgeRecord | readCardFace | readMyNumberImage | readCertificate =>
    exact ((Disciplined.readEf pf fuel _).parsed _).yielding _
  | sign data => exact (Disciplined.signDefault fuel rsa data).yielding _
  | verifyBirthDate code | verifyCodeA code | verifyCodeB code =>
    exact (Disciplined.verifyKey fuel _ code).yielding _
  | retries key => exact (Disciplined.keyRetries fuel key).yielding _

theorem TextOperation.disciplined (op : TextOperation) :
    Disciplined op.ef op.currentPin (op.perform rsa x509 pf fuel) := by
  cases op with
  | select => exact (Disciplined.of_unbound (Card.transmits_selectDf fuel TextAp.df)).yielding _
  | readEf id => exact (Disciplined.readEf pf fuel id).yielding _
  | readMyNumber | readAttributes | readCertificate | readApBasicData | readIntegrityRecord
  | readSignedPublicKey | readSessionKeyPublicKey =>
    exact ((Disciplined.readEf pf fuel _).parsed _).yielding _
  | readMyNumberFile => exact (Disciplined.readEfPhysical fuel _).yielding _
  | sign data => exact (Disciplined.signDefault fuel rsa data).yielding _
  | openSecureSession encryptOaep seed =>
    refine Disciplined.yielding (((Disciplined.readEf pf fuel _).parsed _).bind fun key => ?_) _
    exact (Disciplined.of_run _).bind fun delivered => (Disciplined.of_unbound
      (Card.transmits_callOk fuel
        (Command.unbound_of_ins Ins.setSessionKey rfl (by decide)))).bind fun _ => .of_run (.ok _)
  | verifyPin pin | verifyCodeA pin | verifyCodeB pin =>
    exact (Disciplined.verifyKey fuel _ pin).yielding _
  | changePin currentPin newPin =>
    exact (Disciplined.changePin fuel (Card.transmits_changeReferenceData fuel newPin)).yielding _
  | retries key => exact (Disciplined.keyRetries fuel key).yielding _

/-- COMPUTE DIGITAL SIGNATURE names its key itself. -/
theorem JpkiAp.sign_disciplined {ef : Option UInt16} {pin : Option Pin} (key : UInt16)
    (scheme : SignatureScheme) (data : Bytes) : Disciplined ef pin (JpkiAp.sign fuel key scheme data) :=
  (Disciplined.of_run _).bind fun _ => (Disciplined.of_run _).bind fun _ =>
    .of_unbound (Card.transmits_callOk fuel
      (Command.unbound_of_ins Ins.computeSignature rfl (by decide)))

theorem JpkiAp.signChecked_disciplined {ef : Option UInt16} {pin : Option Pin}
    {readCertificate : CardM (Certificate x509)} {signWith : CardM Bytes}
    (hread : Disciplined ef pin readCertificate) (hsign : Disciplined ef pin signWith)
    (scheme : SignatureScheme) (data : Bytes) :
    Disciplined ef pin (JpkiAp.signChecked rsa x509 readCertificate signWith scheme data) :=
  hread.bind fun _ => (Disciplined.of_run _).bind fun _ => hsign.bind fun signature =>
    (Disciplined.of_run _).bind fun _ => .of_run (.ok signature)

theorem JpkiOperation.disciplined (op : JpkiOperation) :
    Disciplined op.ef op.currentPin (op.perform rsa x509 pf fuel) := by
  cases op with
  | select => exact (Disciplined.of_unbound (Card.transmits_selectDf fuel JpkiAp.df)).yielding _
  | readEf id => exact (Disciplined.readEf pf fuel id).yielding _
  | readTokenType | readTokenInfo | readCertificateAvailability =>
    exact ((Disciplined.readEfPhysical fuel _).parsed _).yielding _
  | readAuthCertificateDer | readAuthCaCertificateDer | readSignCertificateDer
  | readSignCaCertificateDer => exact (Disciplined.readEf pf fuel _).yielding _
  | readAuthCertificate | readAuthCaCertificate | readSignCertificate | readSignCaCertificate =>
    exact ((Disciplined.readEf pf fuel _).parsed _).yielding _
  | verifyAuthPin pin | verifySignPin pin => exact (Disciplined.verifyKey fuel _ pin).yielding _
  | changeAuthPin currentPin newPin | changeSignPin currentPin newPin =>
    exact (Disciplined.changePin fuel (Card.transmits_changeReferenceData fuel newPin)).yielding _
  | authPinRetries | signPinRetries => exact (Disciplined.keyRetries fuel _).yielding _
  | signWithAuthKey scheme data | signWithSignKey scheme data =>
    exact (JpkiAp.sign_disciplined fuel _ scheme data).yielding _
  | signWithAuthKeyChecked scheme data | signWithSignKeyChecked scheme data =>
    exact (JpkiAp.signChecked_disciplined rsa x509 ((Disciplined.readEf pf fuel _).parsed _)
      (JpkiAp.sign_disciplined fuel _ scheme data) scheme data).yielding _

namespace MasterFile

open Card

theorem transmits_certificateChainFrom (tags : List UInt16)
    (chain : List CardVerifiableCertificate) :
    Transmits Command.Unbound (certificateChainFrom pf fuel tags chain) := by
  induction tags generalizing chain with
  | nil => exact .pure chain
  | cons tag tags ih =>
    refine (transmits_getData fuel tag).attempt.bind fun r => ?_
    cases r with
    | ok raw => exact (Transmits.of_run _).bind fun certificate => ih _
    | error e =>
      simp only
      split
      · exact .pure chain
      · exact .throw _

theorem transmits_readRecordsUntil (records : List UInt8) (out : Bytes) :
    Transmits Command.Inspects (readRecordsUntil fuel records out) := by
  induction records generalizing out with
  | nil => exact .pure out
  | cons record records ih =>
    refine (transmits_readRecord fuel record).attempt.bind fun r => ?_
    cases r with
    | ok data =>
      simp only
      split
      · exact .pure out
      · exact ih _
    | error e =>
      simp only
      split
      · exact .pure out
      · exact .throw _

theorem transmits_readSelectedRecords :
    Transmits Command.Inspects (readSelectedRecords fuel) := by
  refine (transmits_readRecordsFrom fuel 1).attempt.bind fun r => ?_
  cases r with
  | ok data => exact .pure data
  | error e =>
    simp only
    split
    · exact transmits_readRecordsUntil fuel _ []
    · exact .throw _

theorem readAllRecords_disciplined {pin : Option Pin} (id : UInt16) :
    Disciplined (some id) pin (readAllRecords fuel id) :=
  .onEf_inspects fuel (transmits_readSelectedRecords fuel)

end MasterFile

theorem MasterFileOperation.disciplined (op : MasterFileOperation) :
    Disciplined op.ef none (op.perform x509 pf fuel) := by
  cases op with
  | select => exact (Disciplined.of_unbound (Card.transmits_selectDf fuel Ap.defaultDf)).yielding _
  | new => exact (Disciplined.of_run (.ok ())).yielding _
  | dataObject tag => exact (Disciplined.of_unbound (Card.transmits_getData fuel tag)).yielding _
  | certificateChain =>
    exact (Disciplined.of_unbound
      (MasterFile.transmits_certificateChainFrom pf fuel _ [])).yielding _
  | cardIdentifier | applicationFolders | icManufacturerId =>
    exact ((MasterFile.readAllRecords_disciplined fuel _).parsed _).yielding _
  | readAllRecords id => exact (MasterFile.readAllRecords_disciplined fuel id).yielding _

theorem WrapperOperation.disciplined (op : WrapperOperation) :
    Disciplined op.ef op.currentPin (op.perform rsa x509 pf fuel) := by
  cases op with
  | common op => exact op.disciplined x509 fuel
  | juki op => exact op.disciplined x509 fuel
  | surface op => exact op.disciplined rsa x509 pf fuel
  | text op => exact op.disciplined rsa x509 pf fuel
  | jpki op => exact op.disciplined rsa x509 pf fuel
  | masterFile op => exact op.disciplined x509 pf fuel

/-! ### Runs -/

/-- The most recent command of a kind, of any operation, is one of the operation at place `n`, has
`P`, and was accepted. -/
def LastAcceptedOf (n : ℕ) (kind P : Command → Prop) (before : Trace Issued Answer) : Prop :=
  ∃ e rest, LastWith (fun q => Encodes kind q.apdu) before e rest ∧ e.1.index = n ∧
    Encodes P e.1.apdu ∧ EndedWithSuccess e.2 (rest.map (Prod.map Issued.apdu id))

/-- What an operation may send after `before`, the APDUs of the operations earlier in the run being
part of `before`. -/
structure AllowedInRun (before : Trace Issued Answer) (q : Issued) (c : Command) : Prop where
  selected : c.OnCurrentEf → ∃ id, q.operation.ef = some id ∧
    LastAcceptedOf q.index Command.IsSelectFile (Command.Selects id) before
  verified : c.IsChange → ∃ pin, q.operation.currentPin = some pin ∧
    LastAcceptedOf q.index Command.IsOther (Command.Verifies pin.bytes) before
  presented : c.ins = Ins.verify → c.data ≠ [] →
    ∃ pin, q.operation.currentPin = some pin ∧ c.data = pin.bytes

/-- The APDUs of a run so far decide what may be sent next. -/
def inRun : Monitor (Trace Issued Answer) Issued Answer :=
  .ofHistory (fun before q => Encodes (AllowedInRun before q) q.apdu) fun _ _ _ => True

/-- What was last accepted within an operation was last accepted in the run. -/
theorem LastAccepted.inRun {kind P : Command → Prop} {before : Trace Bytes Answer}
    (h : LastAccepted kind P before) (past : Trace Issued Answer) (n : ℕ) (op : WrapperOperation) :
    LastAcceptedOf n kind P (past ++ before.map (Prod.map (Issued.mk n op) id)) := by
  obtain ⟨e, rest, hlast, hP, hend⟩ := h
  refine ⟨_, _, (hlast.map (Issued.mk n op) fun _ => Iff.rfl).append_left past, rfl, hP, ?_⟩
  rw [List.map_map]
  exact (List.map_id rest).symm ▸ hend

theorem Allowed.inRun {op : WrapperOperation} {before : Trace Bytes Answer} {c : Command}
    (h : Allowed op.ef op.currentPin before c) (past : Trace Issued Answer) (n : ℕ)
    (apdu : Bytes) :
    AllowedInRun (past ++ before.map (Prod.map (Issued.mk n op) id)) ⟨n, op, apdu⟩ c where
  selected hon := by
    obtain ⟨id, hid, hsel⟩ := h.selected hon
    exact ⟨id, hid, LastAccepted.inRun hsel past n op⟩
  verified hchange := by
    obtain ⟨pin, hpin, hver⟩ := h.verified hchange
    exact ⟨pin, hpin, LastAccepted.inRun hver past n op⟩
  presented := h.presented

/-- An operation that keeps the discipline keeps it in the run. -/
theorem Disciplined.inRun {op : WrapperOperation} {α : Type} {x : CardM α}
    (hx : Disciplined op.ef op.currentPin x) (n : ℕ) :
    inRun.Triple (fun _ => True) (x.run.relabel (Issued.mk n op)) fun _ _ => True := by
  intro past tr out _ hpath _
  refine ⟨?_, trivial⟩
  obtain ⟨tr', rfl, h⟩ := path_relabel.mp hpath
  have hsafe := (hx [] tr' out trivial h
    ((ofHistory_assumed [] tr').mpr fun _ _ _ _ _ => trivial)).1
  refine (ofHistory_safe past _).mpr ?_
  intro before q a rest hsplit
  obtain ⟨before', rest', rfl, rfl, hrest⟩ := List.map_eq_append_iff.mp hsplit
  obtain ⟨e, after, rfl, he, -⟩ := List.map_eq_cons_iff.mp hrest
  obtain ⟨rfl, -⟩ := Prod.mk.inj he
  obtain ⟨c, hc, hallowed⟩ := (ofHistory_safe [] _).mp hsafe before' e.1 e.2 after rfl
  exact ⟨c, hc, hallowed.inRun past n e.1⟩

/-- Operations one after the other, from any place and after anything. -/
theorem triple_performFrom (n : ℕ) (ops : List WrapperOperation) :
    inRun.Triple (fun _ => True) (performFrom rsa x509 pf fuel n ops) fun _ _ => True := by
  induction ops generalizing n with
  | nil => exact .done fun _ _ => trivial
  | cons op ops ih =>
    refine Triple.bind ((op.disciplined rsa x509 pf fuel).inRun n) fun r => ?_
    split
    · exact .done fun _ _ => trivial
    · exact (ih (n + 1)).bind fun _ => .done fun _ _ => trivial

/-- An APDU's label is the operation at its place. -/
theorem performFrom_issued {n : ℕ} {ops : List WrapperOperation} {tr : Trace Issued Answer}
    {out : List (Run (Value x509))} (h : Path (performFrom rsa x509 pf fuel n ops) tr out) :
    ∀ e ∈ tr, ∃ i, e.1.index = n + i ∧ ops[i]? = some e.1.operation := by
  induction ops generalizing n tr out with
  | nil =>
    intro e he
    obtain ⟨rfl, -⟩ := path_done.mp h
    cases he
  | cons op ops ih =>
    obtain ⟨tr₁, r, tr₂, rfl, h₁, h₂⟩ := path_bind.mp h
    intro e he
    rcases List.mem_append.mp he with he | he
    · obtain ⟨tr', rfl, -⟩ := path_relabel.mp h₁
      obtain ⟨e', -, rfl⟩ := List.mem_map.mp he
      exact ⟨0, rfl, rfl⟩
    · split at h₂
      · obtain ⟨rfl, -⟩ := path_done.mp h₂
        cases he
      · obtain ⟨tr₃, rest, tr₄, rfl, h₃, h₄⟩ := path_bind.mp h₂
        obtain ⟨rfl, -⟩ := path_done.mp h₄
        rw [List.append_nil] at he
        obtain ⟨i, hi, hop⟩ := ih h₃ e he
        exact ⟨i + 1, by rw [hi]; omega, hop⟩

/-- **Every command on the current EF hits the EF its caller named**, for every list of operations
and every answer of the card. An APDU is one of a command; if that acts on the current EF, the last
SELECT FILE in the run is its own operation's, named the operation's EF and was accepted; if it
replaces a key, the command before it is its own operation's VERIFY of the current PIN, and was
accepted; and if it is a VERIFY that carries a value, that value is its operation's current PIN. -/
theorem performFrom_allowed {ops : List WrapperOperation} {tr : Trace Issued Answer}
    {out : List (Run (Value x509))} (h : Path (performFrom rsa x509 pf fuel 0 ops) tr out)
    {before after : Trace Issued Answer} {q : Issued} {a : Answer}
    (htr : tr = before ++ (q, a) :: after) :
    ops[q.index]? = some q.operation ∧ ∃ c, decoded q.apdu = some c ∧ AllowedInRun before q c := by
  have hsafe := (triple_performFrom rsa x509 pf fuel 0 ops [] tr out trivial h
    ((ofHistory_assumed [] tr).mpr fun _ _ _ _ _ => trivial)).1
  refine ⟨?_, (ofHistory_safe [] tr).mp hsafe before q a after htr⟩
  obtain ⟨i, hi, hop⟩ := performFrom_issued rsa x509 pf fuel h (q, a) (htr ▸ by simp)
  rw [Nat.zero_add] at hi
  rw [← hop, ← hi]

/-- The PIN `4321`. -/
def pin4321 : Pin := ⟨[0x34, 0x33, 0x32, 0x31], by decide, by decide, by decide +kernel⟩

def verifyThenChange : List WrapperOperation :=
  [.common (.verifyPin pin4321), .juki (.changePin pin4321 pin4321)]

/-- The CHANGE KEY of `verifyThenChange`. -/
def changeKeyApdu : Bytes := [0x80, 0x32, 0x00, 0x80, 0x04, 0x34, 0x33, 0x32, 0x31]

/-- What is sent before it when the card turns the first VERIFY down, and asks for the second SELECT
FILE with another `Le`. -/
def beforeChangeKey : Trace Issued Answer :=
  let first := Issued.mk 0 (.common (.verifyPin pin4321))
  let second := Issued.mk 1 (.juki (.changePin pin4321 pin4321))
  [(first [0x00, 0xA4, 0x02, 0x0C, 0x02, 0x00, 0x1C], .ok [0x90, 0x00]),
    (first [0x00, 0x20, 0x00, 0x80, 0x04, 0x34, 0x33, 0x32, 0x31], .ok [0x63, 0xC2]),
    (second [0x00, 0xA4, 0x02, 0x0C, 0x02, 0x00, 0x1C], .ok [0x6C, 0x02]),
    (second [0x00, 0xA4, 0x02, 0x0C, 0x02, 0x00, 0x1C, 0x02], .ok [0x90, 0x00]),
    (second [0x00, 0x20, 0x00, 0x80, 0x04, 0x34, 0x33, 0x32, 0x31], .ok [0x90, 0x00])]

theorem performFrom_allowed_changeKey :
    ∃ c, decoded changeKeyApdu = some c ∧
      AllowedInRun beforeChangeKey ⟨1, .juki (.changePin pin4321 pin4321), changeKeyApdu⟩ c := by
  let rsa : RsaCrate := ⟨fun _ => ⟨List.replicate 32 0, rfl⟩, fun _ => true, fun _ _ _ => true,
    fun _ _ _ => true⟩
  let x509 : X509Crate := ⟨Unit, fun _ => .ok (), fun _ => none, fun _ => none⟩
  have hrun : Path (performFrom rsa x509 .checked 0 0 verifyThenChange)
      (beforeChangeKey ++ [(⟨1, .juki (.changePin pin4321 pin4321), changeKeyApdu⟩,
        .ok [0x90, 0x00])]) [.error (.err (.pinIncorrect (some 2))), .ok (.unit ())] :=
    path_of_replay [.ok [0x90, 0x00], .ok [0x63, 0xC2], .ok [0x6C, 0x02], .ok [0x90, 0x00],
      .ok [0x90, 0x00], .ok [0x90, 0x00]] (by rfl)
  exact (performFrom_allowed rsa x509 .checked 0 hrun rfl).2

end MynaCard
