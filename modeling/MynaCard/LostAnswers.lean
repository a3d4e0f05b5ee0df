import MynaCard.FailFast
import MynaCard.WrapperRuns

/-!
# Lost answers

A transport that fails, and an answer too short to be a response, end the operation that was waiting
for it: it sends nothing more and returns the error (`perform_failsFast`). The loops of the file
readers do look at errors, to tell the end of a file, but only at status words.

So in a run no operation sends anything after an answer to it was lost (`performFrom_lost`).
-/

namespace MynaCard

open Dialogue

/-- The error a lost answer stands for. An error with a status word is the card's, not the
transport's. -/
def lost (a : Answer) : Option Stop :=
  match Card.answered a with
  | .error (.err (.status _)) => none
  | .error stop => some stop
  | .ok _ => none

/-- The operation ends when an answer to it is lost. -/
def EndsWhenLost {α : Type} (x : CardM α) : Prop := FailsFast lost x.run

/-- What a lost answer stands for is an error, and not one with a status word. -/
theorem lost_eq_some {a : Answer} {stop : Stop} (h : lost a = some stop) :
    Card.answered a = .error stop ∧ ∃ e, stop = .err e ∧ ∀ sw, e ≠ .status sw := by
  unfold lost at h
  cases ha : Card.answered a with
  | ok r =>
    rw [ha] at h
    cases h
  | error stop' =>
    rw [ha] at h
    obtain ⟨e, rfl⟩ := Card.answered_eq_error ha
    cases e with
    | status sw => cases h
    | _ =>
      obtain rfl := Option.some.inj h
      exact ⟨rfl, _, rfl, by intro sw hsw; cases hsw⟩

theorem isEndOfFile_of_ne_status {e : Error} (h : ∀ sw, e ≠ .status sw) : e.isEndOfFile = false := by
  cases e with
  | status sw => exact absurd rfl (h sw)
  | _ => rfl

namespace EndsWhenLost

variable {α β : Type}

theorem of_run (x : Run α) : EndsWhenLost (liftM x : CardM α) := trivial

theorem pure (a : α) : EndsWhenLost (pure a : CardM α) := trivial

theorem throw (stop : Stop) : EndsWhenLost (throw stop : CardM α) := trivial

theorem bind {x : CardM α} {f : α → CardM β} (hx : EndsWhenLost x)
    (hf : ∀ a, EndsWhenLost (f a)) : EndsWhenLost (x >>= f) :=
  FailsFast.exceptT_bind hx hf

/-- An operation whose error is looked at, and handed on if it is not a status word. -/
theorem attempt_bind {x : CardM α} {f : Except Error α → CardM β} (hx : EndsWhenLost x)
    (hf : ∀ r, EndsWhenLost (f r))
    (herr : ∀ e, (∀ sw, e ≠ .status sw) → f (.error e) = MonadExcept.throw (Stop.err e)) :
    EndsWhenLost (attempt x >>= f) := by
  unfold EndsWhenLost
  rw [exceptT_run_bind]
  show FailsFast lost ((x.run.bind _).bind _)
  rw [Dialogue.bind_assoc]
  refine FailsFast.bind hx (fun r => ?_) fun a stop ha => ?_
  · cases r with
    | ok a => exact hf (.ok a)
    | error stop =>
      cases stop with
      | err e => exact hf (.error e)
      | panic why => trivial
      | abort => trivial
      | running => trivial
  · obtain ⟨-, e, rfl, he⟩ := lost_eq_some ha
    show (f (.error e)).run = _
    rw [herr e he]
    rfl

end EndsWhenLost

/-! ### Operations of a card -/

/-- One exchange, and what is done with the response. -/
theorem failsFast_exchange {α : Type} {q : Bytes} {f : Response → Dialogue Bytes Answer (Run α)}
    (hf : ∀ r, FailsFast lost (f r)) :
    FailsFast lost (.ask q fun a => orElseDone f (Card.answered a)) := by
  intro a
  refine ⟨?_, ?_⟩
  · show FailsFast lost (orElseDone f (Card.answered a))
    cases Card.answered a with
    | ok r => exact hf r
    | error stop => trivial
  · intro stop ha
    show orElseDone f (Card.answered a) = _
    rw [(lost_eq_some ha).1]
    rfl

section

variable (fuel : ℕ)

theorem endsWhenLost_collect (r : Response) : EndsWhenLost (Card.collect fuel r) := by
  induction fuel generalizing r with
  | zero =>
    cases hmore : r.status.moreDataAvailable with
    | none =>
      rw [Card.collect_done 0 hmore]
      exact .pure r
    | some n =>
      rw [Card.collect_zero hmore]
      exact .throw _
  | succ fuel ih =>
    cases hmore : r.status.moreDataAvailable with
    | none =>
      rw [Card.collect_done _ hmore]
      exact .pure r
    | some n =>
      unfold EndsWhenLost
      by_cases hn : n = 0
      · obtain ⟨stop, hrun⟩ := Card.collect_run_6100 (fuel + 1) (hn ▸ hmore)
        rw [hrun]
        trivial
      · rw [Card.collect_run fuel hmore hn]
        exact failsFast_exchange fun next => ih _

theorem endsWhenLost_call (c : Command) : EndsWhenLost (Card.call fuel c) := by
  unfold EndsWhenLost
  by_cases hv : c.Valid
  · rw [Card.call_run fuel hv]
    refine failsFast_exchange fun r => ?_
    unfold Card.afterFirst
    cases r.status.correctLe with
    | none => exact endsWhenLost_collect fuel r
    | some le => exact failsFast_exchange fun r' => endsWhenLost_collect fuel r'
  · obtain ⟨e, hrun⟩ := Card.call_run_not_valid fuel hv
    rw [hrun]
    trivial

theorem endsWhenLost_callOk (c : Command) : EndsWhenLost (Card.callOk fuel c) :=
  (endsWhenLost_call fuel c).bind fun r => .of_run r.intoData

theorem endsWhenLost_send (c : Command) :
    EndsWhenLost (Card.callOk fuel c >>= fun _ => (pure () : CardM Unit)) :=
  (endsWhenLost_callOk fuel c).bind fun _ => .pure ()

theorem endsWhenLost_selectDf (name : Bytes) : EndsWhenLost (Card.selectDf fuel name) := by
  unfold Card.selectDf
  split
  · exact (EndsWhenLost.throw _).bind fun _ => endsWhenLost_send fuel _
  · exact endsWhenLost_send fuel _

theorem endsWhenLost_onEf {α : Type} (id : UInt16) {x : CardM α} (hx : EndsWhenLost x) :
    EndsWhenLost (Ap.onEf fuel id x) :=
  (endsWhenLost_send fuel _).bind fun _ => hx

theorem endsWhenLost_chunk (offset : ℕ) (le : UInt32) :
    EndsWhenLost (Card.readBinaryChunk fuel offset le) := by
  unfold Card.readBinaryChunk
  split
  · exact (EndsWhenLost.throw _).bind fun _ => endsWhenLost_callOk fuel _
  · exact endsWhenLost_callOk fuel _

theorem endsWhenLost_readBinaryLoop (offset length : ℕ) (out : Bytes) :
    EndsWhenLost (Card.readBinaryLoop fuel offset length out) := by
  induction hmeasure : length - out.length using Nat.strong_induction_on generalizing out with
  | _ n ih =>
    subst hmeasure
    by_cases hmore : out.length < length
    · rw [Card.readBinaryLoop_more fuel offset hmore]
      refine EndsWhenLost.attempt_bind (endsWhenLost_chunk fuel _ _) (fun r => ?_) fun e he => ?_
      · cases r with
        | ok chunk =>
          dsimp only
          split
          · exact .pure out
          · rename_i hne
            have hpos := List.length_pos_iff.mpr hne
            exact ih _ (by rw [List.length_append]; omega) (out ++ chunk) rfl
        | error e =>
          dsimp only
          split
          · exact .pure out
          · exact .throw _
      · dsimp only
        rw [isEndOfFile_of_ne_status he]
        rfl
    · rw [Card.readBinaryLoop_done fuel offset hmore]
      exact .pure out

theorem endsWhenLost_readToEnd (out : Bytes) : EndsWhenLost (Card.readToEnd fuel out) := by
  induction hmeasure : maxOffset + 1 - out.length using Nat.strong_induction_on
    generalizing out with
  | _ n ih =>
    subst hmeasure
    by_cases hmore : out.length ≤ maxOffset
    · rw [Card.readToEnd_more fuel hmore]
      refine EndsWhenLost.attempt_bind (endsWhenLost_chunk fuel _ _) (fun r => ?_) fun e he => ?_
      · cases r with
        | ok chunk =>
          dsimp only
          split
          · exact .pure out
          · rename_i hne
            have hpos := List.length_pos_iff.mpr hne
            split
            · exact .pure _
            · exact ih _ (by rw [List.length_append]; omega) (out ++ chunk) rfl
        | error e =>
          dsimp only
          split
          · exact .pure out
          · exact .throw _
      · dsimp only
        rw [isEndOfFile_of_ne_status he]
        rfl
    · rw [Card.readToEnd_done fuel hmore]
      exact .pure out

theorem endsWhenLost_readBinary (pf : Platform) (offset length : ℕ) :
    EndsWhenLost (Card.readBinary pf fuel offset length) :=
  (EndsWhenLost.of_run _).bind fun _ => endsWhenLost_readBinaryLoop fuel _ _ _

theorem endsWhenLost_readOn (pf : Platform) (out : Bytes) :
    EndsWhenLost (Card.readOn pf fuel out) := by
  unfold Card.readOn
  split
  · exact .pure out
  · split
    · refine (EndsWhenLost.of_run _).bind fun total => ?_
      split
      · exact .pure _
      · exact (endsWhenLost_readBinary fuel pf _ _).bind fun rest => .pure _
    · exact endsWhenLost_readToEnd fuel out

theorem endsWhenLost_readBinaryAll (pf : Platform) :
    EndsWhenLost (Card.readBinaryAll pf fuel) := by
  refine EndsWhenLost.attempt_bind (endsWhenLost_chunk fuel 0 256) (fun r => ?_) fun e he => ?_
  · cases r with
    | ok chunk => exact endsWhenLost_readOn fuel pf chunk
    | error e =>
      dsimp only
      split
      · exact .pure []
      · exact .throw _
  · dsimp only
    rw [isEndOfFile_of_ne_status he]
    rfl

theorem endsWhenLost_readRecord (record : UInt8) : EndsWhenLost (Card.readRecord fuel record) := by
  unfold Card.readRecord
  split
  · exact (EndsWhenLost.throw _).bind fun _ => endsWhenLost_callOk fuel _
  · exact endsWhenLost_callOk fuel _

theorem endsWhenLost_readRecordsFrom (first : UInt8) :
    EndsWhenLost (Card.readRecordsFrom fuel first) := by
  unfold Card.readRecordsFrom
  split
  · exact (EndsWhenLost.throw _).bind fun _ => endsWhenLost_callOk fuel _
  · exact endsWhenLost_callOk fuel _

theorem endsWhenLost_getData (tag : UInt16) : EndsWhenLost (Card.getData fuel tag) := by
  refine (endsWhenLost_call fuel _).bind fun response => ?_
  split
  · exact .pure _
  · split
    · exact endsWhenLost_callOk fuel _
    · exact .throw _

theorem endsWhenLost_internalAuthenticate (sfi : ShortEfId) (challenge : Bytes) :
    EndsWhenLost (Card.internalAuthenticate fuel sfi challenge) := by
  unfold Card.internalAuthenticate
  split
  · exact .of_run _
  · exact endsWhenLost_callOk fuel _

theorem endsWhenLost_pinRetries : EndsWhenLost (Card.pinRetries fuel) :=
  (endsWhenLost_call fuel _).bind fun r => .of_run (interpretRetries r.status)

/-! ### Operations of the wrappers -/

theorem EndsWhenLost.yielding {α β : Type} {x : CardM α} (hx : EndsWhenLost x) (f : α → β) :
    EndsWhenLost (yielding f x) :=
  hx.bind fun _ => .pure ()

theorem EndsWhenLost.parsed {α : Type} {x : CardM Bytes} (hx : EndsWhenLost x)
    (parse : Bytes → Run α) : EndsWhenLost (Ap.parsed x parse) :=
  hx.bind fun raw => .of_run (parse raw)

theorem endsWhenLost_readEf (pf : Platform) (id : UInt16) :
    EndsWhenLost (Ap.readEf pf fuel id) :=
  endsWhenLost_onEf fuel id (endsWhenLost_readBinaryAll fuel pf)

theorem endsWhenLost_verifyKey (id : UInt16) (value : Pin) :
    EndsWhenLost (Ap.verifyKey fuel id value) :=
  endsWhenLost_onEf fuel id (endsWhenLost_send fuel _)

theorem endsWhenLost_changePin (id : UInt16) (currentPin : Pin) (c : Command) :
    EndsWhenLost (Ap.changePin fuel id currentPin (Card.callOk fuel c >>= fun _ => pure ())) :=
  endsWhenLost_onEf fuel id ((endsWhenLost_send fuel _).bind fun _ => endsWhenLost_send fuel c)

theorem endsWhenLost_keyRetries (id : UInt16) : EndsWhenLost (Ap.keyRetries fuel id) :=
  endsWhenLost_onEf fuel id (endsWhenLost_pinRetries fuel)

theorem endsWhenLost_sign (key : UInt16) (scheme : SignatureScheme) (data : Bytes) :
    EndsWhenLost (JpkiAp.sign fuel key scheme data) :=
  (EndsWhenLost.of_run _).bind fun _ => (EndsWhenLost.of_run _).bind fun _ =>
    endsWhenLost_callOk fuel _

theorem endsWhenLost_signChecked (rsa : RsaCrate) (x509 : X509Crate) (pf : Platform)
    (id : UInt16) (key : UInt16) (scheme : SignatureScheme) (data : Bytes) :
    EndsWhenLost (JpkiAp.signChecked rsa x509
      (Ap.parsed (Ap.readEf pf fuel id) (Certificate.parse x509))
      (JpkiAp.sign fuel key scheme data) scheme data) :=
  ((endsWhenLost_readEf fuel pf id).parsed _).bind fun _ => (EndsWhenLost.of_run _).bind fun _ =>
    (endsWhenLost_sign fuel key scheme data).bind fun _ => (EndsWhenLost.of_run _).bind fun _ =>
      .pure _

theorem endsWhenLost_openSecureSession (pf : Platform)
    (encryptOaep : RsaPublicKey → Bytes → Run Bytes) (seed : Block × Block) :
    EndsWhenLost (TextAp.openSecureSession pf fuel encryptOaep seed) :=
  ((endsWhenLost_readEf fuel pf _).parsed _).bind fun _ => (EndsWhenLost.of_run _).bind fun _ =>
    (endsWhenLost_callOk fuel _).bind fun _ => .pure _

theorem endsWhenLost_certificateChainFrom (pf : Platform) (tags : List UInt16)
    (chain : List CardVerifiableCertificate) :
    EndsWhenLost (MasterFile.certificateChainFrom pf fuel tags chain) := by
  induction tags generalizing chain with
  | nil => exact .pure chain
  | cons tag tags ih =>
    refine EndsWhenLost.attempt_bind (endsWhenLost_getData fuel tag) (fun r => ?_) fun e he => ?_
    · cases r with
      | ok raw => exact (EndsWhenLost.of_run _).bind fun certificate => ih _
      | error e =>
        dsimp only
        split
        · exact .pure chain
        · exact .throw _
    · dsimp only
      rw [if_neg (by simp [he])]

theorem endsWhenLost_readRecordsUntil (records : List UInt8) (out : Bytes) :
    EndsWhenLost (MasterFile.readRecordsUntil fuel records out) := by
  induction records generalizing out with
  | nil => exact .pure out
  | cons record records ih =>
    refine EndsWhenLost.attempt_bind (endsWhenLost_readRecord fuel record) (fun r => ?_)
      fun e he => ?_
    · cases r with
      | ok data =>
        dsimp only
        split
        · exact .pure out
        · exact ih _
      | error e =>
        dsimp only
        split
        · exact .pure out
        · exact .throw _
    · dsimp only
      rw [if_neg (he _)]

theorem endsWhenLost_readAllRecords (id : UInt16) :
    EndsWhenLost (MasterFile.readAllRecords fuel id) := by
  refine endsWhenLost_onEf fuel id (EndsWhenLost.attempt_bind
    (endsWhenLost_readRecordsFrom fuel 1) (fun r => ?_) fun e he => ?_)
  · cases r with
    | ok data => exact .pure data
    | error e =>
      dsimp only
      split
      · exact endsWhenLost_readRecordsUntil fuel _ []
      · exact .throw _
  · dsimp only
    rw [if_neg (he _)]

variable (rsa : RsaCrate) (x509 : X509Crate) (pf : Platform)

theorem WrapperOperation.endsWhenLost (op : WrapperOperation) :
    EndsWhenLost (op.perform rsa x509 pf fuel) := by
  cases op with
  | common op =>
    cases op with
    | select => exact (endsWhenLost_selectDf fuel CommonAp.df).yielding _
    | verifyPin pin => exact (endsWhenLost_verifyKey fuel _ pin).yielding _
    | changePin currentPin newPin => exact (endsWhenLost_changePin fuel _ currentPin _).yielding _
    | pinRetries => exact (endsWhenLost_keyRetries fuel _).yielding _
    | readRecord id record =>
      exact (endsWhenLost_onEf fuel id (endsWhenLost_readRecord fuel record)).yielding _
    | readCardInfo =>
      exact ((endsWhenLost_onEf fuel _ (endsWhenLost_readRecord fuel 1)).parsed _).yielding _
    | internalAuthenticate challenge =>
      exact EndsWhenLost.yielding ((EndsWhenLost.of_run _).bind fun sfi =>
        endsWhenLost_internalAuthenticate fuel sfi challenge) _
  | juki op =>
    cases op with
    | select => exact (endsWhenLost_selectDf fuel JukiAp.df).yielding _
    | verifyPin pin => exact (endsWhenLost_verifyKey fuel _ pin).yielding _
    | changePin currentPin newPin => exact (endsWhenLost_changePin fuel _ currentPin _).yielding _
    | pinRetries => exact (endsWhenLost_keyRetries fuel _).yielding _
    | readRecord id record =>
      exact (endsWhenLost_onEf fuel id (endsWhenLost_readRecord fuel record)).yielding _
  | surface op =>
    cases op with
    | select => exact (endsWhenLost_selectDf fuel SurfaceAp.df).yielding _
    | verifyBirthDate code | verifyCodeA code | verifyCodeB code =>
      exact (endsWhenLost_verifyKey fuel _ code).yielding _
    | retries key => exact (endsWhenLost_keyRetries fuel key).yielding _
    | readEf id => exact (endsWhenLost_readEf fuel pf id).yielding _
    | readApBasicData | readAgeRecord | readCardFace | readMyNumberImage | readCertificate =>
      exact ((endsWhenLost_readEf fuel pf _).parsed _).yielding _
    | sign data => exact (endsWhenLost_callOk fuel _).yielding _
  | text op =>
    cases op with
    | select => exact (endsWhenLost_selectDf fuel TextAp.df).yielding _
    | verifyPin pin | verifyCodeA pin | verifyCodeB pin =>
      exact (endsWhenLost_verifyKey fuel _ pin).yielding _
    | changePin currentPin newPin => exact (endsWhenLost_changePin fuel _ currentPin _).yielding _
    | retries key => exact (endsWhenLost_keyRetries fuel key).yielding _
    | readEf id => exact (endsWhenLost_readEf fuel pf id).yielding _
    | readMyNumber | readAttributes | readCertificate | readApBasicData | readIntegrityRecord
    | readSignedPublicKey | readSessionKeyPublicKey =>
      exact ((endsWhenLost_readEf fuel pf _).parsed _).yielding _
    | readMyNumberFile =>
      exact (endsWhenLost_onEf fuel _ (endsWhenLost_readToEnd fuel [])).yielding _
    | sign data => exact (endsWhenLost_callOk fuel _).yielding _
    | openSecureSession encryptOaep seed =>
      exact (endsWhenLost_openSecureSession fuel pf encryptOaep seed).yielding _
  | jpki op =>
    cases op with
    | select => exact (endsWhenLost_selectDf fuel JpkiAp.df).yielding _
    | verifyAuthPin pin | verifySignPin pin => exact (endsWhenLost_verifyKey fuel _ pin).yielding _
    | changeAuthPin currentPin newPin | changeSignPin currentPin newPin =>
      exact (endsWhenLost_changePin fuel _ currentPin _).yielding _
    | authPinRetries | signPinRetries => exact (endsWhenLost_keyRetries fuel _).yielding _
    | readEf id => exact (endsWhenLost_readEf fuel pf id).yielding _
    | readTokenType | readTokenInfo | readCertificateAvailability =>
      exact ((endsWhenLost_onEf fuel _ (endsWhenLost_readToEnd fuel [])).parsed _).yielding _
    | readAuthCertificateDer | readAuthCaCertificateDer | readSignCertificateDer
    | readSignCaCertificateDer => exact (endsWhenLost_readEf fuel pf _).yielding _
    | readAuthCertificate | readAuthCaCertificate | readSignCertificate | readSignCaCertificate =>
      exact ((endsWhenLost_readEf fuel pf _).parsed _).yielding _
    | signWithAuthKey scheme data | signWithSignKey scheme data =>
      exact (endsWhenLost_sign fuel _ scheme data).yielding _
    | signWithAuthKeyChecked scheme data | signWithSignKeyChecked scheme data =>
      exact (endsWhenLost_signChecked fuel rsa x509 pf _ _ scheme data).yielding _
  | masterFile op =>
    cases op with
    | select => exact (endsWhenLost_selectDf fuel Ap.defaultDf).yielding _
    | new => exact (EndsWhenLost.pure ()).yielding _
    | dataObject tag => exact (endsWhenLost_getData fuel tag).yielding _
    | certificateChain => exact (endsWhenLost_certificateChainFrom fuel pf _ []).yielding _
    | cardIdentifier | applicationFolders | icManufacturerId =>
      exact ((endsWhenLost_readAllRecords fuel _).parsed _).yielding _
    | readAllRecords id => exact (endsWhenLost_readAllRecords fuel id).yielding _

/-- **An operation whose answer is lost sends nothing more and returns the error**, whatever the
operation, and wherever in it the answer is lost. -/
theorem perform_lost (op : WrapperOperation) {tr : Trace Bytes Answer} {out : Run (Value x509)}
    (h : Path (op.perform rsa x509 pf fuel).run tr out) {before after : Trace Bytes Answer}
    {apdu : Bytes} {a : Answer} {stop : Stop} (htr : tr = before ++ (apdu, a) :: after)
    (ha : lost a = some stop) : after = [] ∧ out = .error stop :=
  FailsFast.path (op.endsWhenLost fuel rsa x509 pf) h htr ha

/-- An operation of a run from place `n` an answer to which is lost. -/
theorem performFrom_lost_from {n : ℕ} {ops : List WrapperOperation} {tr : Trace Issued Answer}
    {out : List (Run (Value x509))} (h : Path (performFrom rsa x509 pf fuel n ops) tr out)
    {before after : Trace Issued Answer} {q : Issued} {a : Answer} {stop : Stop}
    (htr : tr = before ++ (q, a) :: after) (ha : lost a = some stop) :
    ∃ i, q.index = n + i ∧ out[i]? = some (.error stop) ∧ ∀ e ∈ after, q.index < e.1.index := by
  induction ops generalizing n tr out before with
  | nil =>
    obtain ⟨rfl, -⟩ := path_done.mp h
    cases before <;> cases htr
  | cons op ops ih =>
    obtain ⟨tr₁, r, tr₂, rfl, h₁, h₂⟩ := path_bind.mp h
    obtain ⟨tr', rfl, hop⟩ := path_relabel.mp h₁
    -- what the operations after this one send, and what they return
    have hrest : (tr₂ = [] ∨ ∃ rest, Path (performFrom rsa x509 pf fuel (n + 1) ops) tr₂ rest ∧
        out = r :: rest) ∧ out[0]? = some r := by
      split at h₂
      · obtain ⟨rfl, rfl⟩ := path_done.mp h₂
        exact ⟨.inl rfl, rfl⟩
      · obtain ⟨tr₃, rest, tr₄, rfl, h₃, h₄⟩ := path_bind.mp h₂
        obtain ⟨rfl, rfl⟩ := path_done.mp h₄
        rw [List.append_nil]
        exact ⟨.inr ⟨rest, h₃, rfl⟩, rfl⟩
    obtain ⟨hrest, hfirst⟩ := hrest
    rcases List.append_eq_append_iff.mp htr with ⟨mid, hbefore, hmid⟩ | ⟨mid, hmid, hafter⟩
    · -- lost after this operation
      obtain rfl | ⟨rest, h₃, rfl⟩ := hrest
      · cases mid <;> cases hmid
      · obtain ⟨i, hi, hout, hlater⟩ := ih h₃ hmid
        exact ⟨i + 1, by rw [hi]; omega, hout, hlater⟩
    cases mid with
    | nil =>
      obtain rfl | ⟨rest, h₃, rfl⟩ := hrest
      · cases hafter
      · obtain ⟨i, hi, hout, hlater⟩ := ih h₃ (show tr₂ = [] ++ _ from hafter.symm)
        exact ⟨i + 1, by rw [hi]; omega, hout, hlater⟩
    | cons e mid =>
      -- lost in this operation, which has sent nothing since
      obtain ⟨rfl, hmid'⟩ := List.cons.inj hafter
      subst hmid'
      obtain ⟨before', rest', rfl, -, hlost⟩ := List.map_eq_append_iff.mp hmid
      obtain ⟨e', after', rfl, he', rfl⟩ := List.map_eq_cons_iff.mp hlost
      obtain ⟨rfl, rfl⟩ := Prod.mk.inj he'
      obtain ⟨rfl, rfl⟩ := perform_lost fuel rsa x509 pf op hop rfl ha
      refine ⟨0, rfl, hfirst, fun e he => ?_⟩
      replace he : e ∈ tr₂ := he
      obtain rfl | ⟨rest, h₃, -⟩ := hrest
      · cases he
      · obtain ⟨i, hi, -⟩ := performFrom_issued rsa x509 pf fuel h₃ e he
        rw [hi]
        show n < n + 1 + i
        omega

/-- **In a run, an operation an answer to which was lost returns the error, and nothing more is sent
for it**: every later APDU is of a later operation. -/
theorem performFrom_lost {ops : List WrapperOperation} {tr : Trace Issued Answer}
    {out : List (Run (Value x509))} (h : Path (performFrom rsa x509 pf fuel 0 ops) tr out)
    {before after : Trace Issued Answer} {q : Issued} {a : Answer} {stop : Stop}
    (htr : tr = before ++ (q, a) :: after) (ha : lost a = some stop) :
    out[q.index]? = some (.error stop) ∧ ∀ e ∈ after, q.index < e.1.index := by
  obtain ⟨i, hi, hout, hlater⟩ := performFrom_lost_from fuel rsa x509 pf h htr ha
  rw [Nat.zero_add] at hi
  exact ⟨hi ▸ hout, hlater⟩

end

/-- A PIN verification in one application and a selection of another. -/
def verifyThenSelect : List WrapperOperation := [.common (.verifyPin pin4321), .juki .select]

/-- What the first operation sends. -/
def verifyIssued (apdu : Bytes) : Issued := ⟨0, .common (.verifyPin pin4321), apdu⟩

/-- What the second operation sends, and an answer that is too short. -/
def selectTrace : Trace Issued Answer :=
  [(⟨1, .juki .select, [0x00, 0xA4, 0x04, 0x0C, 0x0A, 0xD3, 0x92, 0x10, 0x00, 0x31, 0x00, 0x01, 0x01,
    0x04, 0x01]⟩, .ok [0x90])]

/-- What the two operations return. -/
def lostReturns : List (Run (Value .blank)) :=
  [.error (.err .noReader), .error (.err (.shortResponse 1))]

/-- The transport fails on the second command of the first operation: that operation returns its
error and sends nothing more. -/
theorem performFrom_lost_twice :
    Path (performFrom .pkcs1 .blank .checked 0 0 verifyThenSelect)
        ([(verifyIssued [0x00, 0xA4, 0x02, 0x0C, 0x02, 0x00, 0x1C], .ok [0x90, 0x00])] ++
          (verifyIssued [0x00, 0x20, 0x00, 0x80, 0x04, 0x34, 0x33, 0x32, 0x31], .error .noReader) ::
          selectTrace) lostReturns ∧
      lostReturns[0]? = some (.error (.err .noReader)) ∧ ∀ e ∈ selectTrace, 0 < e.1.index := by
  have hrun : Path (performFrom .pkcs1 .blank .checked 0 0 verifyThenSelect)
      ([(verifyIssued [0x00, 0xA4, 0x02, 0x0C, 0x02, 0x00, 0x1C], .ok [0x90, 0x00])] ++
        (verifyIssued [0x00, 0x20, 0x00, 0x80, 0x04, 0x34, 0x33, 0x32, 0x31], .error .noReader) ::
        selectTrace) lostReturns :=
    path_of_replay [.ok [0x90, 0x00], .error .noReader, .ok [0x90]] (by rfl)
  have hlost : lost (.error .noReader) = some (.err .noReader) := rfl
  exact ⟨hrun, performFrom_lost 0 .pkcs1 .blank .checked hrun rfl hlost⟩

end MynaCard
