import MynaCard.FileRights

/-!
# Reading files behind keys

The reads of the wrappers, each as a `Reading`: the EF, whether its filler is read too, and what is
made of the bytes. Off a card whose keys open its files a read gives what its parser makes of the file
if the EF is open, and `6982` otherwise (`GuardsFiles.read_run`).
-/

namespace MynaCard

open Dialogue

/-! ### The reads of the wrappers -/

/-- Where a file is, how it is read, and what is made of it. -/
structure Reading (α : Type) where
  df : Bytes
  ef : UInt16
  physical : Bool
  parse : Bytes → Run α

section

variable (x509 : X509Crate) (pf : Platform) (fuel : ℕ) {α : Type}

def Reading.perform (r : Reading α) : CardM α :=
  Ap.parsed (if r.physical then Ap.readEfPhysical fuel r.ef else Ap.readEf pf fuel r.ef) r.parse

/-- What it gives of a file. -/
def Reading.value (r : Reading α) (file : Bytes) : Run α :=
  (if r.physical then .ok file else FileCard.plainResult pf file) >>= r.parse

/-- The reads of the wrappers. -/
inductive IsRead : {α : Type} → CardM α → Reading α → Prop
  | surfaceEf (id : UInt16) : IsRead (SurfaceAp.readEf pf fuel id) ⟨SurfaceAp.df, id, false, .ok⟩
  | surfaceApBasicData : IsRead (SurfaceAp.readApBasicData pf fuel)
      ⟨SurfaceAp.df, SurfaceAp.Ef.apBasicData, false, Surface.ApBasicData.parse pf⟩
  | ageRecord : IsRead (SurfaceAp.readAgeRecord pf fuel)
      ⟨SurfaceAp.df, SurfaceAp.Ef.ageRecord, false, Surface.AgeRecord.parse pf⟩
  | cardFace : IsRead (SurfaceAp.readCardFace pf fuel)
      ⟨SurfaceAp.df, SurfaceAp.Ef.cardFace, false, Surface.CardFace.parse pf⟩
  | myNumberImage : IsRead (SurfaceAp.readMyNumberImage pf fuel)
      ⟨SurfaceAp.df, SurfaceAp.Ef.myNumberImage, false, Surface.MyNumberImage.parse pf⟩
  | surfaceCertificate : IsRead (SurfaceAp.readCertificate pf fuel)
      ⟨SurfaceAp.df, SurfaceAp.Ef.certificate, false, CardVerifiableCertificate.parse pf⟩
  | textEf (id : UInt16) : IsRead (TextAp.readEf pf fuel id) ⟨TextAp.df, id, false, .ok⟩
  | myNumber : IsRead (TextAp.readMyNumber pf fuel)
      ⟨TextAp.df, TextAp.Ef.myNumber, false, Text.parseMyNumber pf⟩
  | myNumberFile : IsRead (TextAp.readMyNumberFile fuel)
      ⟨TextAp.df, TextAp.Ef.myNumber, true, .ok⟩
  | attributes : IsRead (TextAp.readAttributes pf fuel)
      ⟨TextAp.df, TextAp.Ef.attributes, false, Text.Attributes.parse pf⟩
  | textCertificate : IsRead (TextAp.readCertificate pf fuel)
      ⟨TextAp.df, TextAp.Ef.certificate, false, CardVerifiableCertificate.parse pf⟩
  | textApBasicData : IsRead (TextAp.readApBasicData pf fuel)
      ⟨TextAp.df, TextAp.Ef.apBasicData, false, Text.ApBasicData.parse pf⟩
  | integrityRecord : IsRead (TextAp.readIntegrityRecord pf fuel)
      ⟨TextAp.df, TextAp.Ef.integrity, false, Text.IntegrityRecord.parse pf⟩
  | signedPublicKey : IsRead (TextAp.readSignedPublicKey pf fuel)
      ⟨TextAp.df, TextAp.Ef.signedPublicKey, false, Text.SignedPublicKey.parse pf⟩
  | sessionKeyPublicKey : IsRead (TextAp.readSessionKeyPublicKey pf fuel)
      ⟨TextAp.df, TextAp.Ef.sessionKeyPublicKey, false, Text.SessionKeyPublicKey.parse pf⟩
  | jpkiEf (id : UInt16) : IsRead (JpkiAp.readEf pf fuel id) ⟨JpkiAp.df, id, false, .ok⟩
  | tokenType : IsRead (JpkiAp.readTokenType fuel)
      ⟨JpkiAp.df, JpkiAp.Ef.tokenInfo, true, fun raw => .ok (.fromBytes raw)⟩
  | tokenInfo : IsRead (JpkiAp.readTokenInfo fuel)
      ⟨JpkiAp.df, JpkiAp.Ef.tokenInfo, true, TokenInfo.parse⟩
  | certificateAvailability : IsRead (JpkiAp.readCertificateAvailability fuel)
      ⟨JpkiAp.df, JpkiAp.Ef.certificateAvailability, true, CertificateAvailability.parse⟩
  | authCertificate : IsRead (JpkiAp.readAuthCertificate x509 pf fuel)
      ⟨JpkiAp.df, JpkiAp.Ef.authCertificate, false, Certificate.parse x509⟩
  | authCaCertificate : IsRead (JpkiAp.readAuthCaCertificate x509 pf fuel)
      ⟨JpkiAp.df, JpkiAp.Ef.authCaCertificate, false, Certificate.parse x509⟩
  | signCertificate : IsRead (JpkiAp.readSignCertificate x509 pf fuel)
      ⟨JpkiAp.df, JpkiAp.Ef.signCertificate, false, Certificate.parse x509⟩
  | signCaCertificate : IsRead (JpkiAp.readSignCaCertificate x509 pf fuel)
      ⟨JpkiAp.df, JpkiAp.Ef.signCaCertificate, false, Certificate.parse x509⟩

theorem Ap.parsed_ok (x : CardM Bytes) : Ap.parsed x .ok = x :=
  bind_pure x

theorem IsRead.eq_perform {x : CardM α} {r : Reading α} (h : IsRead x509 pf fuel x r) :
    x = r.perform pf fuel := by
  cases h with
  | surfaceEf id | textEf id | jpkiEf id => exact (Ap.parsed_ok _).symm
  | myNumberFile => exact (Ap.parsed_ok _).symm
  | _ => rfl

/-- None of them is in the master file. -/
theorem IsRead.df_ne {x : CardM α} {r : Reading α} (h : IsRead x509 pf fuel x r) :
    r.df ≠ Ap.defaultDf := by
  have hlength : r.df.length = 10 := by
    cases h with
    | _ => rfl
  intro hdf
  rw [hdf] at hlength
  exact absurd hlength (by decide)

theorem IsRead.leavesVault {x : CardM α} {r : Reading α} (h : IsRead x509 pf fuel x r) :
    Card.Transmits Command.LeavesVault x := by
  rw [h.eq_perform]
  unfold Reading.perform
  cases r.physical with
  | true => exact (Card.leavesVault_readEfPhysical fuel r.ef).parsed r.parse
  | false => exact (Card.leavesVault_readEf pf fuel r.ef).parsed r.parse

end

section

variable {τ α : Type} {held : Holdings} {answer : Bytes → τ → Answer × τ} {view : τ → KeyCard}
  {unlocked : τ → Set UInt16} {x509 : X509Crate} {pf : Platform} {fuel : ℕ}

/-- A read off a card whose keys open its files. -/
theorem GuardsFiles.read_run (h : GuardsFiles held answer view unlocked) {x : CardM α}
    {r : Reading α} (hread : IsRead x509 pf fuel x r) {file : Bytes} {s : τ}
    (hdf : (view s).vault.df = r.df) (hfile : held.files r.df r.ef = some file)
    (hsize : file.length ≤ 0x8000) :
    (held.Open r.df r.ef (unlocked s) → (x.run.run answer s).1 = r.value pf file) ∧
      (¬ held.Open r.df r.ef (unlocked s) →
        (x.run.run answer s).1 = .error (.err (.status ⟨0x6982⟩))) := by
  rw [hread.eq_perform]
  constructor
  · intro hopen
    obtain ⟨hall, hphysical⟩ := h.readEf_open fuel pf hdf hfile hopen hsize
    refine run_bind_lift ?_
    cases r.physical with
    | true => exact hphysical
    | false => exact hall
  · intro hclosed
    obtain ⟨hall, hphysical⟩ := h.readEf_closed fuel pf hdf hfile hclosed
    refine run_bind_lift (r := .error (.err (.status ⟨0x6982⟩))) ?_
    cases r.physical with
    | true => exact hphysical
    | false => exact hall

end

end MynaCard
