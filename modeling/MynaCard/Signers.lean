import MynaCard.Deliveries
import MynaCard.Readings

/-!
# Private keys behind keys

A card whose keys open its files may have private keys, each in an EF its keys open as well. It signs
for who has opened the EF, and answers `6982` to everyone else. **A signature operation gives the
signature of the key exactly if the input is one of the scheme, the EF is open, and a checked operation
finds the signature good under the certificate on the card** (`signing_eq_ok_iff`).
-/

namespace MynaCard

open Dialogue

/-! ### Private keys -/

/-- COMPUTE SIGNATURE by the key that P2 names. -/
def signCommand (p1 p2 : UInt8) (data : Bytes) : Command :=
  .withDataLe 0x80 Ins.computeSignature p1 p2 data 256

/-- A private key: the EF it is in, and what it makes of a data field. -/
structure PrivateKey where
  ef : UInt16
  sign : SignatureScheme → Bytes → Bytes

section

variable {τ : Type}

/-- The party keeps keys, files and private keys that open to them. The private keys of an application
are named by a P2. -/
structure GuardsSigners (held : Holdings) (signers : Bytes → UInt8 → Option PrivateKey)
    (answer : Bytes → τ → Answer × τ) (view : τ → KeyCard) (unlocked : τ → Set UInt16)
    (fuel : ℕ) : Prop extends GuardsFiles held answer view unlocked where
  signs : ∀ s (scheme : SignatureScheme) p2 key data, signers (view s).vault.df p2 = some key →
    held.Open (view s).vault.df key.ef (unlocked s) → scheme.checkInput data = .ok () →
      ∃ s', Delivers answer fuel (signCommand scheme.p1 p2 data) s
        ⟨key.sign scheme data, .success⟩ s'
  refusesToSign : ∀ s (scheme : SignatureScheme) p2 key data,
    signers (view s).vault.df p2 = some key → ¬ held.Open (view s).vault.df key.ef (unlocked s) →
      scheme.checkInput data = .ok () →
        ∃ r s', Delivers answer fuel (signCommand scheme.p1 p2 data) s r s' ∧ r.status = ⟨0x6982⟩

end

/-! ### The signature operations -/

/-- The P2 that names the private key, and the EF of the certificate the signature is checked under,
if it is checked. -/
structure Signing where
  p2 : UInt8
  certificate : Option UInt16

section

variable (rsa : RsaCrate) (x509 : X509Crate) (pf : Platform) (fuel : ℕ)
  (scheme : SignatureScheme) (data : Bytes)

/-- The signature operations of `JpkiAp`. -/
inductive IsSigning : CardM Bytes → Signing → Prop
  | authKey : IsSigning (JpkiAp.signWithAuthKey fuel scheme data) ⟨0x97, none⟩
  | signKey : IsSigning (JpkiAp.signWithSignKey fuel scheme data) ⟨0x9A, none⟩
  | authKeyChecked : IsSigning (JpkiAp.signWithAuthKeyChecked rsa x509 pf fuel scheme data)
      ⟨0x97, some JpkiAp.Ef.authCertificate⟩
  | signKeyChecked : IsSigning (JpkiAp.signWithSignKeyChecked rsa x509 pf fuel scheme data)
      ⟨0x9A, some JpkiAp.Ef.signCertificate⟩

/-- The read of a certificate in the JPKI application. -/
def certificateReading (id : UInt16) : Reading (Certificate x509) :=
  ⟨JpkiAp.df, id, false, Certificate.parse x509⟩

/-- The signature is good under the key of the certificate in an EF. -/
def Certified (held : Holdings) (id : UInt16) (signature : Bytes) : Prop :=
  ∃ file certificate key, held.files JpkiAp.df id = some file ∧
    (certificateReading x509 id).value pf file = .ok certificate ∧ certificate.publicKey = .ok key ∧
    scheme.verify rsa key data signature = .ok ()

/-- The command a signature operation is made of. -/
def signBy (p2 : UInt8) : CardM Bytes := do
  scheme.checkInput data
  Card.callOk fuel (signCommand scheme.p1 p2 data)

variable {rsa x509 pf fuel scheme data}

theorem IsSigning.eq {x : CardM Bytes} {r : Signing}
    (h : IsSigning rsa x509 pf fuel scheme data x r) :
    (r.certificate = none ∧ x = signBy fuel scheme data r.p2) ∨
      ∃ id read, r.certificate = some id ∧ IsRead x509 pf fuel read (certificateReading x509 id) ∧
        x = JpkiAp.signChecked rsa x509 read (signBy fuel scheme data r.p2) scheme data := by
  cases h with
  | authKey | signKey => exact .inl ⟨rfl, rfl⟩
  | authKeyChecked => exact .inr ⟨_, _, rfl, .authCertificate, rfl⟩
  | signKeyChecked => exact .inr ⟨_, _, rfl, .signCertificate, rfl⟩

end

section

variable {τ : Type} {held : Holdings} {signers : Bytes → UInt8 → Option PrivateKey}
  {answer : Bytes → τ → Answer × τ} {view : τ → KeyCard} {unlocked : τ → Set UInt16} {fuel : ℕ}
  (h : GuardsSigners held signers answer view unlocked fuel) {rsa : RsaCrate} {x509 : X509Crate}
  {pf : Platform} {scheme : SignatureScheme} {data : Bytes} {s : τ}
  (hdf : (view s).vault.df = JpkiAp.df)

theorem signCommand_valid (p2 : UInt8) (hinput : scheme.checkInput data = .ok ()) :
    (signCommand scheme.p1 p2 data).Valid := by
  have hlong : data.length ≤ 255 := by
    unfold SignatureScheme.checkInput at hinput
    split at hinput
    · rename_i hallowed
      exact hallowed.2.trans (by cases scheme <;> decide)
    · cases hinput
  refine ⟨hlong.trans (by decide), ?_⟩
  intro le hle
  obtain rfl := Option.some.inj hle
  decide

include h hdf

/-- The command gives the signature exactly to who has opened the key. -/
theorem GuardsSigners.signBy_eq_ok_iff {p2 : UInt8} {key : PrivateKey}
    (hkey : signers JpkiAp.df p2 = some key) {signature : Bytes} :
    ((signBy fuel scheme data p2).run.run answer s).1 = .ok signature ↔
      scheme.checkInput data = .ok () ∧ held.Open JpkiAp.df key.ef (unlocked s) ∧
        signature = key.sign scheme data := by
  rw [← hdf] at hkey ⊢
  rw [signBy, run_lift_bind_eq_ok_iff]
  constructor
  · rintro ⟨u, hinput, hsign⟩
    have hv := signCommand_valid p2 hinput
    by_cases hopen : held.Open (view s).vault.df key.ef (unlocked s)
    · obtain ⟨s', hdelivers⟩ := h.signs s scheme p2 key data hkey hopen hinput
      rw [hdelivers.callOk_run hv] at hsign
      exact ⟨hinput, hopen, (Except.ok.inj hsign).symm⟩
    · obtain ⟨r, s', hdelivers, hstatus⟩ := h.refusesToSign s scheme p2 key data hkey hopen hinput
      have hrefused : r.intoData ≠ .ok signature := by
        intro hdata
        have hsuccess := (Response.intoData_eq_ok.mp hdata).1
        rw [hstatus] at hsuccess
        exact absurd hsuccess (by decide)
      rw [hdelivers.callOk_run hv] at hsign
      exact absurd hsign hrefused
  · rintro ⟨hinput, hopen, rfl⟩
    obtain ⟨s', hdelivers⟩ := h.signs s scheme p2 key data hkey hopen hinput
    refine ⟨(), hinput, ?_⟩
    rw [hdelivers.callOk_run (signCommand_valid p2 hinput)]
    rfl

/-- The checked operation gives it if, besides, the certificate can be read and vouches for it. -/
theorem GuardsSigners.signChecked_eq_ok_iff {p2 : UInt8} {key : PrivateKey}
    (hkey : signers JpkiAp.df p2 = some key) {id : UInt16} {read : CardM (Certificate x509)}
    (hread : IsRead x509 pf fuel read (certificateReading x509 id)) {file : Bytes}
    (hfile : held.files JpkiAp.df id = some file) (hsize : file.length ≤ 0x8000)
    {signature : Bytes} :
    ((JpkiAp.signChecked rsa x509 read (signBy fuel scheme data p2) scheme data).run.run answer s).1 =
        .ok signature ↔
      (scheme.checkInput data = .ok () ∧ held.Open JpkiAp.df key.ef (unlocked s) ∧
        signature = key.sign scheme data) ∧
      held.Open JpkiAp.df id (unlocked s) ∧ Certified rsa x509 pf scheme data held id signature := by
  obtain ⟨hopen, hclosed⟩ := h.read_run hread hdf hfile hsize
  have hunlocked := h.run_leaves_unlocked (s := s) (hread.leavesVault x509 pf fuel)
  have hvault := h.run_leaves (s := s) (hread.leavesVault x509 pf fuel) fun _ hc => hc
  generalize hrun : read.run.run answer s = p at hopen hclosed hunlocked hvault
  obtain ⟨result, s₁⟩ := p
  dsimp only at hunlocked
  have hdf₁ : (view s₁).vault.df = JpkiAp.df := (congrArg Vault.df hvault).trans hdf
  rw [← hunlocked]
  rw [JpkiAp.signChecked, run_bind_eq_ok_iff]
  constructor
  · rintro ⟨certificate, s₂, hcertificate, hrest⟩
    obtain ⟨rfl, rfl⟩ := Prod.mk.inj (hrun.symm.trans hcertificate)
    obtain ⟨pub, hpub, hrest⟩ := run_lift_bind_eq_ok_iff.mp hrest
    obtain ⟨signature', s₃, hsign, hrest⟩ := run_bind_eq_ok_iff.mp hrest
    obtain ⟨u, hverify, hrest⟩ := run_lift_bind_eq_ok_iff.mp hrest
    obtain rfl : signature' = signature := Except.ok.inj hrest
    have hisOpen : held.Open JpkiAp.df id (unlocked s) := by
      by_contra hnot
      cases hclosed hnot
    exact ⟨(h.signBy_eq_ok_iff hdf₁ hkey).mp (congrArg Prod.fst hsign), hunlocked ▸ hisOpen,
      file, certificate, pub, hfile, (hopen hisOpen).symm, hpub, hverify⟩
  · rintro ⟨hsigned, hisOpen, file', certificate, pub, hfile', hvalue, hpub, hverify⟩
    obtain rfl : file' = file := Option.some.inj (hfile'.symm.trans hfile)
    rw [hunlocked] at hisOpen
    refine ⟨certificate, s₁, hrun.trans (congrArg (·, s₁) ((hopen hisOpen).trans hvalue)), ?_⟩
    refine run_lift_bind_eq_ok_iff.mpr ⟨pub, hpub, ?_⟩
    refine run_bind_eq_ok_iff.mpr ⟨signature, _,
      Prod.ext ((h.signBy_eq_ok_iff hdf₁ hkey).mpr hsigned) rfl, ?_⟩
    exact run_lift_bind_eq_ok_iff.mpr ⟨(), hverify, rfl⟩

/-- **What a signature operation gives.** -/
theorem GuardsSigners.signing_eq_ok_iff {x : CardM Bytes} {r : Signing}
    (hop : IsSigning rsa x509 pf fuel scheme data x r) {key : PrivateKey}
    (hkey : signers JpkiAp.df r.p2 = some key)
    (hfiles : ∀ id ∈ r.certificate, ∃ file, held.files JpkiAp.df id = some file ∧
      file.length ≤ 0x8000) {signature : Bytes} :
    (x.run.run answer s).1 = .ok signature ↔
      (scheme.checkInput data = .ok () ∧ held.Open JpkiAp.df key.ef (unlocked s) ∧
        signature = key.sign scheme data) ∧
      ∀ id ∈ r.certificate, held.Open JpkiAp.df id (unlocked s) ∧
        Certified rsa x509 pf scheme data held id signature := by
  obtain ⟨hnone, rfl⟩ | ⟨id, read, hsome, hread, rfl⟩ := hop.eq
  · rw [h.signBy_eq_ok_iff hdf hkey, hnone]
    simp
  · obtain ⟨file, hfile, hsize⟩ := hfiles id hsome
    rw [h.signChecked_eq_ok_iff hdf hkey hread hfile hsize, hsome]
    simp

end

end MynaCard
