import MynaCard.Ap.Wrapper
import MynaCard.Utf8

/-!
# The JPKI application

`ap/jpki.rs`: the signature schemes of the card's signing command, the token information and the
certificate availability, and the operations of `JpkiAp`.
-/

namespace MynaCard

/-! ### Signature schemes -/

namespace SignatureScheme

/-- `SignatureScheme::p1`. -/
def p1 : SignatureScheme → UInt8
  | verbatim => 0x00
  | sha256Bare => 0x01
  | preHashedDigestInfo => 0x02
  | sha256DigestInfo => 0x03
  | preHashedPss => 0x04
  | sha256Pss => 0x05

/-- The lengths `SignatureScheme::check_input` allows. -/
def allowed : SignatureScheme → ℕ × ℕ
  | preHashedDigestInfo | preHashedPss => (32, 32)
  | verbatim => (1, 245)
  | sha256Bare | sha256DigestInfo | sha256Pss => (1, 255)

/-- `SignatureScheme::check_input`. -/
def checkInput (scheme : SignatureScheme) (data : Bytes) : Run Unit :=
  if scheme.allowed.1 ≤ data.length ∧ data.length ≤ scheme.allowed.2 then .ok ()
  else .error (.err (.badSigningInput scheme data.length))

/-- `SignatureScheme::verify`. -/
def verify (rsa : RsaCrate) (scheme : SignatureScheme) (key : RsaPublicKey)
    (data signature : Bytes) : Run Unit :=
  match scheme with
  | verbatim => key.verifyPkcs1 rsa data signature
  | sha256Bare => key.verifyPkcs1 rsa (rsa.sha256 data).1 signature
  | preHashedDigestInfo => key.verifyPkcs1 rsa (MynaCard.sha256DigestInfo data) signature
  | sha256DigestInfo => key.verifyPkcs1Sha256 rsa data signature
  | preHashedPss => key.verifyPssPrehashed rsa data signature
  | sha256Pss => key.verifyPssSha256 rsa data signature

end SignatureScheme

/-! ### Token information -/

/-- What answers as the application. -/
inductive TokenType
  | card
  | android
  | iPhone
  | other (name : { b : Bytes // b.length = 32 })
  | absent
  deriving DecidableEq, Repr

namespace TokenType

/-- A name of a token, padded with spaces to 32 bytes. -/
def padded (name : String) : Bytes :=
  (name.toList.map fun c => UInt8.ofNat c.toNat) ++ List.replicate (32 - name.length) 0x20

/-- `TokenType::from_bytes`. -/
def fromBytes (tokenInfo : Bytes) : TokenType :=
  if h : 32 ≤ tokenInfo.length then
    let name := tokenInfo.take 32
    if name = padded "JPKIAPICCTOKEN2" then .card
    else if name = padded "JPKIAPGPSETOKEN" then .android
    else if name = padded "JPKIAPIOSTOKEN" then .iPhone
    else .other ⟨name, by rw [List.length_take, min_eq_left h]⟩
  else .absent

end TokenType

/-- EF `0006`, a serialised `CK_TOKEN_INFO`. -/
structure TokenInfo where
  tokenType : TokenType
  manufacturerId : String
  model : String
  serialNumber : String
  flags : UInt32
  maxSessionCount : UInt32
  sessionCount : UInt32
  maxRwSessionCount : UInt32
  rwSessionCount : UInt32
  maxPinLen : UInt32
  minPinLen : UInt32
  totalPublicMemory : UInt32
  freePublicMemory : UInt32
  totalPrivateMemory : UInt32
  freePrivateMemory : UInt32
  hardwareVersion : Bytes
  firmwareVersion : Bytes
  utcTime : Bytes
  deriving DecidableEq, Repr

namespace TokenInfo

/-- The local `text` of `TokenInfo::parse`: UTF-8 without the trailing spaces. -/
def text (raw : Bytes) (field : String) : Run String := do
  let value ← orMalformed s!"EF 0006 {field} is not valid UTF-8" (Utf8.fromUtf8 raw)
  pure (String.ofList (value.toList.rdropWhile (· = ' ')))

/-- The local `word` of `TokenInfo::parse`. -/
def word (raw : Bytes) (offset : ℕ) : UInt32 := UInt32.ofNat (bigEndian ((raw.drop offset).take 4))

/-- `TokenInfo::parse`. -/
def parse (raw : Bytes) : Run TokenInfo :=
  if raw.length ≠ 160 then malformed s!"EF 0006 is {raw.length} bytes, not 160"
  else do
    let manufacturerId ← text ((raw.drop 32).take 32) "manufacturer ID"
    let model ← text ((raw.drop 64).take 16) "model"
    let serialNumber ← text ((raw.drop 80).take 16) "serial number"
    pure ⟨.fromBytes raw, manufacturerId, model, serialNumber, word raw 96, word raw 100,
      word raw 104, word raw 108, word raw 112, word raw 116, word raw 120, word raw 124,
      word raw 128, word raw 132, word raw 136, (raw.drop 140).take 2, (raw.drop 142).take 2,
      (raw.drop 144).take 16⟩

end TokenInfo

/-- Which of the two certificates the card carries, EF `0008`. -/
structure CertificateAvailability where
  sign : UInt8
  auth : UInt8
  raw : { b : Bytes // b.length = 3 }
  deriving DecidableEq, Repr

/-- `CertificateAvailability::parse`. -/
def CertificateAvailability.parse : Bytes → Run CertificateAvailability
  | [sign, auth, third] => .ok ⟨sign, auth, ⟨[sign, auth, third], rfl⟩⟩
  | raw => malformed s!"EF 0008 is three bytes, not {raw.length}"

/-! ### The wrapper -/

namespace JpkiAp

def df : Bytes := [0xD3, 0x92, 0xF0, 0x00, 0x26, 0x01, 0x00, 0x00, 0x00, 0x01]

namespace Ef

def signCertificate : UInt16 := 0x0001
def signCaCertificate : UInt16 := 0x0002
def tokenInfo : UInt16 := 0x0006
def certificateAvailability : UInt16 := 0x0008
def authCertificate : UInt16 := 0x000A
def authCaCertificate : UInt16 := 0x000B
def authKey : UInt16 := 0x0017
def authPin : UInt16 := 0x0018
def signKey : UInt16 := 0x001A
def signPin : UInt16 := 0x001B

end Ef

variable (rsa : RsaCrate) (x509 : X509Crate) (pf : Platform) (fuel : ℕ)

/-- `JpkiAp::select`. -/
def select : CardM Unit := Card.selectDf fuel df

/-- `JpkiAp::read_ef`. -/
def readEf (id : UInt16) : CardM Bytes := Ap.readEf pf fuel id

/-- `JpkiAp::read_token_type`. -/
def readTokenType : CardM TokenType :=
  Ap.parsed (Ap.readEfPhysical fuel Ef.tokenInfo) fun raw => .ok (.fromBytes raw)

/-- `JpkiAp::read_token_info`. -/
def readTokenInfo : CardM TokenInfo :=
  Ap.parsed (Ap.readEfPhysical fuel Ef.tokenInfo) TokenInfo.parse

/-- `JpkiAp::read_certificate_availability`. -/
def readCertificateAvailability : CardM CertificateAvailability :=
  Ap.parsed (Ap.readEfPhysical fuel Ef.certificateAvailability) CertificateAvailability.parse

/-- `JpkiAp::read_auth_certificate_der`. -/
def readAuthCertificateDer : CardM Bytes := readEf pf fuel Ef.authCertificate

/-- `JpkiAp::read_auth_ca_certificate_der`. -/
def readAuthCaCertificateDer : CardM Bytes := readEf pf fuel Ef.authCaCertificate

/-- `JpkiAp::read_sign_certificate_der`. -/
def readSignCertificateDer : CardM Bytes := readEf pf fuel Ef.signCertificate

/-- `JpkiAp::read_sign_ca_certificate_der`. -/
def readSignCaCertificateDer : CardM Bytes := readEf pf fuel Ef.signCaCertificate

/-- `JpkiAp::read_auth_certificate`. -/
def readAuthCertificate : CardM (Certificate x509) :=
  Ap.parsed (readAuthCertificateDer pf fuel) (Certificate.parse x509)

/-- `JpkiAp::read_auth_ca_certificate`. -/
def readAuthCaCertificate : CardM (Certificate x509) :=
  Ap.parsed (readAuthCaCertificateDer pf fuel) (Certificate.parse x509)

/-- `JpkiAp::read_sign_certificate`. -/
def readSignCertificate : CardM (Certificate x509) :=
  Ap.parsed (readSignCertificateDer pf fuel) (Certificate.parse x509)

/-- `JpkiAp::read_sign_ca_certificate`. -/
def readSignCaCertificate : CardM (Certificate x509) :=
  Ap.parsed (readSignCaCertificateDer pf fuel) (Certificate.parse x509)

/-- `JpkiAp::verify_auth_pin`. -/
def verifyAuthPin (pin : Pin) : CardM Unit := Ap.verifyKey fuel Ef.authPin pin

/-- `JpkiAp::verify_sign_pin`. -/
def verifySignPin (pin : Pin) : CardM Unit := Ap.verifyKey fuel Ef.signPin pin

/-- `JpkiAp::change_pin`. -/
def changePin (key : UInt16) (currentPin newPin : Pin) : CardM Unit :=
  Ap.changePin fuel key currentPin (Card.changeReferenceData fuel newPin)

/-- `JpkiAp::change_auth_pin`. -/
def changeAuthPin (currentPin newPin : Pin) : CardM Unit :=
  changePin fuel Ef.authPin currentPin newPin

/-- `JpkiAp::change_sign_pin`. -/
def changeSignPin (currentPin newPin : Pin) : CardM Unit :=
  changePin fuel Ef.signPin currentPin newPin

/-- `JpkiAp::auth_pin_retries`. -/
def authPinRetries : CardM Retries := Ap.keyRetries fuel Ef.authPin

/-- `JpkiAp::sign_pin_retries`. -/
def signPinRetries : CardM Retries := Ap.keyRetries fuel Ef.signPin

/-- `JpkiAp::sign`. P2 names the key EF, with no SELECT FILE. -/
def sign (key : UInt16) (scheme : SignatureScheme) (data : Bytes) : CardM Bytes := do
  scheme.checkInput data
  let sfi ← ShortEfId.fromEfId key
  Card.callOk fuel (.withDataLe 0x80 Ins.computeSignature scheme.p1 (0x80 ||| sfi.value) data 256)

/-- `JpkiAp::sign_with_auth_key`. -/
def signWithAuthKey (scheme : SignatureScheme) (data : Bytes) : CardM Bytes :=
  sign fuel Ef.authKey scheme data

/-- `JpkiAp::sign_with_sign_key`. -/
def signWithSignKey (scheme : SignatureScheme) (data : Bytes) : CardM Bytes :=
  sign fuel Ef.signKey scheme data

/-- A signature checked against the key of a certificate read beforehand. -/
def signChecked (readCertificate : CardM (Certificate x509)) (signWith : CardM Bytes)
    (scheme : SignatureScheme) (data : Bytes) : CardM Bytes := do
  let certificate ← readCertificate
  let key ← certificate.publicKey
  let signature ← signWith
  scheme.verify rsa key data signature
  pure signature

/-- `JpkiAp::sign_with_auth_key_checked`. -/
def signWithAuthKeyChecked (scheme : SignatureScheme) (data : Bytes) : CardM Bytes :=
  signChecked rsa x509 (readAuthCertificate x509 pf fuel) (signWithAuthKey fuel scheme data) scheme
    data

/-- `JpkiAp::sign_with_sign_key_checked`. -/
def signWithSignKeyChecked (scheme : SignatureScheme) (data : Bytes) : CardM Bytes :=
  signChecked rsa x509 (readSignCertificate x509 pf fuel) (signWithSignKey fuel scheme data) scheme
    data

end JpkiAp

end MynaCard
