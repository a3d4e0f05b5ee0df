import MynaCard.Ap.Wrapper
import MynaCard.Data
import MynaCard.SecureMessaging
import MynaCard.TlvFields
import MynaCard.Utf8

/-!
# The text input support application

`ap/text.rs`: the records of the application's data files with their parsers, and the operations
of `TextAp`.
-/

namespace MynaCard.Text

/-! ### The records -/

/-- `parse_my_number`, the file of EF `0001`. -/
def parseMyNumber (oc : OverflowChecks) (raw : Bytes) : Run MyNumber := do
  let tlv ← Ber.parse oc raw
  if tlv.tag ≠ 0xFF10 then malformed s!"expected tag FF10, got {hexUpper 4 tlv.tag}"
  else MyNumber.parse tlv.value

/-- Name, address, date of birth and sex, of EF `0002`. -/
structure Attributes where
  name : String
  address : String
  birthDate : Date
  sex : Sex
  deriving DecidableEq, Repr

namespace Attributes

/-- `decode_text`. -/
def decodeText (bytes : Bytes) (what : String) : Run String :=
  orMalformed s!"{what} is not valid UTF-8" (Utf8.fromUtf8 bytes)

/-- `Attributes::parse`. Its walk is the one of `TlvFields`, with the positions counted from the end
of the file back. -/
def parse (oc : OverflowChecks) (raw : Bytes) : Run Attributes := do
  let outer ← Ber.parse oc raw
  if outer.tag ≠ 0xFF20 then malformed s!"expected tag FF20, got {hexUpper 4 outer.tag}"
  else do
    let pos := raw.length - outer.value.length
    let w ← walk oc (some 0xDF21) ⟨pos, outer.value, none, [], []⟩
    let fields : TlvFields := ⟨w.items⟩
    let name ← fields.get 0xDF22
    let address ← fields.get 0xDF23
    let birthDate ← fields.get 0xDF24
    let sex ← fields.get 0xDF25
    TlvFields.checkTable w
    let name ← decodeText name "氏名"
    let address ← decodeText address "住所"
    let birthDate ← Date.parse birthDate
    let sex ← orMalformed "性別 is empty" sex.head?
    pure ⟨name, address, birthDate, .fromByte sex⟩

/-- `Attributes::digest_source`: the outer value with the offset table skipped. -/
def digestSource (oc : OverflowChecks) (raw : Bytes) : Run Bytes := do
  let outer ← Ber.parse oc raw
  if outer.tag ≠ 0xFF20 then malformed s!"expected tag FF20, got {hexUpper 4 outer.tag}"
  else do
    let table ← Ber.parseHeader outer.value
    if table.tag ≠ 0xDF21 then malformed "the offset table is not the first object"
    else do
      let total ← table.totalLen oc
      orMalformed "nothing follows the offset table" (slice outer.value total outer.value.length)

end Attributes

/-- The application's basic information, EF `0005`. -/
structure ApBasicData where
  identification : ApIdentification
  publicKeyId : KeyId
  trailing : Bytes
  deriving DecidableEq, Repr

/-- `ApBasicData::parse`. -/
def ApBasicData.parse (oc : OverflowChecks) (raw : Bytes) : Run ApBasicData := do
  let f ← TlvFields.parse oc raw 0xFF40 none
  let identification ← ApIdentification.parse (← f.get 0xDF41)
  let publicKeyId ← KeyId.parse (← f.get 0xDF42)
  let trailing ← f.get 0xDF43
  pure ⟨identification, publicKeyId, trailing⟩

/-- The integrity record of EF `0003`. -/
structure IntegrityRecord where
  myNumberDigest : { d : Bytes // d.length = 32 }
  attributesDigest : { d : Bytes // d.length = 32 }
  signature : Bytes
  signedData : Bytes
  deriving DecidableEq, Repr

/-- The local `digest` of `IntegrityRecord::parse`. -/
def IntegrityRecord.digest (f : TlvFields) (tag : ℕ) : Run { d : Bytes // d.length = 32 } := do
  let d ← f.get tag
  if h : d.length = 32 then pure ⟨d, h⟩
  else malformed s!"{hexUpper 4 tag} is not a 32 byte digest"

/-- `IntegrityRecord::parse`. -/
def IntegrityRecord.parse (oc : OverflowChecks) (raw : Bytes) : Run IntegrityRecord := do
  let f ← TlvFields.parse oc raw 0xFF30 none
  let myNumberDigest ← IntegrityRecord.digest f 0xDF31
  let attributesDigest ← IntegrityRecord.digest f 0xDF32
  let signature ← f.get 0xDF33
  let signedData ← f.bytesBefore 0xDF33
  pure ⟨myNumberDigest, attributesDigest, signature, signedData⟩

/-- `IntegrityRecord::matches_attributes_file`. -/
def IntegrityRecord.matchesAttributesFile (rsa : RsaCrate) (oc : OverflowChecks)
    (r : IntegrityRecord) (attributes : Bytes) : Run Bool := do
  let source ← Attributes.digestSource oc attributes
  pure (rsa.sha256 source = r.attributesDigest)

/-- `IntegrityRecord::matches_my_number_file`. -/
def IntegrityRecord.matchesMyNumberFile (rsa : RsaCrate) (r : IntegrityRecord)
    (physical : Bytes) : Bool :=
  rsa.sha256 physical = r.myNumberDigest

/-- `IntegrityRecord::verify`. -/
def IntegrityRecord.verify (rsa : RsaCrate) (r : IntegrityRecord) (issuer : RsaPublicKey) :
    Run Unit :=
  issuer.verifyPkcs1Sha256 rsa r.signedData r.signature

/-- The session key encryption public key of EF `0006`. -/
structure SessionKeyPublicKey where
  publicKey : RsaPublicKey
  deriving DecidableEq, Repr

/-- `SessionKeyPublicKey::parse`. -/
def SessionKeyPublicKey.parse (oc : OverflowChecks) (raw : Bytes) : Run SessionKeyPublicKey := do
  let outer ← Ber.parse oc raw
  if outer.tag ≠ 0xA1 then malformed s!"expected tag A1, got {hexUpper 4 outer.tag}"
  else do
    let publicKey ← RsaPublicKey.parse oc outer.value
    pure ⟨publicKey⟩

/-- The signed public key of EF `0007`. -/
structure SignedPublicKey where
  publicKey : RsaPublicKey
  signature : Bytes
  signedData : Bytes
  deriving DecidableEq, Repr

/-- `SignedPublicKey::parse`. -/
def SignedPublicKey.parse (oc : OverflowChecks) (raw : Bytes) : Run SignedPublicKey := do
  let f ← TlvFields.parse oc raw 0xFF50 none
  let publicKey ← RsaPublicKey.parse oc (← f.get 0xDF51)
  let signature ← f.get 0xDF52
  let signedData ← f.bytesBefore 0xDF52
  pure ⟨publicKey, signature, signedData⟩

/-- `SignedPublicKey::verify`. -/
def SignedPublicKey.verify (rsa : RsaCrate) (k : SignedPublicKey) (issuer : RsaPublicKey) :
    Run Unit :=
  issuer.verifyPkcs1Sha256 rsa k.signedData k.signature

end MynaCard.Text

/-! ### The wrapper -/

namespace MynaCard.TextAp

open Text

def df : Bytes := [0xD3, 0x92, 0x10, 0x00, 0x31, 0x00, 0x01, 0x01, 0x04, 0x08]

namespace Ef

def myNumber : UInt16 := 0x0001
def attributes : UInt16 := 0x0002
def integrity : UInt16 := 0x0003
def certificate : UInt16 := 0x0004
def apBasicData : UInt16 := 0x0005
def sessionKeyPublicKey : UInt16 := 0x0006
def signedPublicKey : UInt16 := 0x0007
def pin : UInt16 := 0x0011
def codeA : UInt16 := 0x0014
def codeB : UInt16 := 0x0015

end Ef

variable (pf : Platform) (fuel : ℕ)

/-- `TextAp::select`. -/
def select : CardM Unit := Card.selectDf fuel df

/-- `TextAp::read_ef`. -/
def readEf (id : UInt16) : CardM Bytes := Ap.readEf pf fuel id

/-- `TextAp::read_my_number`. -/
def readMyNumber : CardM MyNumber := Ap.parsed (readEf pf fuel Ef.myNumber) (parseMyNumber pf)

/-- `TextAp::read_attributes`. -/
def readAttributes : CardM Attributes :=
  Ap.parsed (readEf pf fuel Ef.attributes) (Attributes.parse pf)

/-- `TextAp::read_certificate`. -/
def readCertificate : CardM CardVerifiableCertificate :=
  Ap.parsed (readEf pf fuel Ef.certificate) (CardVerifiableCertificate.parse pf)

/-- `TextAp::read_ap_basic_data`. -/
def readApBasicData : CardM ApBasicData :=
  Ap.parsed (readEf pf fuel Ef.apBasicData) (ApBasicData.parse pf)

/-- `TextAp::read_integrity_record`. -/
def readIntegrityRecord : CardM IntegrityRecord :=
  Ap.parsed (readEf pf fuel Ef.integrity) (IntegrityRecord.parse pf)

/-- `TextAp::read_signed_public_key`. -/
def readSignedPublicKey : CardM SignedPublicKey :=
  Ap.parsed (readEf pf fuel Ef.signedPublicKey) (SignedPublicKey.parse pf)

/-- `TextAp::read_session_key_public_key`. -/
def readSessionKeyPublicKey : CardM SessionKeyPublicKey :=
  Ap.parsed (readEf pf fuel Ef.sessionKeyPublicKey) (SessionKeyPublicKey.parse pf)

/-- `TextAp::read_my_number_file`. -/
def readMyNumberFile : CardM Bytes := Ap.readEfPhysical fuel Ef.myNumber

/-- `TextAp::sign`. -/
def sign (rsa : RsaCrate) (data : Bytes) : CardM Bytes := Ap.signDefault rsa fuel data

/-- `TextAp::open_secure_session`. The encryption draws on the system's randomness; `encryptOaep` is
what it gives this time. -/
def openSecureSession (encryptOaep : RsaPublicKey → Bytes → Run Bytes) (seed : Block × Block) :
    CardM SecureSession := do
  let key ← readSessionKeyPublicKey pf fuel
  SecureSession.establish (encryptOaep key.publicKey) fuel seed

/-- `TextAp::verify_pin`. -/
def verifyPin (pin : Pin) : CardM Unit := Ap.verifyKey fuel Ef.pin pin

/-- `TextAp::change_pin`. -/
def changePin (currentPin newPin : Pin) : CardM Unit :=
  Ap.changePin fuel Ef.pin currentPin (Card.changeReferenceData fuel newPin)

/-- `TextAp::verify_code_a`. -/
def verifyCodeA (code : Pin) : CardM Unit := Ap.verifyKey fuel Ef.codeA code

/-- `TextAp::verify_code_b`. -/
def verifyCodeB (code : Pin) : CardM Unit := Ap.verifyKey fuel Ef.codeB code

/-- `TextAp::retries`. -/
def retries (key : UInt16) : CardM Retries := Ap.keyRetries fuel key

end MynaCard.TextAp
