import MynaCard.Ap.Wrapper
import MynaCard.Data
import MynaCard.TlvFields
import MynaCard.Utf8

/-!
# The card surface verification application

`ap/surface.rs`: the records of the application's data files with their parsers, what the two
forms of signature check cover, and the operations of `SurfaceAp`.
-/

namespace MynaCard.Surface

/-! ### The records -/

/-- The contents of EF `0003` tag `DF35`. -/
structure EncryptedReferenceNumber where
  keyId : KeyId
  data : Bytes
  deriving DecidableEq, Repr

/-- The application's basic information, EF `0003`. -/
structure ApBasicData where
  identification : ApIdentification
  publicKeyId : KeyId
  version : UInt8
  municipalityCode : String
  encryptedReferenceNumber : EncryptedReferenceNumber
  deriving DecidableEq, Repr

/-- `ApBasicData::parse`. -/
def ApBasicData.parse (oc : OverflowChecks) (raw : Bytes) : Run ApBasicData := do
  let f ← TlvFields.parse oc raw 0xFF30 none
  let version ← f.get 0xDF33
  let df35 ← f.get 0xDF35
  if df35.length < 16 then
    malformed s!"DF35 is {df35.length} bytes, too short to contain its 16 byte reference"
  else do
    let identification ← ApIdentification.parse (← f.get 0xDF31)
    let publicKeyId ← KeyId.parse (← f.get 0xDF32)
    let version ← orMalformed "version field is empty" version.head?
    let municipalityCode := Utf8.fromUtf8Lossy (← f.get 0xDF34)
    let keyId ← KeyId.parse (df35.take 16)
    pure ⟨identification, publicKeyId, version, municipalityCode, ⟨keyId, df35.drop 16⟩⟩

/-- The age verification record of EF `0001`. -/
structure AgeRecord where
  birthDate : Date
  publicKey : RsaPublicKey
  signature : Bytes
  signedData : Bytes
  deriving DecidableEq, Repr

/-- `AgeRecord::parse`. -/
def AgeRecord.parse (oc : OverflowChecks) (raw : Bytes) : Run AgeRecord := do
  let f ← TlvFields.parse oc raw 0xFF10 none
  let birthDate ← Date.parse (← f.get 0xDF11)
  let publicKey ← RsaPublicKey.parse oc (← f.get 0xDF12)
  let signature ← f.get 0xDF13
  let signedData ← f.bytesBefore 0xDF13
  pure ⟨birthDate, publicKey, signature, signedData⟩

/-- The card face data of EF `0002`. `expiry` and `securityCodeImage` come after the signature. -/
structure CardFace where
  birthDate : Date
  sex : Sex
  publicKey : RsaPublicKey
  nameImage : Image
  addressImage : Image
  photo : Image
  signature : Bytes
  expiry : Date
  securityCodeImage : Image
  signedSegments : Bytes × Bytes × Bytes
  deriving DecidableEq, Repr

/-- `CardFace::parse`. `DF21` is the offset table. -/
def CardFace.parse (oc : OverflowChecks) (raw : Bytes) : Run CardFace := do
  let f ← TlvFields.parse oc raw 0xFF20 (some 0xDF21)
  let birthDate ← Date.parse (← f.get 0xDF22)
  let sex ← orMalformed "性別 is empty" (← f.get 0xDF23).head?
  let publicKey ← RsaPublicKey.parse oc (← f.get 0xDF24)
  let nameImage ← f.get 0xDF25
  let addressImage ← f.get 0xDF26
  let photo ← f.get 0xDF27
  let signature ← f.get 0xDF28
  let expiry ← Date.parse (← f.get 0xDF29)
  let securityCodeImage ← f.get 0xDF2A
  let segment1 ← f.bytesOf [0xDF22, 0xDF23, 0xDF24]
  let segment2 ← f.bytesOf [0xDF25, 0xDF26]
  let segment3 ← f.bytesOf [0xDF27]
  pure ⟨birthDate, .fromByte sex, publicKey, .new nameImage, .new addressImage, .new photo,
    signature, expiry, .new securityCodeImage, segment1, segment2, segment3⟩

/-- The rendered individual number of EF `0005`. -/
structure MyNumberImage where
  image : Image
  publicKey : RsaPublicKey
  signature : Bytes
  signedData : Bytes
  deriving DecidableEq, Repr

/-- `MyNumberImage::parse`. -/
def MyNumberImage.parse (oc : OverflowChecks) (raw : Bytes) : Run MyNumberImage := do
  let f ← TlvFields.parse oc raw 0xFF40 none
  let image ← f.get 0xDF41
  let publicKey ← RsaPublicKey.parse oc (← f.get 0xDF42)
  let signature ← f.get 0xDF43
  let signedData ← f.bytesBefore 0xDF43
  pure ⟨.new image, publicKey, signature, signedData⟩

/-- A 32 byte digest. -/
abbrev Digest := { d : Bytes // d.length = 32 }

/-- What `CardFace::verify` checks the signature over: the three groups hashed separately, and the
digests in one `DigestInfo`. -/
def CardFace.payload (sha256 : Bytes → Digest) (c : CardFace) : Bytes :=
  sha256DigestInfo ((sha256 c.signedSegments.1).1 ++ (sha256 c.signedSegments.2.1).1 ++
    (sha256 c.signedSegments.2.2).1)

/-- `AgeRecord::verify`. -/
def AgeRecord.verify (rsa : RsaCrate) (r : AgeRecord) (issuer : RsaPublicKey) : Run Unit :=
  issuer.verifyPkcs1Sha256 rsa r.signedData r.signature

/-- `MyNumberImage::verify`. -/
def MyNumberImage.verify (rsa : RsaCrate) (i : MyNumberImage) (issuer : RsaPublicKey) : Run Unit :=
  issuer.verifyPkcs1Sha256 rsa i.signedData i.signature

/-- `CardFace::verify`. -/
def CardFace.verify (rsa : RsaCrate) (c : CardFace) (issuer : RsaPublicKey) : Run Unit :=
  issuer.verifyPkcs1 rsa (c.payload rsa.sha256) c.signature

end MynaCard.Surface

/-! ### The wrapper -/

namespace MynaCard.SurfaceAp

open Surface

def df : Bytes := [0xD3, 0x92, 0x10, 0x00, 0x31, 0x00, 0x01, 0x01, 0x04, 0x02]

namespace Ef

def ageRecord : UInt16 := 0x0001
def cardFace : UInt16 := 0x0002
def apBasicData : UInt16 := 0x0003
def certificate : UInt16 := 0x0004
def myNumberImage : UInt16 := 0x0005
def birthDate : UInt16 := 0x0011
def codeB : UInt16 := 0x0012
def codeA : UInt16 := 0x0013

end Ef

variable (pf : Platform) (fuel : ℕ)

/-- `SurfaceAp::select`. -/
def select : CardM Unit := Card.selectDf fuel df

/-- `SurfaceAp::read_ef`. -/
def readEf (id : UInt16) : CardM Bytes := Ap.readEf pf fuel id

/-- `SurfaceAp::read_ap_basic_data`. -/
def readApBasicData : CardM ApBasicData :=
  Ap.parsed (readEf pf fuel Ef.apBasicData) (ApBasicData.parse pf)

/-- `SurfaceAp::read_age_record`. -/
def readAgeRecord : CardM AgeRecord :=
  Ap.parsed (readEf pf fuel Ef.ageRecord) (AgeRecord.parse pf)

/-- `SurfaceAp::read_card_face`. -/
def readCardFace : CardM CardFace := Ap.parsed (readEf pf fuel Ef.cardFace) (CardFace.parse pf)

/-- `SurfaceAp::read_my_number_image`. -/
def readMyNumberImage : CardM MyNumberImage :=
  Ap.parsed (readEf pf fuel Ef.myNumberImage) (MyNumberImage.parse pf)

/-- `SurfaceAp::read_certificate`. -/
def readCertificate : CardM CardVerifiableCertificate :=
  Ap.parsed (readEf pf fuel Ef.certificate) (CardVerifiableCertificate.parse pf)

/-- `SurfaceAp::sign`. -/
def sign (rsa : RsaCrate) (data : Bytes) : CardM Bytes := Ap.signDefault rsa fuel data

/-- `SurfaceAp::verify_birth_date`. -/
def verifyBirthDate (code : Pin) : CardM Unit := Ap.verifyKey fuel Ef.birthDate code

/-- `SurfaceAp::verify_code_a`. -/
def verifyCodeA (code : Pin) : CardM Unit := Ap.verifyKey fuel Ef.codeA code

/-- `SurfaceAp::verify_code_b`. -/
def verifyCodeB (code : Pin) : CardM Unit := Ap.verifyKey fuel Ef.codeB code

/-- `SurfaceAp::retries`. -/
def retries (key : UInt16) : CardM Retries := Ap.keyRetries fuel key

end MynaCard.SurfaceAp
