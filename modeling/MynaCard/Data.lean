import MynaCard.Ber

/-!
# The values the card stores

`data.rs`: the field types the applications' files are made of, and the parsers of their contents.
A parser is given the value of one BER object and never looks outside it.
-/

namespace MynaCard

/-! ### Identification, dates and sex -/

/-- The four byte identification field of an application's basic-data file. -/
structure ApIdentification where
  specificationVersion : UInt8
  extendedLcLeSupport : UInt8
  vendorId : UInt8
  vendorSpecific : UInt8
  deriving DecidableEq, Repr

/-- `ApIdentification::parse`. -/
def ApIdentification.parse : Bytes → Run ApIdentification
  | [version, support, vendor, specific] => .ok ⟨version, support, vendor, specific⟩
  | bytes => malformed s!"AP identification must be 4 bytes, got {bytes.length}"

/-- `ApIdentification::to_bytes`. -/
def ApIdentification.toBytes (i : ApIdentification) : Bytes :=
  [i.specificationVersion, i.extendedLcLeSupport, i.vendorId, i.vendorSpecific]

/-- A calendar date. -/
structure Date where
  year : UInt16
  month : UInt8
  day : UInt8
  deriving DecidableEq, Repr

/-- `Display for Date`. -/
def Date.display (d : Date) : String :=
  decimal 4 d.year.toNat ++ "-" ++ decimal 2 d.month.toNat ++ "-" ++ decimal 2 d.day.toNat

/-- `Date::parse`: eight ASCII digits, `YYYYMMDD`. Month lengths are not checked. -/
def Date.parse (bytes : Bytes) : Run Date :=
  if bytes.length = 8 ∧ bytes.all isAsciiDigit then
    let date : Date :=
      ⟨UInt16.ofNat (digitsValue (bytes.take 4)),
        UInt8.ofNat (digitsValue ((bytes.drop 4).take 2)),
        UInt8.ofNat (digitsValue ((bytes.drop 6).take 2))⟩
    if ¬ (1 ≤ date.month ∧ date.month ≤ 12) ∨ ¬ (1 ≤ date.day ∧ date.day ≤ 31) then
      malformed s!"not a calendar date: {date.display}"
    else .ok date
  else malformed s!"expected 8 digits, got {hex bytes}"

/-- `Date::from_unix_seconds`. Nothing overflows in 64 bits, so the steps are on integers; the year
is cut to 16 bits. -/
def Date.fromUnixSeconds (seconds : Int64) : Date :=
  -- the year starts in March, so that the leap day is its last
  let days := seconds.toInt / 86400 + 719468
  let era := days / 146097
  let doe := days % 146097
  let yoe := (doe - doe / 1460 + doe / 36524 - doe / 146096) / 365
  let doy := doe - (365 * yoe + yoe / 4 - yoe / 100)
  let mp := (5 * doy + 2) / 153
  let day := UInt8.ofInt (doy - (153 * mp + 2) / 5 + 1)
  let month := UInt8.ofInt (if mp < 10 then mp + 3 else mp - 9)
  ⟨UInt16.ofInt (yoe + era * 400 + if month ≤ 2 then 1 else 0), month, day⟩

/-- The derived order of `Date`: the year, then the month, then the day. -/
instance : LE Date where
  le a b := a.year < b.year ∨ a.year = b.year ∧
    (a.month < b.month ∨ a.month = b.month ∧ a.day ≤ b.day)

instance : DecidableLE Date := fun a b =>
  inferInstanceAs (Decidable (a.year < b.year ∨ a.year = b.year ∧
    (a.month < b.month ∨ a.month = b.month ∧ a.day ≤ b.day)))

/-- Sex, as one ASCII digit. What the standard does not name is kept as written. -/
inductive Sex
  | male
  | female
  | unknown
  | notApplicable
  | other (b : UInt8)
  deriving DecidableEq, Repr

/-- `Sex::from_byte`. -/
def Sex.fromByte (b : UInt8) : Sex :=
  if b = 0x30 then .unknown
  else if b = 0x31 then .male
  else if b = 0x32 then .female
  else if b = 0x39 then .notApplicable
  else .other b

/-! ### The individual number -/

/-- Twelve decimal digits. -/
structure MyNumber where
  digits : Bytes
  length_eq : digits.length = 12
  all_digits : digits.all isAsciiDigit
  deriving DecidableEq

/-- `MyNumber::parse`. -/
def MyNumber.parse (bytes : Bytes) : Run MyNumber :=
  if h : bytes.length = 12 ∧ bytes.all isAsciiDigit then .ok ⟨bytes, h.1, h.2⟩
  else malformed s!"個人番号 must be 12 digits, got {hex bytes}"

/-! ### Keys -/

/-- An RSA public key as the card stores it, both numbers big-endian. -/
structure RsaPublicKey where
  exponent : Bytes
  modulus : Bytes
  deriving DecidableEq, Repr

/-- One item of the loop of `RsaPublicKey::parse`: of two objects with one tag the last wins. -/
def RsaPublicKey.parseItem (acc : Option Bytes × Option Bytes) (item : Run Ber.Tlv) :
    Run (Option Bytes × Option Bytes) := do
  let tlv ← item
  if tlv.tag = 0x90 then pure (some tlv.value, acc.2)
  else if tlv.tag = 0x91 then pure (acc.1, some tlv.value)
  else pure acc

/-- `RsaPublicKey::parse`: tag `90` for the exponent, `91` for the modulus. -/
def RsaPublicKey.parse (oc : OverflowChecks) (data : Bytes) : Run RsaPublicKey := do
  let found ← (Ber.iter oc data).foldlM RsaPublicKey.parseItem (none, none)
  let exponent ← orMalformed "no public exponent (tag 90)" found.1
  let modulus ← orMalformed "no modulus (tag 91)" found.2
  pure ⟨exponent, modulus⟩

/-- `KeyId::parse`: 16 bytes, with digits in the two digit groups. -/
def KeyId.parse (bytes : Bytes) : Run KeyId :=
  if h : bytes.length = 16 then
    if ¬ (bytes.take 7).all isAsciiDigit ∨ ¬ ((bytes.drop 9).take 3).all isAsciiDigit then
      malformed "key identifier is not digits where it should be"
    else .ok ⟨bytes, h⟩
  else malformed s!"key identifier must be 16 bytes, got {bytes.length}"

/-! ### Card-verifiable certificates -/

/-- A card-verifiable certificate, tag `7F21`. -/
structure CardVerifiableCertificate where
  issuerKeyId : KeyId
  subjectKeyId : KeyId
  publicKey : RsaPublicKey
  signature : Bytes
  signedData : Bytes
  deriving DecidableEq, Repr

namespace CardVerifiableCertificate

/-- One item of the loop of `CardVerifiableCertificate::parse`. -/
def parseItem (acc : Option Bytes × Option Bytes) (item : Run Ber.Tlv) :
    Run (Option Bytes × Option Bytes) := do
  let tlv ← item
  if tlv.tag = 0x5F4E then pure (some tlv.value, acc.2)
  else if tlv.tag = 0x5F37 then pure (acc.1, some tlv.value)
  else pure acc

/-- What is inside the `7F21` template, when it is there. -/
def contents (oc : OverflowChecks) (data : Bytes) : Run Bytes :=
  if [0x7F, 0x21] <+: data then do
    let outer ← Ber.parse oc data
    if outer.tag ≠ 0x7F21 then malformed s!"expected tag 7F21, got {hexUpper 4 outer.tag}"
    else pure outer.value
  else pure data

/-- `CardVerifiableCertificate::parse`, with or without the template. -/
def parse (oc : OverflowChecks) (data : Bytes) : Run CardVerifiableCertificate := do
  let contents ← contents oc data
  let found ← (Ber.iter oc contents).foldlM parseItem (none, none)
  let body ← orMalformed "certificate has no body (tag 5F4E)" found.1
  if body.length ≠ 297 then
    malformed s!"certificate body must be 297 bytes, got {body.length}"
  else do
    let issuerKeyId ← KeyId.parse (body.take 16)
    let subjectKeyId ← KeyId.parse ((body.drop 16).take 16)
    let publicKey ← RsaPublicKey.parse oc (body.drop 32)
    let signature ← orMalformed "certificate has no signature (tag 5F37)" found.2
    pure ⟨issuerKeyId, subjectKeyId, publicKey, signature, body⟩

end CardVerifiableCertificate

/-! ### Images -/

/-- The format of an image, told from its leading bytes. -/
inductive ImageFormat
  | png
  | jpeg2000
  | unknown
  deriving DecidableEq, Repr

/-- `ImageFormat::detect`. -/
def ImageFormat.detect (data : Bytes) : ImageFormat :=
  if [0x89, 0x50, 0x4E, 0x47, 0x0D, 0x0A, 0x1A, 0x0A] <+: data then .png
  else if slice data 4 8 = some [0x6A, 0x50, 0x20, 0x20] then .jpeg2000
  else .unknown

/-- An image read from the card. -/
structure Image where
  data : Bytes
  format : ImageFormat
  deriving DecidableEq, Repr

/-- `Image::new`. -/
def Image.new (data : Bytes) : Image := ⟨data, .detect data⟩

/-! ### The payload of a signature -/

/-- The `AlgorithmIdentifier` of SHA-256. -/
def sha256Algorithm : Bytes :=
  [0x30, 0x0D, 0x06, 0x09, 0x60, 0x86, 0x48, 0x01, 0x65, 0x03, 0x04, 0x02, 0x01, 0x05, 0x00]

/-- `sha256_digest_info`. Both lengths are written as one byte, `as u8`. -/
def sha256DigestInfo (digest : Bytes) : Bytes :=
  let inner := sha256Algorithm.length + 2 + digest.length
  (if inner < 0x80 then [0x30, UInt8.ofNat inner] else [0x30, 0x81, UInt8.ofNat inner]) ++
    sha256Algorithm ++ [0x04, UInt8.ofNat digest.length] ++ digest

/-- Digests of one length give `DigestInfo`s that differ where the digests do. -/
theorem sha256DigestInfo_inj {d d' : Bytes} (hlen : d.length = d'.length)
    (h : sha256DigestInfo d = sha256DigestInfo d') : d = d' := by
  simp only [sha256DigestInfo, hlen] at h
  exact List.append_cancel_left h

end MynaCard
