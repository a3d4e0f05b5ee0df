import MynaCard.Ap.Common
import MynaCard.Ap.Jpki
import MynaCard.Ap.Juki
import MynaCard.Ap.Surface
import MynaCard.Ap.Text
import MynaCard.Mf

/-!
# A caller of the wrappers

The operations of the six wrappers as one type, and a run of any list of them. For each operation
there is the EF it is about and, where it presents a key, the value it presents; both are what its
caller named, or what its name says.

A run labels every APDU with the operation that issued it and that operation's place in the list.
The labels are not transmitted.
-/

namespace MynaCard

/-! ### The operations -/

inductive CommonOperation
  | select
  | readRecord (id : UInt16) (record : UInt8)
  | readCardInfo
  | internalAuthenticate (challenge : Bytes)
  | verifyPin (pin : Pin)
  | changePin (currentPin newPin : Pin)
  | pinRetries

inductive JukiOperation
  | select
  | readRecord (id : UInt16) (record : UInt8)
  | verifyPin (pin : Pin)
  | changePin (currentPin newPin : Pin)
  | pinRetries

inductive SurfaceOperation
  | select
  | readEf (id : UInt16)
  | readApBasicData
  | readAgeRecord
  | readCardFace
  | readMyNumberImage
  | readCertificate
  | sign (data : Bytes)
  | verifyBirthDate (code : Pin)
  | verifyCodeA (code : Pin)
  | verifyCodeB (code : Pin)
  | retries (key : UInt16)

inductive TextOperation
  | select
  | readEf (id : UInt16)
  | readMyNumber
  | readAttributes
  | readCertificate
  | readApBasicData
  | readIntegrityRecord
  | readSignedPublicKey
  | readSessionKeyPublicKey
  | readMyNumberFile
  | sign (data : Bytes)
  | openSecureSession (encryptOaep : RsaPublicKey → Bytes → Run Bytes) (seed : Block × Block)
  | verifyPin (pin : Pin)
  | changePin (currentPin newPin : Pin)
  | verifyCodeA (code : Pin)
  | verifyCodeB (code : Pin)
  | retries (key : UInt16)

inductive JpkiOperation
  | select
  | readEf (id : UInt16)
  | readTokenType
  | readTokenInfo
  | readCertificateAvailability
  | readAuthCertificateDer
  | readAuthCaCertificateDer
  | readSignCertificateDer
  | readSignCaCertificateDer
  | readAuthCertificate
  | readAuthCaCertificate
  | readSignCertificate
  | readSignCaCertificate
  | verifyAuthPin (pin : Pin)
  | verifySignPin (pin : Pin)
  | changeAuthPin (currentPin newPin : Pin)
  | changeSignPin (currentPin newPin : Pin)
  | authPinRetries
  | signPinRetries
  | signWithAuthKey (scheme : SignatureScheme) (data : Bytes)
  | signWithSignKey (scheme : SignatureScheme) (data : Bytes)
  | signWithAuthKeyChecked (scheme : SignatureScheme) (data : Bytes)
  | signWithSignKeyChecked (scheme : SignatureScheme) (data : Bytes)

inductive MasterFileOperation
  | select
  | new
  | dataObject (tag : UInt16)
  | certificateChain
  | cardIdentifier
  | applicationFolders
  | icManufacturerId
  | readAllRecords (id : UInt16)

/-! ### The EF an operation is about -/

def CommonOperation.ef : CommonOperation → Option UInt16
  | select | internalAuthenticate _ => none
  | readRecord id _ => some id
  | readCardInfo => some CommonAp.Ef.cardInfo
  | verifyPin _ | changePin _ _ | pinRetries => some CommonAp.Ef.pin

def JukiOperation.ef : JukiOperation → Option UInt16
  | select => none
  | readRecord id _ => some id
  | verifyPin _ | changePin _ _ | pinRetries => some JukiAp.Ef.pin

def SurfaceOperation.ef : SurfaceOperation → Option UInt16
  | select | sign _ => none
  | readEf id => some id
  | readApBasicData => some SurfaceAp.Ef.apBasicData
  | readAgeRecord => some SurfaceAp.Ef.ageRecord
  | readCardFace => some SurfaceAp.Ef.cardFace
  | readMyNumberImage => some SurfaceAp.Ef.myNumberImage
  | readCertificate => some SurfaceAp.Ef.certificate
  | verifyBirthDate _ => some SurfaceAp.Ef.birthDate
  | verifyCodeA _ => some SurfaceAp.Ef.codeA
  | verifyCodeB _ => some SurfaceAp.Ef.codeB
  | retries key => some key

def TextOperation.ef : TextOperation → Option UInt16
  | select | sign _ => none
  | readEf id => some id
  | readMyNumber | readMyNumberFile => some TextAp.Ef.myNumber
  | readAttributes => some TextAp.Ef.attributes
  | readCertificate => some TextAp.Ef.certificate
  | readApBasicData => some TextAp.Ef.apBasicData
  | readIntegrityRecord => some TextAp.Ef.integrity
  | readSignedPublicKey => some TextAp.Ef.signedPublicKey
  | readSessionKeyPublicKey | openSecureSession _ _ => some TextAp.Ef.sessionKeyPublicKey
  | verifyPin _ | changePin _ _ => some TextAp.Ef.pin
  | verifyCodeA _ => some TextAp.Ef.codeA
  | verifyCodeB _ => some TextAp.Ef.codeB
  | retries key => some key

def JpkiOperation.ef : JpkiOperation → Option UInt16
  | select | signWithAuthKey _ _ | signWithSignKey _ _ => none
  | readEf id => some id
  | readTokenType | readTokenInfo => some JpkiAp.Ef.tokenInfo
  | readCertificateAvailability => some JpkiAp.Ef.certificateAvailability
  | readAuthCertificateDer | readAuthCertificate | signWithAuthKeyChecked _ _ =>
    some JpkiAp.Ef.authCertificate
  | readAuthCaCertificateDer | readAuthCaCertificate => some JpkiAp.Ef.authCaCertificate
  | readSignCertificateDer | readSignCertificate | signWithSignKeyChecked _ _ =>
    some JpkiAp.Ef.signCertificate
  | readSignCaCertificateDer | readSignCaCertificate => some JpkiAp.Ef.signCaCertificate
  | verifyAuthPin _ | changeAuthPin _ _ | authPinRetries => some JpkiAp.Ef.authPin
  | verifySignPin _ | changeSignPin _ _ | signPinRetries => some JpkiAp.Ef.signPin

def MasterFileOperation.ef : MasterFileOperation → Option UInt16
  | select | new | dataObject _ | certificateChain => none
  | cardIdentifier => some MasterFile.Ef.cardIdentifier
  | applicationFolders => some MasterFile.Ef.applicationFolderList
  | icManufacturerId => some MasterFile.Ef.icManufacturerId
  | readAllRecords id => some id

/-! ### The value an operation presents -/

def CommonOperation.currentPin : CommonOperation → Option Pin
  | verifyPin pin | changePin pin _ => some pin
  | _ => none

def JukiOperation.currentPin : JukiOperation → Option Pin
  | verifyPin pin | changePin pin _ => some pin
  | _ => none

def SurfaceOperation.currentPin : SurfaceOperation → Option Pin
  | verifyBirthDate code | verifyCodeA code | verifyCodeB code => some code
  | _ => none

def TextOperation.currentPin : TextOperation → Option Pin
  | verifyPin pin | changePin pin _ | verifyCodeA pin | verifyCodeB pin => some pin
  | _ => none

def JpkiOperation.currentPin : JpkiOperation → Option Pin
  | verifyAuthPin pin | verifySignPin pin | changeAuthPin pin _ | changeSignPin pin _ => some pin
  | _ => none

/-! ### Performing an operation -/

/-- What an operation gives. -/
inductive Value (x509 : X509Crate)
  | unit (u : Unit)
  | bytes (data : Bytes)
  | retries (counter : Retries)
  | cardInfo (info : CardInfo)
  | surfaceApBasicData (record : Surface.ApBasicData)
  | ageRecord (record : Surface.AgeRecord)
  | cardFace (record : Surface.CardFace)
  | myNumberImage (record : Surface.MyNumberImage)
  | cardVerifiableCertificate (certificate : CardVerifiableCertificate)
  | myNumber (number : MyNumber)
  | attributes (record : Text.Attributes)
  | textApBasicData (record : Text.ApBasicData)
  | integrityRecord (record : Text.IntegrityRecord)
  | signedPublicKey (record : Text.SignedPublicKey)
  | sessionKeyPublicKey (record : Text.SessionKeyPublicKey)
  | session (session : SecureSession)
  | tokenType (token : TokenType)
  | tokenInfo (info : TokenInfo)
  | certificateAvailability (available : CertificateAvailability)
  | certificate (certificate : Certificate x509)
  | certificateChain (chain : List CardVerifiableCertificate)
  | cardIdentifier (identifier : CardIdentifier)
  | applicationFolders (folders : ApplicationFolders)
  | icManufacturerId (manufacturer : IcManufacturerId)

/-- An operation, and its value as one of all of them. -/
def yielding {α β : Type} (f : α → β) (x : CardM α) : CardM β := do
  let a ← x
  pure (f a)

section Perform

variable (rsa : RsaCrate) (x509 : X509Crate) (pf : Platform) (fuel : ℕ)

def CommonOperation.perform : CommonOperation → CardM (Value x509)
  | select => yielding .unit (CommonAp.select fuel)
  | readRecord id record => yielding .bytes (CommonAp.readRecord fuel id record)
  | readCardInfo => yielding .cardInfo (CommonAp.readCardInfo fuel)
  | internalAuthenticate challenge => yielding .bytes (CommonAp.internalAuthenticate fuel challenge)
  | verifyPin pin => yielding .unit (CommonAp.verifyPin fuel pin)
  | changePin currentPin newPin => yielding .unit (CommonAp.changePin fuel currentPin newPin)
  | pinRetries => yielding .retries (CommonAp.pinRetries fuel)

def JukiOperation.perform : JukiOperation → CardM (Value x509)
  | select => yielding .unit (JukiAp.select fuel)
  | readRecord id record => yielding .bytes (JukiAp.readRecord fuel id record)
  | verifyPin pin => yielding .unit (JukiAp.verifyPin fuel pin)
  | changePin currentPin newPin => yielding .unit (JukiAp.changePin fuel currentPin newPin)
  | pinRetries => yielding .retries (JukiAp.pinRetries fuel)

def SurfaceOperation.perform : SurfaceOperation → CardM (Value x509)
  | select => yielding .unit (SurfaceAp.select fuel)
  | readEf id => yielding .bytes (SurfaceAp.readEf pf fuel id)
  | readApBasicData => yielding .surfaceApBasicData (SurfaceAp.readApBasicData pf fuel)
  | readAgeRecord => yielding .ageRecord (SurfaceAp.readAgeRecord pf fuel)
  | readCardFace => yielding .cardFace (SurfaceAp.readCardFace pf fuel)
  | readMyNumberImage => yielding .myNumberImage (SurfaceAp.readMyNumberImage pf fuel)
  | readCertificate => yielding .cardVerifiableCertificate (SurfaceAp.readCertificate pf fuel)
  | sign data => yielding .bytes (SurfaceAp.sign fuel rsa data)
  | verifyBirthDate code => yielding .unit (SurfaceAp.verifyBirthDate fuel code)
  | verifyCodeA code => yielding .unit (SurfaceAp.verifyCodeA fuel code)
  | verifyCodeB code => yielding .unit (SurfaceAp.verifyCodeB fuel code)
  | retries key => yielding .retries (SurfaceAp.retries fuel key)

def TextOperation.perform : TextOperation → CardM (Value x509)
  | select => yielding .unit (TextAp.select fuel)
  | readEf id => yielding .bytes (TextAp.readEf pf fuel id)
  | readMyNumber => yielding .myNumber (TextAp.readMyNumber pf fuel)
  | readAttributes => yielding .attributes (TextAp.readAttributes pf fuel)
  | readCertificate => yielding .cardVerifiableCertificate (TextAp.readCertificate pf fuel)
  | readApBasicData => yielding .textApBasicData (TextAp.readApBasicData pf fuel)
  | readIntegrityRecord => yielding .integrityRecord (TextAp.readIntegrityRecord pf fuel)
  | readSignedPublicKey => yielding .signedPublicKey (TextAp.readSignedPublicKey pf fuel)
  | readSessionKeyPublicKey => yielding .sessionKeyPublicKey (TextAp.readSessionKeyPublicKey pf fuel)
  | readMyNumberFile => yielding .bytes (TextAp.readMyNumberFile fuel)
  | sign data => yielding .bytes (TextAp.sign fuel rsa data)
  | openSecureSession encryptOaep seed =>
    yielding .session (TextAp.openSecureSession pf fuel encryptOaep seed)
  | verifyPin pin => yielding .unit (TextAp.verifyPin fuel pin)
  | changePin currentPin newPin => yielding .unit (TextAp.changePin fuel currentPin newPin)
  | verifyCodeA code => yielding .unit (TextAp.verifyCodeA fuel code)
  | verifyCodeB code => yielding .unit (TextAp.verifyCodeB fuel code)
  | retries key => yielding .retries (TextAp.retries fuel key)

def JpkiOperation.perform : JpkiOperation → CardM (Value x509)
  | select => yielding .unit (JpkiAp.select fuel)
  | readEf id => yielding .bytes (JpkiAp.readEf pf fuel id)
  | readTokenType => yielding .tokenType (JpkiAp.readTokenType fuel)
  | readTokenInfo => yielding .tokenInfo (JpkiAp.readTokenInfo fuel)
  | readCertificateAvailability =>
    yielding .certificateAvailability (JpkiAp.readCertificateAvailability fuel)
  | readAuthCertificateDer => yielding .bytes (JpkiAp.readAuthCertificateDer pf fuel)
  | readAuthCaCertificateDer => yielding .bytes (JpkiAp.readAuthCaCertificateDer pf fuel)
  | readSignCertificateDer => yielding .bytes (JpkiAp.readSignCertificateDer pf fuel)
  | readSignCaCertificateDer => yielding .bytes (JpkiAp.readSignCaCertificateDer pf fuel)
  | readAuthCertificate => yielding .certificate (JpkiAp.readAuthCertificate x509 pf fuel)
  | readAuthCaCertificate => yielding .certificate (JpkiAp.readAuthCaCertificate x509 pf fuel)
  | readSignCertificate => yielding .certificate (JpkiAp.readSignCertificate x509 pf fuel)
  | readSignCaCertificate => yielding .certificate (JpkiAp.readSignCaCertificate x509 pf fuel)
  | verifyAuthPin pin => yielding .unit (JpkiAp.verifyAuthPin fuel pin)
  | verifySignPin pin => yielding .unit (JpkiAp.verifySignPin fuel pin)
  | changeAuthPin currentPin newPin => yielding .unit (JpkiAp.changeAuthPin fuel currentPin newPin)
  | changeSignPin currentPin newPin => yielding .unit (JpkiAp.changeSignPin fuel currentPin newPin)
  | authPinRetries => yielding .retries (JpkiAp.authPinRetries fuel)
  | signPinRetries => yielding .retries (JpkiAp.signPinRetries fuel)
  | signWithAuthKey scheme data => yielding .bytes (JpkiAp.signWithAuthKey fuel scheme data)
  | signWithSignKey scheme data => yielding .bytes (JpkiAp.signWithSignKey fuel scheme data)
  | signWithAuthKeyChecked scheme data =>
    yielding .bytes (JpkiAp.signWithAuthKeyChecked rsa x509 pf fuel scheme data)
  | signWithSignKeyChecked scheme data =>
    yielding .bytes (JpkiAp.signWithSignKeyChecked rsa x509 pf fuel scheme data)

def MasterFileOperation.perform : MasterFileOperation → CardM (Value x509)
  | select => yielding .unit (MasterFile.select fuel)
  | new => yielding .unit MasterFile.new
  | dataObject tag => yielding .bytes (MasterFile.dataObject fuel tag)
  | certificateChain => yielding .certificateChain (MasterFile.certificateChain pf fuel)
  | cardIdentifier => yielding .cardIdentifier (MasterFile.cardIdentifier fuel)
  | applicationFolders => yielding .applicationFolders (MasterFile.applicationFolders fuel)
  | icManufacturerId => yielding .icManufacturerId (MasterFile.icManufacturerId fuel)
  | readAllRecords id => yielding .bytes (MasterFile.readAllRecords fuel id)

/-! ### Runs -/

/-- An operation of one of the wrappers. -/
inductive WrapperOperation
  | common (op : CommonOperation)
  | juki (op : JukiOperation)
  | surface (op : SurfaceOperation)
  | text (op : TextOperation)
  | jpki (op : JpkiOperation)
  | masterFile (op : MasterFileOperation)

namespace WrapperOperation

def ef : WrapperOperation → Option UInt16
  | common op => op.ef
  | juki op => op.ef
  | surface op => op.ef
  | text op => op.ef
  | jpki op => op.ef
  | masterFile op => op.ef

def currentPin : WrapperOperation → Option Pin
  | common op => op.currentPin
  | juki op => op.currentPin
  | surface op => op.currentPin
  | text op => op.currentPin
  | jpki op => op.currentPin
  | masterFile _ => none

def perform : WrapperOperation → CardM (Value x509)
  | common op => op.perform x509 fuel
  | juki op => op.perform x509 fuel
  | surface op => op.perform rsa x509 pf fuel
  | text op => op.perform rsa x509 pf fuel
  | jpki op => op.perform rsa x509 pf fuel
  | masterFile op => op.perform x509 pf fuel

end WrapperOperation

/-- An APDU on its way, with the operation that issued it and its place in the run. -/
structure Issued where
  index : ℕ
  operation : WrapperOperation
  apdu : Bytes

/-- Operations one after the other, whatever they return, from place `n` on, with what each of them
returned. After one that did not come back there is no next one. -/
def performFrom :
    ℕ → List WrapperOperation → Dialogue Issued Answer (List (Run (Value x509)))
  | _, [] => .done []
  | n, op :: ops =>
    ((op.perform rsa x509 pf fuel).run.relabel (Issued.mk n op)).bind fun r =>
      if Run.isLost r then .done [r]
      else (performFrom (n + 1) ops).bind fun rest => .done (r :: rest)

end Perform

end MynaCard
