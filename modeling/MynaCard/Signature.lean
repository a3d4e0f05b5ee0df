import MynaCard.Data
import MynaCard.Rsa
import MynaCard.Sha256

/-!
# RSA and certificates

The part of `data.rs` and `certificate.rs` that is built on other crates: RSA signatures and the
digest under them, and the reading of X.509 certificates. What the crate takes from `rsa` and
`x509-cert` is the parameter of the definitions here.
-/

namespace MynaCard

/-- What is taken from `rsa`. -/
structure RsaCrate where
  sha256 : Bytes → { d : Bytes // d.length = 32 }
  /-- whether `RsaPublicKey::new` accepts the numbers -/
  usable : RsaPublicKey → Bool
  /-- `Pkcs1v15Sign::new_unprefixed`: key, payload, signature -/
  pkcs1v15 : RsaPublicKey → Bytes → Bytes → Bool
  /-- `Pss::new::<Sha256>`: key, digest, signature -/
  pss : RsaPublicKey → Bytes → Bytes → Bool

/-- What `rsa` computes, except for PSS, of which it takes no signature. -/
def RsaCrate.pkcs1 : RsaCrate where
  sha256 := Sha256.sha256
  usable key := decide (bigEndian key.modulus < 2 ^ 4096 ∧ bigEndian key.modulus % 2 = 1 ∧
    bigEndian key.exponent < bigEndian key.modulus ∧ bigEndian key.exponent % 2 = 1 ∧
    2 ≤ bigEndian key.exponent ∧ bigEndian key.exponent < 2 ^ 33)
  pkcs1v15 key := Rsa.verify (bigEndian key.modulus) (bigEndian key.exponent)
  pss _ _ _ := false

theorem RsaCrate.pkcs1_pkcs1v15 (key : RsaPublicKey) : RsaCrate.pkcs1.pkcs1v15 key =
    Rsa.verify (bigEndian key.modulus) (bigEndian key.exponent) := rfl

namespace RsaPublicKey

variable (rsa : RsaCrate) (key : RsaPublicKey)

/-- One check of a signature under the key, `to_rsa()?.verify(..).map_err(..)`. -/
def verifyBy (holds : Bool) (what : String) : Run Unit :=
  if ¬ rsa.usable key then .error (.err (.signatureInvalid "the public key is not usable"))
  else if holds then .ok ()
  else .error (.err (.signatureInvalid what))

/-- `RsaPublicKey::verify_pkcs1`. -/
def verifyPkcs1 (digestInfo signature : Bytes) : Run Unit :=
  key.verifyBy rsa (rsa.pkcs1v15 key digestInfo signature)
    "PKCS #1 v1.5 signature does not verify"

/-- `RsaPublicKey::verify_pkcs1_sha256`. -/
def verifyPkcs1Sha256 (message signature : Bytes) : Run Unit :=
  key.verifyPkcs1 rsa (sha256DigestInfo (rsa.sha256 message).1) signature

/-- `RsaPublicKey::verify_pss_prehashed`. -/
def verifyPssPrehashed (digest signature : Bytes) : Run Unit :=
  key.verifyBy rsa (rsa.pss key digest signature) "PSS signature does not verify"

/-- `RsaPublicKey::verify_pss_sha256`. -/
def verifyPssSha256 (message signature : Bytes) : Run Unit :=
  key.verifyPssPrehashed rsa (rsa.sha256 message).1 signature

end RsaPublicKey

/-- What is taken from `x509-cert`, and from `rsa` to read a key. -/
structure X509Crate where
  /-- `x509_cert::Certificate` -/
  Inner : Type
  /-- `from_der`, with the text of its error -/
  fromDer : Bytes → Except String Inner
  /-- the subject's public key, unless its bits are not whole bytes -/
  subjectPublicKey : Inner → Option Bytes
  /-- `from_pkcs1_der` -/
  fromPkcs1Der : Bytes → Option RsaPublicKey

/-- A crate for which every certificate is the same one, and its key cannot be read. -/
def X509Crate.blank : X509Crate := ⟨Unit, fun _ => .ok (), fun _ => none, fun _ => none⟩

/-- A certificate read from the card, with the bytes it was read from. -/
structure Certificate (x509 : X509Crate) where
  der : Bytes
  inner : x509.Inner

namespace Certificate

variable {x509 : X509Crate}

/-- `Certificate::parse`. -/
def parse (x509 : X509Crate) (der : Bytes) : Run (Certificate x509) :=
  match x509.fromDer der with
  | .ok inner => .ok ⟨der, inner⟩
  | .error e => malformed s!"not a DER X.509 certificate: {e}"

/-- `Certificate::public_key`. -/
def publicKey (c : Certificate x509) : Run RsaPublicKey := do
  let bits ← orMalformed "subject public key is not a whole number of bytes"
    (x509.subjectPublicKey c.inner)
  orMalformed "subject public key is not an RSA key" (x509.fromPkcs1Der bits)

end Certificate

end MynaCard
