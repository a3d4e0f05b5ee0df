import MynaCard.CheckedLinks
import MynaCard.Signature

/-!
# Chains of X.509 certificates

The rest of `certificate.rs` up to `Certificate::verify_chain`, which goes from the leaf up: what is
accepted is exactly a list of certificates, all valid on the date, each naming the next one as its
issuer and verifying under its key (`verifyChain_leafFirst`).
-/

namespace MynaCard

/-- What is taken from `x509-cert` about a certificate that was read, and from the standard library
to write a string for a programmer. -/
structure X509Fields (x509 : X509Crate) where
  /-- the two names, as `Display` writes them -/
  subject : x509.Inner → String
  issuer : x509.Inner → String
  /-- the validity, in seconds -/
  notBefore : x509.Inner → UInt64
  notAfter : x509.Inner → UInt64
  /-- the object identifier, dotted -/
  signatureAlgorithm : x509.Inner → String
  /-- `to_der` of the `TBSCertificate`, when it can be written -/
  tbsDer : x509.Inner → Option Bytes
  /-- the signature, unless its bits are not whole bytes -/
  signature : x509.Inner → Option Bytes
  /-- `{:?}` -/
  debug : String → String

namespace Certificate

variable {x509 : X509Crate} (fields : X509Fields x509) (rsa : RsaCrate)

/-- `Certificate::subject`. -/
def subject (c : Certificate x509) : String := fields.subject c.inner

/-- `Certificate::issuer`. -/
def issuer (c : Certificate x509) : String := fields.issuer c.inner

/-- `Certificate::validity`, as dates. -/
def validity (c : Certificate x509) : Date × Date :=
  (.fromUnixSeconds (fields.notBefore c.inner).toInt64,
    .fromUnixSeconds (fields.notAfter c.inner).toInt64)

/-- `Certificate::is_valid_on`. -/
def isValidOn (c : Certificate x509) (date : Date) : Bool :=
  (c.validity fields).1 ≤ date ∧ date ≤ (c.validity fields).2

/-- `Certificate::signature_algorithm`. -/
def signatureAlgorithm (c : Certificate x509) : String := fields.signatureAlgorithm c.inner

/-- `Certificate::verify_signature`: one link, under the key of `issuer`. -/
def verifySignature (c issuer : Certificate x509) : Run Unit :=
  if c.signatureAlgorithm fields ≠ "1.2.840.113549.1.1.11" then
    .error (.err (.signatureInvalid "only sha256WithRSAEncryption is checked"))
  else do
    let tbs ← orMalformed "re-encoding the TBSCertificate failed" (fields.tbsDer c.inner)
    let signature ← orMalformed "signature is not a whole number of bytes"
      (fields.signature c.inner)
    let key ← issuer.publicKey
    key.verifyPkcs1Sha256 rsa tbs signature

/-- The check of the date in `verify_chain`, made of the leaf and of every issuer. -/
def checkDate (on : Date) (c : Certificate x509) : Run Unit :=
  if ¬ c.isValidOn fields on then
    malformed (s!"{c.subject fields} is valid {(c.validity fields).1.display} to " ++
      s!"{(c.validity fields).2.display}, not on {on.display}")
  else .ok ()

/-- The body of the loop of `verify_chain`: one certificate against the next. -/
def verifyUnder (on : Date) (subject issuer : Certificate x509) : Run Unit :=
  if subject.issuer fields ≠ issuer.subject fields then
    malformed (s!"chain is broken: {fields.debug (subject.subject fields)} names issuer " ++
      s!"{fields.debug (subject.issuer fields)}, next is {fields.debug (issuer.subject fields)}")
  else do
    issuer.checkDate fields on
    subject.verifySignature fields rsa issuer

/-- `Certificate::verify_chain`, leaf first. -/
def verifyChain (chain : List (Certificate x509)) (on : Date) : Run Unit :=
  match chain with
  | [] => malformed "an empty chain verifies nothing"
  | leaf :: rest => do
    leaf.checkDate fields on
    checkLinks (verifyUnder fields rsa on) leaf rest

/-! ### What is accepted -/

/-- A chain to accept on a date: it is not empty, the date is within the validity of every
certificate, and each names the next as its issuer and verifies under it. -/
structure LeafFirst (chain : List (Certificate x509)) (on : Date) : Prop where
  nonempty : chain ≠ []
  valid : ∀ c ∈ chain, (c.validity fields).1 ≤ on ∧ on ≤ (c.validity fields).2
  link : ∀ i (h : i + 1 < chain.length), chain[i].issuer fields = chain[i + 1].subject fields ∧
    chain[i].verifySignature fields rsa chain[i + 1] = .ok ()

variable {fields rsa}

theorem isValidOn_iff {c : Certificate x509} {on : Date} :
    c.isValidOn fields on = true ↔ (c.validity fields).1 ≤ on ∧ on ≤ (c.validity fields).2 := by
  simp [isValidOn]

theorem checkDate_eq_ok_iff {on : Date} {c : Certificate x509} :
    c.checkDate fields on = .ok () ↔ c.isValidOn fields on = true := by
  unfold checkDate malformed
  cases c.isValidOn fields on <;> simp

theorem verifyUnder_eq_ok_iff {on : Date} {subject issuer : Certificate x509} :
    verifyUnder fields rsa on subject issuer = .ok () ↔ issuer.isValidOn fields on = true ∧
      subject.issuer fields = issuer.subject fields ∧
      subject.verifySignature fields rsa issuer = .ok () := by
  by_cases hname : subject.issuer fields = issuer.subject fields
  · rw [verifyUnder, if_neg (not_not_intro hname), Run.seq_eq_ok,
      checkDate_eq_ok_iff, and_iff_right hname]
  · rw [verifyUnder, if_pos hname]
    exact iff_of_false (fun h => nomatch h) fun h => hname h.2.1

theorem verifyChain_eq_ok_iff {chain : List (Certificate x509)} {on : Date} :
    verifyChain fields rsa chain on = .ok () ↔ LeafFirst fields rsa chain on := by
  cases chain with
  | nil => exact iff_of_false (fun h => nomatch h) fun h => h.nonempty rfl
  | cons leaf rest =>
    have hchain := and_isChain_and_iff (fun c : Certificate x509 => c.isValidOn fields on = true)
      (fun subject issuer => subject.issuer fields = issuer.subject fields ∧
        subject.verifySignature fields rsa issuer = .ok ()) leaf rest
    rw [verifyChain, Run.seq_eq_ok, checkDate_eq_ok_iff, checkLinks_eq_ok_iff]
    simp only [verifyUnder_eq_ok_iff]
    rw [hchain]
    simp only [List.isChain_iff_getElem, isValidOn_iff]
    constructor
    · intro h
      exact ⟨List.cons_ne_nil _ _, h.1, h.2⟩
    · intro h
      exact ⟨h.valid, h.link⟩

/-- What stands next to each other in a part of a chain does so in the chain. -/
theorem LeafFirst.part {chain part : List (Certificate x509)} {on : Date}
    (h : LeafFirst fields rsa chain on) (hpart : part ≠ []) (hin : part <:+: chain) :
    LeafFirst fields rsa part on where
  nonempty := hpart
  valid c hc := h.valid c (hin.subset hc)
  link := by
    have hchain : chain.IsChain fun subject issuer =>
        subject.issuer fields = issuer.subject fields ∧
          subject.verifySignature fields rsa issuer = .ok () :=
      List.isChain_iff_getElem.mpr h.link
    have hwithin := List.IsChain.infix hchain hin
    exact List.isChain_iff_getElem.mp hwithin

/-- **`verify_chain` accepts exactly the valid chains, leaf first**, and then every part of the
chain that starts at its leaf or ends at its last certificate. -/
theorem verifyChain_leafFirst (fields : X509Fields x509) (rsa : RsaCrate)
    (chain : List (Certificate x509)) (on : Date) :
    (verifyChain fields rsa chain on = .ok () ↔ LeafFirst fields rsa chain on) ∧
    ∀ part, part ≠ [] → part <+: chain ∨ part <:+ chain →
      verifyChain fields rsa chain on = .ok () → verifyChain fields rsa part on = .ok () := by
  refine ⟨verifyChain_eq_ok_iff, ?_⟩
  intro part hpart hin hok
  have hinfix : part <:+: chain := hin.elim List.IsPrefix.isInfix List.IsSuffix.isInfix
  exact verifyChain_eq_ok_iff.mpr ((verifyChain_eq_ok_iff.mp hok).part hpart hinfix)

end Certificate

end MynaCard
