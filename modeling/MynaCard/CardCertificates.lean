import MynaCard.Ca
import MynaCard.CheckedLinks
import MynaCard.Signature

/-!
# Chains of card-verifiable certificates

The checks of `data.rs` on a card-verifiable certificate: against a key given to it, against the CA
key its issuer identifier names, and of a chain from the top down. What a chain has to be is said
by position (`Linked`), and so is the error that a chain which is not linked gives
(`FailsFirst`).
-/

namespace MynaCard.CardVerifiableCertificate

variable (rsa : RsaCrate)

/-- `CardVerifiableCertificate::verify_with`. -/
def verifyWith (c : CardVerifiableCertificate) (caKey : RsaPublicKey) : Run Unit :=
  caKey.verifyPkcs1Sha256 rsa c.signedData c.signature

/-- `CardVerifiableCertificate::verify`. -/
def verify (c : CardVerifiableCertificate) : Run Unit :=
  match Ca.find c.issuerKeyId with
  | some ca => c.verifyWith rsa ca.toPublicKey
  | none => .error (.err (.unknownCertificateAuthority c.issuerKeyId))

/-- The body of the loop of `verify_chain`: one certificate against the one above it. -/
def verifyUnder (issuer cert : CardVerifiableCertificate) : Run Unit :=
  if cert.issuerKeyId ≠ issuer.subjectKeyId then
    malformed "chain is broken: a certificate names an issuer the one above does not certify"
  else cert.verifyWith rsa issuer.publicKey

/-- `CardVerifiableCertificate::verify_chain`. -/
def verifyChain : List CardVerifiableCertificate → Run Unit
  | [] => malformed "an empty chain verifies nothing"
  | first :: rest => do
    first.verify rsa
    checkLinks (verifyUnder rsa) first rest

/-! ### What is accepted -/

/-- The first certificate verifies under the CA key of its issuer identifier, and each later one
names the one before it and verifies under its key. -/
structure Linked (chain : List CardVerifiableCertificate) : Prop where
  top : ∃ first ca, chain.head? = some first ∧ Ca.find first.issuerKeyId = some ca ∧
    first.verifyWith rsa ca.toPublicKey = .ok ()
  link : ∀ i (h : i + 1 < chain.length), chain[i + 1].issuerKeyId = chain[i].subjectKeyId ∧
    chain[i + 1].verifyWith rsa chain[i].publicKey = .ok ()

/-- What the first certificate of a chain can stop with. -/
def TopFails (first : CardVerifiableCertificate) (e : Stop) : Prop :=
  (Ca.find first.issuerKeyId = none ∧
      e = .err (.unknownCertificateAuthority first.issuerKeyId)) ∨
    ∃ ca, Ca.find first.issuerKeyId = some ca ∧ first.verifyWith rsa ca.toPublicKey = .error e

/-- What a later certificate can stop with. -/
def LinkFails (issuer cert : CardVerifiableCertificate) (e : Stop) : Prop :=
  (cert.issuerKeyId ≠ issuer.subjectKeyId ∧ e = .err (.malformed
      "chain is broken: a certificate names an issuer the one above does not certify")) ∨
    (cert.issuerKeyId = issuer.subjectKeyId ∧ cert.verifyWith rsa issuer.publicKey = .error e)

/-- `e` is what the first failing position stops with: there is none to check, the first
certificate fails, or a certificate fails below a linked chain. -/
inductive FailsFirst : List CardVerifiableCertificate → Stop → Prop
  | empty : FailsFirst [] (.err (.malformed "an empty chain verifies nothing"))
  | top {first rest e} : TopFails rsa first e → FailsFirst (first :: rest) e
  | link {above issuer cert below e} : Linked rsa (above ++ [issuer]) →
      LinkFails rsa issuer cert e → FailsFirst (above ++ issuer :: cert :: below) e

variable {rsa}

theorem verify_eq_ok_iff {c : CardVerifiableCertificate} : c.verify rsa = .ok () ↔
    ∃ ca, Ca.find c.issuerKeyId = some ca ∧ c.verifyWith rsa ca.toPublicKey = .ok () := by
  unfold verify
  cases Ca.find c.issuerKeyId with
  | none => simp
  | some ca => simp

theorem verify_eq_error_iff {c : CardVerifiableCertificate} {e : Stop} :
    c.verify rsa = .error e ↔ TopFails rsa c e := by
  unfold verify TopFails
  cases Ca.find c.issuerKeyId with
  | none => simp [eq_comm]
  | some ca => simp

theorem verifyUnder_eq_ok_iff {issuer cert : CardVerifiableCertificate} :
    verifyUnder rsa issuer cert = .ok () ↔ cert.issuerKeyId = issuer.subjectKeyId ∧
      cert.verifyWith rsa issuer.publicKey = .ok () := by
  unfold verifyUnder malformed
  by_cases h : cert.issuerKeyId = issuer.subjectKeyId <;> simp [h]

theorem verifyUnder_eq_error_iff {issuer cert : CardVerifiableCertificate} {e : Stop} :
    verifyUnder rsa issuer cert = .error e ↔ LinkFails rsa issuer cert e := by
  unfold verifyUnder LinkFails malformed
  by_cases h : cert.issuerKeyId = issuer.subjectKeyId <;> simp [h, eq_comm]

/-- A signature check stops with `SignatureInvalid` and nothing else. -/
theorem verifyWith_error {c : CardVerifiableCertificate} {key : RsaPublicKey} {e : Stop}
    (h : c.verifyWith rsa key = .error e) : ∃ what, e = .err (.signatureInvalid what) := by
  simp only [verifyWith, RsaPublicKey.verifyPkcs1Sha256, RsaPublicKey.verifyPkcs1,
    RsaPublicKey.verifyBy] at h
  split at h
  · exact ⟨_, (Except.error.inj h).symm⟩
  · split at h
    · exact nomatch h
    · exact ⟨_, (Except.error.inj h).symm⟩

/-! ### The loop -/

theorem linked_cons_iff {first : CardVerifiableCertificate} {rest : List CardVerifiableCertificate} :
    Linked rsa (first :: rest) ↔ first.verify rsa = .ok () ∧
      (first :: rest).IsChain fun issuer cert => verifyUnder rsa issuer cert = .ok () := by
  simp only [List.isChain_iff_getElem, verifyUnder_eq_ok_iff, verify_eq_ok_iff]
  constructor
  · intro h
    obtain ⟨c, ca, hc, htop⟩ := h.top
    obtain rfl := Option.some.inj hc
    exact ⟨⟨ca, htop⟩, h.link⟩
  · intro h
    obtain ⟨⟨ca, htop⟩, hlink⟩ := h
    exact ⟨⟨first, ca, rfl, htop⟩, hlink⟩

theorem verifyChain_eq_ok_iff {chain : List CardVerifiableCertificate} :
    verifyChain rsa chain = .ok () ↔ Linked rsa chain := by
  cases chain with
  | nil =>
    refine iff_of_false (fun h => nomatch h) ?_
    intro h
    obtain ⟨c, ca, hc, -⟩ := h.top
    exact nomatch hc
  | cons first rest =>
    rw [linked_cons_iff, ← checkLinks_eq_ok_iff, verifyChain]
    cases first.verify rsa with
    | ok u => exact (and_iff_right rfl).symm
    | error e => exact iff_of_false (fun h => nomatch h) fun h => nomatch h.1

theorem verifyChain_eq_error_iff {chain : List CardVerifiableCertificate} {e : Stop} :
    verifyChain rsa chain = .error e ↔ FailsFirst rsa chain e := by
  constructor
  · intro h
    cases chain with
    | nil =>
      obtain rfl := Except.error.inj h
      exact .empty
    | cons first rest =>
      rw [verifyChain] at h
      cases hfirst : first.verify rsa with
      | error e' =>
        rw [hfirst] at h
        obtain rfl := Except.error.inj h
        exact .top (verify_eq_error_iff.mp hfirst)
      | ok u =>
        rw [hfirst] at h
        obtain ⟨above, issuer, cert, below, heq, hchain, hlink⟩ := checkLinks_eq_error_iff.mp h
        rw [heq]
        refine .link ?_ (verifyUnder_eq_error_iff.mp hlink)
        -- what is above the failing link starts with the same certificate
        cases above with
        | nil =>
          obtain ⟨rfl, -⟩ := List.cons.inj heq
          exact linked_cons_iff.mpr ⟨hfirst, hchain⟩
        | cons c above =>
          obtain ⟨rfl, -⟩ := List.cons.inj heq
          exact linked_cons_iff.mpr ⟨hfirst, hchain⟩
  · intro h
    cases h with
    | empty => rfl
    | @top first rest e htop =>
      rw [verifyChain, verify_eq_error_iff.mpr htop]
      rfl
    | @link above issuer cert below e hlinked hlink =>
      have herror := verifyUnder_eq_error_iff.mpr hlink
      cases above with
      | nil =>
        obtain ⟨hfirst, -⟩ := linked_cons_iff.mp hlinked
        rw [List.nil_append, verifyChain, hfirst]
        exact checkLinks_cons_of_error herror
      | cons first above =>
        obtain ⟨hfirst, hchain⟩ := linked_cons_iff.mp hlinked
        rw [List.cons_append, verifyChain, hfirst]
        exact checkLinks_eq_error_iff.mpr
          ⟨first :: above, issuer, cert, below, rfl, hchain, herror⟩

/-- What the certificates below a linked chain fail with is never an unknown authority. -/
theorem failsFirst_unknown_iff {chain : List CardVerifiableCertificate} {id : KeyId} :
    FailsFirst rsa chain (.err (.unknownCertificateAuthority id)) ↔
      ∃ first rest, chain = first :: rest ∧ first.issuerKeyId = id ∧ Ca.find id = none := by
  constructor
  · intro h
    cases h with
    | @top first rest e htop =>
      obtain ⟨hnone, he⟩ | ⟨ca, -, hwith⟩ := htop
      · obtain rfl := Error.unknownCertificateAuthority.inj (Stop.err.inj he)
        exact ⟨first, rest, rfl, rfl, hnone⟩
      · obtain ⟨what, hwhat⟩ := verifyWith_error hwith
        exact nomatch hwhat
    | @link above issuer cert below e hlinked hlink =>
      obtain ⟨-, he⟩ | ⟨-, hwith⟩ := hlink
      · exact nomatch he
      · obtain ⟨what, hwhat⟩ := verifyWith_error hwith
        exact nomatch hwhat
  · intro h
    obtain ⟨first, rest, rfl, rfl, hnone⟩ := h
    exact .top (.inl ⟨hnone, rfl⟩)

theorem Linked.front {chain front : List CardVerifiableCertificate} (h : Linked rsa chain)
    (hfront : front ≠ []) (hpre : front <+: chain) : Linked rsa front := by
  cases front with
  | nil => exact absurd rfl hfront
  | cons first rest =>
    obtain ⟨below, rfl⟩ := hpre
    obtain ⟨hfirst, hchain⟩ := linked_cons_iff.mp h
    exact linked_cons_iff.mpr ⟨hfirst, List.IsChain.prefix hchain (List.prefix_append _ _)⟩

/-- **`verify_chain` accepts exactly the linked chains.** A chain that is not linked gives the
error of its first failing position, whatever follows it; that error is an unknown authority
exactly when the table has no key for the issuer of the first certificate; and what is accepted
from the top of an accepted chain is accepted on its own. -/
theorem verifyChain_exact (rsa : RsaCrate) (chain : List CardVerifiableCertificate) :
    (verifyChain rsa chain = .ok () ↔ Linked rsa chain) ∧
    (∀ e, verifyChain rsa chain = .error e ↔ FailsFirst rsa chain e) ∧
    (∀ id, verifyChain rsa chain = .error (.err (.unknownCertificateAuthority id)) ↔
      ∃ first rest, chain = first :: rest ∧ first.issuerKeyId = id ∧
        ∀ k ∈ Ca.known, k.keyId ≠ id) ∧
    ∀ front, front ≠ [] → front <+: chain → verifyChain rsa chain = .ok () →
      verifyChain rsa front = .ok () := by
  refine ⟨verifyChain_eq_ok_iff, fun e => verifyChain_eq_error_iff, ?_, ?_⟩
  · intro id
    simp only [verifyChain_eq_error_iff, failsFirst_unknown_iff, Ca.find_eq_none_iff]
  · intro front hfront hpre hok
    exact verifyChain_eq_ok_iff.mpr ((verifyChain_eq_ok_iff.mp hok).front hfront hpre)

end MynaCard.CardVerifiableCertificate
