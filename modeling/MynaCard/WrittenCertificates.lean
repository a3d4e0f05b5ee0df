import MynaCard.CardCertificates
import MynaCard.WrittenRecords

/-!
# Card-verifiable certificates written

A certificate as its issuer writes it, in the template of a file or as the contents that GET DATA
gives, and the chain that a line of authorities issues, each certifying the key of the next. **A chain
issued under a known CA key is read back and verifies**, and its last certificate gives the key of the
last authority of the line (`issued_chain_verifies`).
-/

namespace MynaCard

open Ber

/-- An issuer with the identifier of its key. -/
structure Authority extends Issuer where
  keyId : KeyId

namespace CardVerifiableCertificate

/-! ### One certificate -/

/-- What is signed: the identifiers of the two keys, and the key that is certified. -/
def body (w : Writer) (issuerKeyId subjectKeyId : KeyId) (publicKey : RsaPublicKey) : Bytes :=
  issuerKeyId.bytes ++ (subjectKeyId.bytes ++ publicKey.write w)

variable (rsa : RsaCrate) (a : Authority) (subject : Authority)

/-- What the authority certifies of the subject. -/
def certified : Bytes := body a.writer a.keyId subject.keyId subject.publicKey

/-- A certificate issued. -/
def issued : CardVerifiableCertificate :=
  ⟨a.keyId, subject.keyId, subject.publicKey, a.signature rsa (certified a subject),
    certified a subject⟩

/-- The two objects of it, and what there is before them. -/
def objects (extra : List (ℕ × Bytes)) : List (ℕ × Bytes) :=
  extra ++ [(0x5F4E, certified a subject), (0x5F37, a.signature rsa (certified a subject))]

/-- The file of it, in the template. -/
def file (extra : List (ℕ × Bytes)) (filler : Bytes) : Bytes :=
  a.writer.object 0x7F21 (a.writer.objects (objects rsa a subject extra) ++ filler)

/-- What GET DATA gives, without the template. -/
def bare (extra : List (ℕ × Bytes)) (filler : Bytes) : Bytes :=
  a.writer.objects (objects rsa a subject extra) ++ filler

variable {rsa a subject}

/-- The identifiers have their digits, and the key the size there is for it. -/
structure Certifies (a subject : Authority) : Prop where
  issuer_digits : a.keyId.Digits
  subject_digits : subject.keyId.Digits
  body_length : (certified a subject).length = 297

/-- Objects that are neither the body of a certificate nor its signature. -/
def Beside (extra : List (ℕ × Bytes)) : Prop :=
  ∀ f ∈ extra, isFieldTag f.1 = true ∧ f.1 ≠ 0x5F4E ∧ f.1 ≠ 0x5F37

theorem Beside.foldlM_eq {extra : List (ℕ × Bytes)} (h : Beside extra)
    (acc : Option Bytes × Option Bytes) :
    (extra.map fun f => (.ok ⟨f.1, f.2⟩ : Run Tlv)).foldlM parseItem acc = .ok acc := by
  induction extra with
  | nil => rfl
  | cons f extra ih =>
    obtain ⟨-, hbody, hsignature⟩ := h f List.mem_cons_self
    have hskip : parseItem acc (.ok ⟨f.1, f.2⟩) = .ok acc := by
      show (if f.1 = 0x5F4E then _ else if f.1 = 0x5F37 then _ else _) = _
      rw [if_neg hbody, if_neg hsignature]
      rfl
    rw [List.map_cons, List.foldlM_cons, hskip]
    exact ih fun g hg => h g (List.mem_cons_of_mem _ hg)

/-- The contents are read, in whichever form they come. -/
theorem parse_of_contents (oc : OverflowChecks) (h : Certifies a subject)
    {extra : List (ℕ × Bytes)} (hextra : Beside extra) {data filler : Bytes}
    (hcontents : contents oc data = .ok (bare rsa a subject extra filler))
    (hsize : (a.writer.objects (objects rsa a subject extra)).length < usizeSize)
    (hfiller : StartsFiller filler) :
    CardVerifiableCertificate.parse oc data = .ok (issued rsa a subject) := by
  obtain ⟨hissuer, hsubject, hbody⟩ := h
  have hids := a.keyId.length_eq
  have hids' := subject.keyId.length_eq
  have htags : ∀ f ∈ objects rsa a subject extra, isFieldTag f.1 = true := by
    intro f hf
    obtain hf | hf := List.mem_append.mp hf
    · exact (hextra f hf).1
    · simp only [List.mem_cons, List.not_mem_nil, or_false] at hf
      obtain rfl | rfl := hf
      · show isFieldTag 0x5F4E = true
        decide
      · show isFieldTag 0x5F37 = true
        decide
  have hfound : ((iter oc (bare rsa a subject extra filler)).foldlM parseItem (none, none)) =
      .ok (some (certified a subject), some (a.signature rsa (certified a subject))) := by
    rw [bare, a.writer.iter_objects oc htags hsize hfiller, objects, List.map_append,
      List.foldlM_append, hextra.foldlM_eq]
    rfl
  have htake : (certified a subject).take 16 = a.keyId.bytes := List.take_left' hids
  have hrest : (certified a subject).drop 16 =
      subject.keyId.bytes ++ subject.publicKey.write a.writer := List.drop_left' hids
  have hkey : (certified a subject).drop 32 = subject.publicKey.write a.writer := by
    rw [show 32 = 16 + 16 from rfl, ← List.drop_drop, hrest, List.drop_left' hids']
  have hkeySize : (subject.publicKey.write a.writer).length < usizeSize := by
    rw [← hkey, List.length_drop, hbody]
    decide
  unfold CardVerifiableCertificate.parse
  refine Run.bind_eq_ok.mpr ⟨_, hcontents, ?_⟩
  refine Run.bind_eq_ok.mpr ⟨_, hfound, ?_⟩
  refine Run.bind_eq_ok.mpr ⟨certified a subject, rfl, ?_⟩
  rw [if_neg (not_not.mpr hbody), htake, hrest, List.take_left' hids', hkey]
  refine Run.bind_eq_ok.mpr ⟨_, KeyId.parse_bytes hissuer, ?_⟩
  refine Run.bind_eq_ok.mpr ⟨_, KeyId.parse_bytes hsubject, ?_⟩
  exact Run.bind_eq_ok.mpr ⟨_, RsaPublicKey.parse_write oc a.writer hkeySize, rfl⟩

theorem parse_file (oc : OverflowChecks) (h : Certifies a subject)
    {extra : List (ℕ × Bytes)} (hextra : Beside extra) {filler : Bytes}
    (hsize : (file rsa a subject extra filler).length < usizeSize) (hfiller : StartsFiller filler)
    (post : Bytes) :
    CardVerifiableCertificate.parse oc (file rsa a subject extra filler ++ post) =
      .ok (issued rsa a subject) := by
  have hlen := hsize
  rw [file, Writer.object_length, List.length_append] at hlen
  refine parse_of_contents oc h hextra ?_ (by omega) hfiller
  have htemplate : [0x7F, 0x21] <+: file rsa a subject extra filler ++ post :=
    ⟨_, (List.append_assoc [0x7F, 0x21] _ _).symm⟩
  unfold contents
  rw [if_pos htemplate]
  exact Run.bind_eq_ok.mpr ⟨_, a.writer.parse_object oc (by decide) hsize post, rfl⟩

theorem parse_bare (oc : OverflowChecks) (h : Certifies a subject)
    {extra : List (ℕ × Bytes)} (hextra : Beside extra) {filler : Bytes}
    (hsize : (bare rsa a subject extra filler).length < usizeSize) (hfiller : StartsFiller filler)
    (htemplate : ¬ [0x7F, 0x21] <+: bare rsa a subject extra filler) :
    CardVerifiableCertificate.parse oc (bare rsa a subject extra filler) =
      .ok (issued rsa a subject) := by
  have hlen := hsize
  rw [bare, List.length_append] at hlen
  refine parse_of_contents oc h hextra ?_ (by omega) hfiller
  unfold contents
  rw [if_neg htemplate]
  rfl

/-! ### Chains -/

/-- The bytes a certificate comes in: a file of it and whatever follows, or what GET DATA gives,
unless that looks like a file. -/
inductive Form (rsa : RsaCrate) (a subject : Authority) : Bytes → Prop
  | file (extra : List (ℕ × Bytes)) (filler post : Bytes) (hextra : Beside extra)
      (hsize : (file rsa a subject extra filler).length < usizeSize)
      (hfiller : StartsFiller filler) : Form rsa a subject (file rsa a subject extra filler ++ post)
  | bare (extra : List (ℕ × Bytes)) (filler : Bytes) (hextra : Beside extra)
      (hsize : (bare rsa a subject extra filler).length < usizeSize)
      (hfiller : StartsFiller filler)
      (htemplate : ¬ [0x7F, 0x21] <+: bare rsa a subject extra filler) :
      Form rsa a subject (bare rsa a subject extra filler)

theorem Form.parse_eq (oc : OverflowChecks) (h : Certifies a subject) {raw : Bytes}
    (hform : Form rsa a subject raw) :
    CardVerifiableCertificate.parse oc raw = .ok (issued rsa a subject) := by
  cases hform with
  | file extra filler post hextra hsize hfiller =>
    exact parse_file oc h hextra hsize hfiller post
  | bare extra filler hextra hsize hfiller htemplate =>
    exact parse_bare oc h hextra hsize hfiller htemplate

/-- The certificates of a line of authorities, each issued by the one before it. -/
def chain (rsa : RsaCrate) : Authority → List Authority → List CardVerifiableCertificate
  | _, [] => []
  | a, subject :: line => issued rsa a subject :: chain rsa subject line

/-- The bytes the certificates of a line come in. The signature of each verifies under the key of the
authority that issued it. -/
inductive Forms (rsa : RsaCrate) : Authority → List Authority → List Bytes → Prop
  | nil (a : Authority) : Forms rsa a [] []
  | cons {a subject : Authority} {line : List Authority} {raw : Bytes} {raws : List Bytes}
      (h : Certifies a subject)
      (hsigned : (issued rsa a subject).verifyWith rsa a.publicKey = .ok ())
      (hform : Form rsa a subject raw) (hline : Forms rsa subject line raws) :
      Forms rsa a (subject :: line) (raw :: raws)

/-- The certificates of a line are read from their bytes. -/
theorem Forms.parse_eq (oc : OverflowChecks) {a : Authority} {line : List Authority}
    {raws : List Bytes} (h : Forms rsa a line raws) :
    raws.mapM (CardVerifiableCertificate.parse oc) = .ok (chain rsa a line) := by
  induction h with
  | nil a => rfl
  | cons h hsigned hform hline ih =>
    rw [List.mapM_cons, hform.parse_eq oc h, ih]
    rfl

/-- Below a certificate, the certificates its subject's line issues link. -/
theorem Forms.checkLinks_eq {line : List Authority} {raws : List Bytes}
    (h : Forms rsa subject line raws) (a : Authority) :
    checkLinks (verifyUnder rsa) (issued rsa a subject) (chain rsa subject line) = .ok () := by
  induction h generalizing a with
  | nil subject => rfl
  | @cons subject next line raw raws h hsigned hform hline ih =>
    have hlink : verifyUnder rsa (issued rsa a subject) (issued rsa subject next) = .ok () :=
      verifyUnder_eq_ok_iff.mpr ⟨rfl, hsigned⟩
    rw [chain, checkLinks_cons_of_ok hlink]
    exact ih subject

/-- The last certificate of a line certifies the key of the last authority. -/
theorem getLast?_chain (rsa : RsaCrate) (a : Authority) (line : List Authority) (last : Authority) :
    ∃ cert, (chain rsa a (line ++ [last])).getLast? = some cert ∧
      cert.subjectKeyId = last.keyId ∧ cert.publicKey = last.publicKey := by
  induction line generalizing a with
  | nil => exact ⟨issued rsa a last, rfl, rfl, rfl⟩
  | cons next line ih =>
    obtain ⟨cert, hcert, hrest⟩ := ih next
    refine ⟨cert, ?_, hrest⟩
    rw [List.cons_append, chain, List.getLast?_cons, hcert]
    rfl

/-- The chain of a line below a known CA key verifies. -/
theorem Forms.verifyChain_eq {ca : Authority} {line : List Authority} {raws : List Bytes}
    {key : CaKey} (hknown : Ca.find ca.keyId = some key) (hkey : key.toPublicKey = ca.publicKey)
    (hforms : Forms rsa ca line raws) (hline : line ≠ []) :
    verifyChain rsa (chain rsa ca line) = .ok () := by
  cases hforms with
  | nil => exact absurd rfl hline
  | @cons _ first rest raw raws h hsigned hform hrest =>
    have htop : (issued rsa ca first).verify rsa = .ok () := by
      refine verify_eq_ok_iff.mpr ⟨key, hknown, ?_⟩
      rw [hkey]
      exact hsigned
    rw [chain, verifyChain]
    refine Run.bind_eq_ok.mpr ⟨(), htop, ?_⟩
    exact hrest.checkLinks_eq ca

/-- The chain of a line that ends with an authority verifies, and its last certificate gives the key
of that authority. -/
theorem Forms.vouch {ca : Authority} {line : List Authority} {last : Authority} {key : CaKey}
    (hknown : Ca.find ca.keyId = some key) (hkey : key.toPublicKey = ca.publicKey)
    {raws : List Bytes} (hforms : Forms rsa ca (line ++ [last]) raws) :
    ∃ cert, verifyChain rsa (chain rsa ca (line ++ [last])) = .ok () ∧
      (chain rsa ca (line ++ [last])).getLast? = some cert ∧ cert.subjectKeyId = last.keyId ∧
      cert.publicKey = last.publicKey := by
  obtain ⟨cert, hcert, hid, hpublic⟩ := getLast?_chain rsa ca line last
  exact ⟨cert, hforms.verifyChain_eq hknown hkey (List.concat_ne_nil last line), hcert, hid, hpublic⟩

/-- **A chain issued under a known CA key is read back and verifies**, in whichever of the two forms
each certificate comes, and the last certificate gives the identifier and the key of the last
authority. -/
theorem issued_chain_verifies {ca : Authority} {line : List Authority} {last : Authority}
    {key : CaKey} (hknown : Ca.find ca.keyId = some key) (hkey : key.toPublicKey = ca.publicKey)
    (oc : OverflowChecks) {raws : List Bytes} (hforms : Forms rsa ca (line ++ [last]) raws) :
    ∃ certs cert, raws.mapM (CardVerifiableCertificate.parse oc) = .ok certs ∧
      verifyChain rsa certs = .ok () ∧ certs.getLast? = some cert ∧
      cert.subjectKeyId = last.keyId ∧ cert.publicKey = last.publicKey := by
  obtain ⟨cert, hvouch⟩ := hforms.vouch hknown hkey
  exact ⟨_, cert, hforms.parse_eq oc, hvouch⟩

/-! ### The chain of a card -/

/-- The signature of the upper certificate. -/
def upperSignature : Bytes :=
  [0x07, 0xB2, 0x50, 0x27, 0x18, 0xA7, 0xBA, 0x73, 0xA1, 0xC8, 0x3A, 0xA1, 0xE4, 0xE5, 0xCA, 0x64,
   0xE2, 0x52, 0xC3, 0xC2, 0x68, 0x19, 0xFC, 0x2F, 0x7E, 0xC0, 0x42, 0x88, 0xB8, 0x41, 0x98, 0xC5,
   0xBC, 0x5B, 0x78, 0x5E, 0x38, 0x05, 0xAB, 0x67, 0x3F, 0x84, 0x34, 0x12, 0x91, 0x71, 0x20, 0xEB,
   0xF1, 0x49, 0xB4, 0x27, 0x25, 0x95, 0x4A, 0xBC, 0x8F, 0xA8, 0x89, 0xAC, 0x5C, 0x54, 0xAD, 0xB5,
   0xD4, 0xEB, 0x77, 0x7F, 0x7F, 0x76, 0x94, 0xEC, 0x09, 0x27, 0xEF, 0x7F, 0xFC, 0x5D, 0xDE, 0x17,
   0x8B, 0x65, 0xD0, 0x80, 0x4D, 0x83, 0x59, 0x2D, 0xC4, 0x40, 0x41, 0x7D, 0x2F, 0x5E, 0x0D, 0xF0,
   0xB4, 0x4C, 0x4F, 0xF3, 0xED, 0x81, 0xA0, 0x90, 0xB4, 0xAC, 0xC3, 0x2C, 0x25, 0xC6, 0x40, 0x68,
   0x59, 0xAD, 0x38, 0x88, 0xCF, 0x96, 0x78, 0x3A, 0x1B, 0xDE, 0xEA, 0x58, 0xF8, 0x85, 0xB1, 0x7A,
   0xAF, 0x1F, 0x9C, 0xEB, 0x9F, 0x52, 0x19, 0x5B, 0xCA, 0x02, 0xDB, 0xED, 0xBD, 0xD9, 0x32, 0x68,
   0x67, 0xF4, 0x57, 0xA5, 0xDB, 0x22, 0x4F, 0x43, 0x2C, 0x73, 0x6F, 0x4D, 0x22, 0xAF, 0xB6, 0xFC,
   0xD1, 0xDA, 0xA5, 0x3F, 0x26, 0x60, 0x50, 0x87, 0x91, 0x1E, 0xEA, 0x4D, 0x2F, 0x8B, 0x81, 0x30,
   0xC5, 0xF6, 0xFF, 0xF2, 0xD3, 0xFE, 0x91, 0x85, 0xBF, 0x50, 0x19, 0xA1, 0x67, 0x5A, 0x2F, 0x14,
   0xC9, 0x6C, 0xAF, 0xF0, 0x32, 0xB3, 0x95, 0x6C, 0x92, 0xA4, 0x65, 0x9C, 0xC0, 0xC9, 0x26, 0xD6,
   0xFB, 0x81, 0x52, 0x37, 0x46, 0xF6, 0x8D, 0xAD, 0x91, 0x43, 0x5A, 0x3B, 0x53, 0xC5, 0x93, 0x7E,
   0x53, 0xA6, 0x93, 0x38, 0x80, 0xB7, 0xDE, 0xE7, 0x29, 0x65, 0xDE, 0xEF, 0x5F, 0x86, 0xD5, 0xB0,
   0x45, 0xE7, 0x91, 0xAA, 0x19, 0x0D, 0xF4, 0x30, 0x2C, 0xCC, 0xF8, 0xF3, 0xB0, 0x1A, 0xA3, 0xEC]

/-- The modulus that the upper certificate certifies. -/
def upperModulus : Bytes :=
  [0xA8, 0x95, 0x34, 0x92, 0x3E, 0x82, 0x4F, 0x8E, 0x8B, 0x3D, 0x70, 0x0D, 0x77, 0x39, 0x87, 0x50,
   0x7C, 0xCC, 0x7A, 0xAA, 0xBE, 0xEB, 0x57, 0x42, 0x1D, 0x9B, 0x34, 0x04, 0xD9, 0x2A, 0xDA, 0x20,
   0x81, 0xAE, 0x75, 0xBF, 0x9B, 0x75, 0xB5, 0x72, 0x45, 0x0C, 0x3E, 0x0A, 0xBD, 0xCB, 0x4B, 0x85,
   0x00, 0xE6, 0x40, 0xD7, 0x86, 0xAF, 0x1B, 0xF5, 0xD7, 0x27, 0xBC, 0x14, 0x93, 0xEC, 0x87, 0x69,
   0x2E, 0xE1, 0x71, 0x0E, 0x84, 0x9D, 0x78, 0x46, 0xF3, 0xE1, 0xF6, 0x6C, 0xC2, 0x1C, 0x43, 0xA8,
   0x83, 0x2B, 0xBE, 0x96, 0x4C, 0x25, 0x24, 0x00, 0x5A, 0x2C, 0xFF, 0xE6, 0xCD, 0x13, 0x23, 0xC5,
   0xBE, 0x8D, 0x7F, 0x5C, 0xD9, 0x58, 0xE4, 0x8F, 0xC1, 0x84, 0xC9, 0x53, 0xDC, 0xC7, 0x00, 0xE9,
   0xEA, 0x85, 0x35, 0xDF, 0xC2, 0x5A, 0x77, 0xBD, 0x7A, 0xC9, 0xF2, 0xB0, 0xD4, 0x81, 0x09, 0x88,
   0x9F, 0xCB, 0x49, 0x13, 0xD4, 0xE8, 0xF3, 0xF6, 0x2C, 0x6B, 0x28, 0x90, 0x3C, 0x7C, 0xD9, 0x1B,
   0x35, 0x00, 0xB9, 0xC1, 0x93, 0x31, 0xE9, 0x32, 0x02, 0x93, 0x85, 0xDA, 0xC4, 0xBD, 0x95, 0x3D,
   0xB2, 0xF1, 0x95, 0x7B, 0x57, 0x18, 0xF5, 0x00, 0x5F, 0xBA, 0xC7, 0x2D, 0x46, 0x7C, 0x49, 0x28,
   0x8F, 0x49, 0x9A, 0xD8, 0x90, 0x3D, 0x30, 0x2B, 0x56, 0x69, 0x77, 0x24, 0xE2, 0x44, 0x46, 0x71,
   0x8D, 0x1D, 0xAB, 0x32, 0x94, 0x3E, 0xA5, 0x90, 0x6A, 0x74, 0xA5, 0x68, 0xEF, 0xF6, 0x75, 0xFC,
   0x48, 0xBC, 0xC9, 0xC6, 0xF7, 0x0E, 0x2F, 0xA7, 0x11, 0x0D, 0xD3, 0xC3, 0xCE, 0x81, 0xBA, 0xE8,
   0x3D, 0xAC, 0xF1, 0xC3, 0x85, 0xAB, 0xE7, 0xDB, 0xA9, 0x66, 0x6C, 0xFB, 0x12, 0x4D, 0xA9, 0x39,
   0xE7, 0xC0, 0x5B, 0xED, 0x2D, 0x75, 0x7E, 0x4A, 0x55, 0xDA, 0x79, 0xE7, 0xF2, 0x49, 0x3B, 0xA5]

/-- The signature of the lower certificate. -/
def lowerSignature : Bytes :=
  [0x0B, 0x02, 0x0D, 0x93, 0x6C, 0x61, 0xC7, 0x17, 0xD5, 0x00, 0xC4, 0x63, 0xE6, 0xAF, 0x4D, 0xB4,
   0xBB, 0xAB, 0xF2, 0x1A, 0xFC, 0x7D, 0xDE, 0xC2, 0x59, 0x15, 0xD5, 0x7E, 0x84, 0xC2, 0xEC, 0xD9,
   0xFF, 0xFD, 0xC7, 0xC7, 0xCA, 0xA7, 0x4F, 0xC1, 0x86, 0x2E, 0xCF, 0xB5, 0x1A, 0xEF, 0xF3, 0x8A,
   0x4E, 0xCE, 0x5C, 0xD4, 0x58, 0xBF, 0x14, 0x34, 0x82, 0xA0, 0xD4, 0xD7, 0x65, 0x47, 0x3D, 0xC2,
   0xCB, 0xC6, 0x88, 0x3E, 0x67, 0x0F, 0x77, 0xBF, 0x3A, 0xE2, 0x71, 0xE1, 0x94, 0x9A, 0x41, 0x78,
   0x44, 0xF5, 0xED, 0x21, 0xD1, 0xB4, 0xA7, 0x3D, 0x26, 0xE7, 0x18, 0x24, 0x12, 0xF2, 0x46, 0x4B,
   0xE8, 0xBE, 0xE9, 0x1A, 0xE6, 0xD9, 0x50, 0xC1, 0x32, 0x51, 0x3D, 0x16, 0x96, 0xC5, 0xD0, 0x26,
   0x9A, 0x4F, 0xC3, 0x96, 0x7B, 0xC2, 0x18, 0x91, 0x85, 0xC5, 0x8A, 0xE4, 0xEA, 0x8D, 0xBA, 0x12,
   0xD2, 0xAC, 0x69, 0xAB, 0xC3, 0x44, 0xBA, 0x70, 0x3E, 0x1B, 0x36, 0xC5, 0xF9, 0xA4, 0xC5, 0x79,
   0xE3, 0x64, 0xA5, 0xA1, 0xAA, 0xD3, 0x6E, 0xE1, 0xDA, 0xA4, 0xBE, 0x51, 0xAE, 0x65, 0x2C, 0xDD,
   0xA4, 0xE5, 0x09, 0xCE, 0xE7, 0xB6, 0x35, 0x78, 0xB9, 0xE5, 0x3F, 0x0F, 0x44, 0x29, 0x0D, 0x49,
   0x05, 0xA0, 0x24, 0x16, 0x54, 0x77, 0x45, 0x6B, 0x29, 0x0F, 0x6D, 0x74, 0x75, 0x59, 0xCA, 0xCF,
   0xCD, 0x62, 0xF2, 0x8F, 0xC9, 0xB9, 0xC9, 0x56, 0xFD, 0xFF, 0x84, 0x79, 0xFF, 0xF6, 0x7E, 0x42,
   0x6C, 0x21, 0xDD, 0x9C, 0xF5, 0xE1, 0x63, 0xF6, 0x43, 0xD3, 0x1F, 0xD8, 0xEF, 0xDD, 0xBB, 0x57,
   0xE4, 0x7A, 0x94, 0x7F, 0xDE, 0xD9, 0x68, 0x47, 0x02, 0xF1, 0xE6, 0x51, 0x76, 0xF1, 0x4E, 0x04,
   0x53, 0x08, 0xAC, 0xDC, 0x2E, 0x88, 0xC7, 0x9F, 0x1D, 0xDC, 0x89, 0xF3, 0xAB, 0x3B, 0x51, 0xC9]

/-- The modulus that the lower certificate certifies. -/
def lowerModulus : Bytes :=
  [0xCF, 0x44, 0x5C, 0x86, 0xFC, 0x3B, 0xBD, 0x7F, 0x8F, 0x6F, 0x4E, 0x90, 0x4B, 0x5B, 0xC7, 0x6A,
   0x87, 0x19, 0x09, 0x44, 0x21, 0x84, 0x3F, 0x12, 0xD1, 0x2B, 0xB9, 0x4D, 0x5C, 0x9D, 0xFC, 0x6C,
   0x6C, 0x27, 0x88, 0xC2, 0x30, 0x83, 0xA1, 0x44, 0x37, 0x39, 0x40, 0x40, 0x55, 0xB0, 0x13, 0x69,
   0x34, 0x76, 0xD7, 0xAE, 0xC3, 0x78, 0xF4, 0x4C, 0xD9, 0x3A, 0xD1, 0xB7, 0x1F, 0x40, 0x60, 0xEE,
   0x92, 0xC8, 0xC2, 0x57, 0xD2, 0x60, 0x42, 0xF8, 0x65, 0x05, 0x90, 0xC7, 0x82, 0xA0, 0xD8, 0x18,
   0x63, 0x86, 0x29, 0xD6, 0x64, 0xA5, 0x97, 0xDE, 0x24, 0xF8, 0x6C, 0x52, 0xE1, 0x28, 0x3D, 0xD8,
   0x7A, 0x5E, 0xAD, 0x4B, 0xC5, 0x71, 0x9D, 0x14, 0x6F, 0x8C, 0x0B, 0x77, 0xF2, 0x2F, 0x35, 0x97,
   0x8F, 0x8F, 0xEE, 0x4F, 0xE4, 0xEB, 0x78, 0x2F, 0x98, 0xDA, 0x06, 0x38, 0xCE, 0xBA, 0xA5, 0xDF,
   0xD0, 0x10, 0xA8, 0x15, 0xDF, 0xFF, 0xA8, 0xC7, 0x8E, 0x9C, 0x4E, 0xC8, 0x59, 0x45, 0xB8, 0x5B,
   0x30, 0x9D, 0xAC, 0xD7, 0x2F, 0x28, 0xF5, 0x28, 0x0A, 0xE5, 0xFF, 0xDE, 0xCC, 0xDF, 0xE1, 0xCB,
   0xC7, 0x68, 0x6A, 0xD9, 0x79, 0x53, 0xFD, 0xDE, 0x94, 0x60, 0xF0, 0xEB, 0x63, 0x6B, 0x9E, 0xCC,
   0xF0, 0x55, 0x12, 0x2C, 0xA7, 0x1E, 0x54, 0x89, 0x33, 0xA5, 0x5D, 0x79, 0x97, 0x59, 0xA2, 0xC7,
   0x26, 0x45, 0x7A, 0xDC, 0xE2, 0x02, 0x6F, 0x6B, 0xD3, 0x16, 0xE0, 0xF7, 0x30, 0x4D, 0x6E, 0x8A,
   0xD7, 0xA6, 0x56, 0xA6, 0x94, 0x51, 0xFC, 0x93, 0x06, 0xF0, 0x5E, 0x76, 0xBC, 0x6D, 0x33, 0x2A,
   0x68, 0x6F, 0xBC, 0xAA, 0xA8, 0xD6, 0x17, 0xCB, 0x12, 0xCD, 0xB9, 0xFC, 0x87, 0x02, 0x92, 0x95,
   0x42, 0x38, 0x7B, 0xC8, 0x7B, 0xCA, 0xFC, 0x4B, 0xB6, 0x25, 0xE5, 0xA2, 0xB3, 0xFE, 0x3C, 0xDD]

/-- The authority of a known key. What its private key makes of the upper certificate is known, and
nothing else. -/
def rootAuthority : Authority :=
  ⟨⟨.der, ⟨Ca.e65537, Ca.modulus6000020⟩, fun _ => upperSignature⟩, Ca.known[3].keyId⟩

/-- The authority below it, which issues the lower certificate. -/
def upperAuthority : Authority :=
  ⟨⟨.der, ⟨Ca.e65537, upperModulus⟩, fun _ => lowerSignature⟩,
    ⟨[0x31, 0x33, 0x32, 0x32, 0x31, 0x33, 0x30, 0x08, 0x05, 0x30, 0x30, 0x32, 0x00, 0x00, 0x00, 0x98],
      rfl⟩⟩

/-- The one the lower certificate is about, of which no signature is known. -/
def lowerAuthority : Authority :=
  ⟨⟨.der, ⟨Ca.e65537, lowerModulus⟩, fun _ => []⟩,
    ⟨[0x30, 0x30, 0x30, 0x30, 0x30, 0x35, 0x30, 0x08, 0x05, 0x30, 0x30, 0x31, 0x00, 0x00, 0x00, 0x40],
      rfl⟩⟩

/-- What comes before the body of either: a list of what is in it. -/
def headerList : List (ℕ × Bytes) :=
  [(0x4D, [0x42, 0x10, 0x5F, 0x20, 0x10, 0x5F, 0x49, 0x82, 0x01, 0x09])]

theorem headerList_beside : Beside headerList := by
  intro f hf
  rw [headerList, List.mem_singleton] at hf
  subst hf
  decide

theorem upper_certifies : Certifies rootAuthority upperAuthority :=
  ⟨⟨rfl, rfl⟩, ⟨rfl, rfl⟩, by decide +kernel⟩

theorem upper_signed : (issued .pkcs1 rootAuthority upperAuthority).verifyWith .pkcs1
    rootAuthority.publicKey = .ok () := by
  decide +kernel

theorem lower_certifies : Certifies upperAuthority lowerAuthority :=
  ⟨⟨rfl, rfl⟩, ⟨rfl, rfl⟩, by decide +kernel⟩

theorem lower_signed : (issued .pkcs1 upperAuthority lowerAuthority).verifyWith .pkcs1
    upperAuthority.publicKey = .ok () := by
  decide +kernel

theorem lower_form : Form .pkcs1 upperAuthority lowerAuthority
    (bare .pkcs1 upperAuthority lowerAuthority headerList []) :=
  .bare _ [] headerList_beside (by decide +kernel) startsFiller_nil (by decide +kernel)

/-- The upper certificate in a file, with filler and more behind it, and the lower one as GET DATA
gives it. -/
theorem issued_chain_verifies_two :
    ∃ certs cert,
      [file .pkcs1 rootAuthority upperAuthority headerList [0x00] ++ [0xFF],
        bare .pkcs1 upperAuthority lowerAuthority headerList []].mapM
          (CardVerifiableCertificate.parse .on) = .ok certs ∧
      verifyChain .pkcs1 certs = .ok () ∧ certs.getLast? = some cert ∧
      cert.subjectKeyId = lowerAuthority.keyId ∧ cert.publicKey = lowerAuthority.publicKey :=
  @issued_chain_verifies .pkcs1 _ [upperAuthority] lowerAuthority
    ⟨_, Ca.modulus6000020, Ca.e65537⟩ rfl rfl .on _
    (.cons upper_certifies upper_signed (.file _ [0x00] [0xFF] headerList_beside
      (by decide +kernel) startsFiller_zero) (.cons lower_certifies lower_signed lower_form (.nil _)))

end CardVerifiableCertificate

end MynaCard
