import MynaCard.Encodings
import MynaCard.FieldFiles
import MynaCard.SignedRecords

/-!
# Signed records written

The records of the two display applications as their issuer writes them: the fields, a signature over
the fields as written, and an outer object around both. An `Issuer` is a way to write lengths and a
key pair. **What an issuer signs is read back and verifies** under its public key, whatever filler is
in the file and whatever follows it (`issued_records_verify`).
-/

namespace MynaCard

open Ber SignedRecords

/-! ### Issuers -/

/-- How many bytes the modulus takes. -/
def RsaPublicKey.size (key : RsaPublicKey) : ℕ := Rsa.size (bigEndian key.modulus)

/-- How lengths are written, and a key pair: the public key, and what the private one makes of the
payload of a signature. -/
structure Issuer where
  writer : Writer
  publicKey : RsaPublicKey
  sign : Bytes → Bytes

namespace Issuer

/-- The two halves of the key pair belong together: what the private one makes of a payload verifies
under the public one, if a signature has room for the payload. It has room for the longest there is,
the one of a card face. -/
structure Signs (i : Issuer) (rsa : RsaCrate) : Prop where
  usable : rsa.usable i.publicKey = true
  verifies : ∀ payload, payload.length + 11 ≤ i.publicKey.size →
    rsa.pkcs1v15 i.publicKey payload (i.sign payload) = true
  room : 126 ≤ i.publicKey.size

variable (i : Issuer) (rsa : RsaCrate)

/-- The signature over a message. -/
def signature (message : Bytes) : Bytes := i.sign (sha256DigestInfo (rsa.sha256 message).1)

/-- Fields, and the signature over them. -/
def signedFields (sigTag : ℕ) (fields : List (ℕ × Bytes)) : List (ℕ × Bytes) :=
  fields ++ [(sigTag, i.signature rsa (i.writer.objects fields))]

variable {i rsa}

theorem sha256DigestInfo_length {digest : Bytes} (h : digest.length ≤ 110) :
    (sha256DigestInfo digest).length = digest.length + 19 := by
  have hinner : sha256Algorithm.length + 2 + digest.length < 0x80 := by
    rw [show sha256Algorithm.length = 15 from rfl]
    omega
  rw [sha256DigestInfo, if_pos hinner]
  simp only [List.length_append, List.length_cons, List.length_nil,
    show sha256Algorithm.length = 15 from rfl]
  omega

/-- There is room for three digests, and so for one. -/
theorem Signs.verifyPkcs1 (h : i.Signs rsa) {payload : Bytes} (hlength : payload.length ≤ 115) :
    i.publicKey.verifyPkcs1 rsa payload (i.sign payload) = .ok () := by
  have hroom := h.room
  rw [RsaPublicKey.verifyPkcs1, RsaPublicKey.verifyBy, h.usable, h.verifies _ (by omega)]
  rfl

theorem Signs.verifyPkcs1Sha256 (h : i.Signs rsa) (message : Bytes) :
    i.publicKey.verifyPkcs1Sha256 rsa message (i.signature rsa message) = .ok () := by
  refine h.verifyPkcs1 (le_of_eq_of_le (sha256DigestInfo_length ?_) ?_)
  · rw [(rsa.sha256 message).2]
    decide
  · rw [(rsa.sha256 message).2]
    decide

/-- The payload of a card face. -/
theorem three_digests_length (d₁ d₂ d₃ : Surface.Digest) :
    (sha256DigestInfo (d₁.1 ++ d₂.1 ++ d₃.1)).length = 115 := by
  have hdigests : (d₁.1 ++ d₂.1 ++ d₃.1).length = 96 := by
    rw [List.length_append, List.length_append, d₁.2, d₂.2, d₃.2]
  rw [sha256DigestInfo_length (by rw [hdigests]; decide), hdigests]

/-- A file of signed fields. -/
def signedFile (i : Issuer) (rsa : RsaCrate) (tag sigTag : ℕ) (fields : List (ℕ × Bytes))
    (filler : Bytes) : Bytes :=
  i.writer.file tag (i.signedFields rsa sigTag fields) filler

/-- **A file of signed fields is read** as the fields, the signature over them and the bytes that
were signed. -/
theorem parse_signedFile (i : Issuer) (rsa : RsaCrate) (oc : OverflowChecks) {tag sigTag : ℕ}
    {fields : List (ℕ × Bytes)} {filler : Bytes} (tags : List ℕ)
    (heq : fields.map Prod.fst = tags) (htags : (tags ++ [sigTag]).all isFieldTag = true)
    (hsigTag : sigTag ∉ tags) (htag : isTag tag = true)
    (hsize : (i.signedFile rsa tag sigTag fields filler).length < usizeSize)
    (hfiller : StartsFiller filler) (post : Bytes) :
    ∃ f, TlvFields.parse oc (i.signedFile rsa tag sigTag fields filler ++ post) tag none = .ok f ∧
      (∀ t v, (fields.find? fun f => f.1 = t) = some (t, v) →
        f.get t = .ok v ∧ v.length < usizeSize) ∧
      f.get sigTag = .ok (i.signature rsa (i.writer.objects fields)) ∧
      f.bytesBefore sigTag = .ok (i.writer.objects fields) := by
  have hwrites : i.writer.Writes tag (i.signedFields rsa sigTag fields) filler :=
    .of_tags _ (by rw [signedFields, List.map_append, heq]; rfl) htags htag hsize hfiller
  have hfields : ∀ f ∈ fields, f.1 ≠ sigTag := by
    intro f hf hsig
    rw [← hsig, ← heq] at hsigTag
    exact hsigTag (List.mem_map_of_mem hf)
  have hnone : (fields.find? fun f => f.1 = sigTag) = none :=
    List.find?_eq_none.mpr fun f hf => by simpa using hfields f hf
  refine ⟨_, hwrites.parse_file oc (by simp) post, ?_, ?_,
    Writer.bytesBefore_tlvFields hfields _ []⟩
  · intro t v hfind
    refine ⟨?_, hwrites.value_length_lt (List.mem_append_left _ (List.mem_of_find?_eq_some hfind))⟩
    rw [Writer.get_tlvFields, signedFields, List.find?_append, hfind]
    rfl
  · rw [Writer.get_tlvFields, signedFields, List.find?_append, hnone, Option.none_or,
      List.find?_cons_of_pos (by simp)]
    rfl

end Issuer

variable (i : Issuer) (rsa : RsaCrate)

/-! ### The records of the surface application -/

namespace Surface

def AgeRecord.fields (w : Writer) (birthDate : Date) (publicKey : RsaPublicKey) :
    List (ℕ × Bytes) :=
  [(0xDF11, birthDate.digits), (0xDF12, publicKey.write w)]

/-- An age record issued. -/
def AgeRecord.issued (birthDate : Date) (publicKey : RsaPublicKey) : AgeRecord :=
  let signed := i.writer.objects (fields i.writer birthDate publicKey)
  ⟨birthDate, publicKey, i.signature rsa signed, signed⟩

/-- Its file. -/
def AgeRecord.file (birthDate : Date) (publicKey : RsaPublicKey) (filler : Bytes) : Bytes :=
  i.signedFile rsa 0xFF10 0xDF13 (fields i.writer birthDate publicKey) filler

def MyNumberImage.fields (w : Writer) (image : Bytes) (publicKey : RsaPublicKey) :
    List (ℕ × Bytes) :=
  [(0xDF41, image), (0xDF42, publicKey.write w)]

/-- A rendered individual number issued. -/
def MyNumberImage.issued (image : Bytes) (publicKey : RsaPublicKey) : MyNumberImage :=
  let signed := i.writer.objects (fields i.writer image publicKey)
  ⟨.new image, publicKey, i.signature rsa signed, signed⟩

/-- Its file. -/
def MyNumberImage.file (image : Bytes) (publicKey : RsaPublicKey) (filler : Bytes) : Bytes :=
  i.signedFile rsa 0xFF40 0xDF43 (fields i.writer image publicKey) filler

variable {i rsa}

theorem AgeRecord.parse_file (oc : OverflowChecks) {birthDate : Date} {publicKey : RsaPublicKey}
    {filler : Bytes} (hdate : birthDate.Statable) (hfiller : StartsFiller filler)
    (hsize : (file i rsa birthDate publicKey filler).length < usizeSize) (post : Bytes) :
    AgeRecord.parse oc (file i rsa birthDate publicKey filler ++ post) =
      .ok (issued i rsa birthDate publicKey) := by
  obtain ⟨f, hf, hfind, hsignature, hsigned⟩ := i.parse_signedFile rsa oc [0xDF11, 0xDF12] rfl
    (by decide) (by decide) (by decide) hsize hfiller post
  obtain ⟨hbirth, -⟩ := hfind 0xDF11 birthDate.digits rfl
  obtain ⟨hkey, hkeySize⟩ := hfind 0xDF12 (publicKey.write i.writer) rfl
  exact ageRecord_parse_eq_ok.mpr ⟨f, _, _, hf, hbirth, Date.parse_digits hdate, hkey,
    RsaPublicKey.parse_write oc i.writer hkeySize, hsignature, hsigned⟩

theorem MyNumberImage.parse_file (oc : OverflowChecks) {image : Bytes} {publicKey : RsaPublicKey}
    {filler : Bytes} (hfiller : StartsFiller filler)
    (hsize : (file i rsa image publicKey filler).length < usizeSize) (post : Bytes) :
    MyNumberImage.parse oc (file i rsa image publicKey filler ++ post) =
      .ok (issued i rsa image publicKey) := by
  obtain ⟨f, hf, hfind, hsignature, hsigned⟩ := i.parse_signedFile rsa oc [0xDF41, 0xDF42] rfl
    (by decide) (by decide) (by decide) hsize hfiller post
  obtain ⟨himage, -⟩ := hfind 0xDF41 image rfl
  obtain ⟨hkey, hkeySize⟩ := hfind 0xDF42 (publicKey.write i.writer) rfl
  exact myNumberImage_parse_eq_ok.mpr ⟨f, _, _, hf, himage, rfl, hkey,
    RsaPublicKey.parse_write oc i.writer hkeySize, hsignature, hsigned⟩

/-! ### The card face -/

/-- What a card face shows, as it is put in its file: the sex as the one digit of it, and the images
as their bytes. -/
structure CardFace.Contents where
  birthDate : Date
  sex : UInt8
  publicKey : RsaPublicKey
  nameImage : Bytes
  addressImage : Bytes
  photo : Bytes
  expiry : Date
  securityCodeImage : Bytes

namespace CardFace.Contents

variable (i rsa)

/-- The three groups that are signed, each by its digest. -/
def groups (w : Writer) (c : Contents) :
    List (ℕ × Bytes) × List (ℕ × Bytes) × List (ℕ × Bytes) :=
  ([(0xDF22, c.birthDate.digits), (0xDF23, [c.sex]), (0xDF24, c.publicKey.write w)],
    [(0xDF25, c.nameImage), (0xDF26, c.addressImage)], [(0xDF27, c.photo)])

/-- The payload of the signature. -/
def payload (w : Writer) (sha256 : Bytes → Digest) (c : Contents) : Bytes :=
  sha256DigestInfo ((sha256 (w.objects (c.groups w).1)).1 ++
    (sha256 (w.objects (c.groups w).2.1)).1 ++ (sha256 (w.objects (c.groups w).2.2)).1)

/-- The groups, the signature, and what it does not cover. -/
def fields (c : Contents) : List (ℕ × Bytes) :=
  (c.groups i.writer).1 ++ (c.groups i.writer).2.1 ++ (c.groups i.writer).2.2 ++
    [(0xDF28, i.sign (c.payload i.writer rsa.sha256)), (0xDF29, c.expiry.digits),
      (0xDF2A, c.securityCodeImage)]

theorem groups_subset (c : Contents) :
    (c.groups i.writer).1 ⊆ c.fields i rsa ∧ (c.groups i.writer).2.1 ⊆ c.fields i rsa ∧
      (c.groups i.writer).2.2 ⊆ c.fields i rsa := by
  refine ⟨?_, ?_, ?_⟩
  · intro f hf
    simp [fields, hf]
  · intro f hf
    simp [fields, hf]
  · intro f hf
    simp [fields, hf]

end CardFace.Contents

variable (i rsa) in
/-- A card face issued. -/
def CardFace.issued (c : CardFace.Contents) : CardFace :=
  let groups := c.groups i.writer
  ⟨c.birthDate, .fromByte c.sex, c.publicKey, .new c.nameImage, .new c.addressImage, .new c.photo,
    i.sign (c.payload i.writer rsa.sha256), c.expiry, .new c.securityCodeImage,
    i.writer.objects groups.1, i.writer.objects groups.2.1, i.writer.objects groups.2.2⟩

variable (i rsa) in
/-- Its file, with the table of where the fields are in it. -/
def CardFace.file (c : CardFace.Contents) (filler : Bytes) : Bytes :=
  i.writer.file 0xFF20 (i.writer.indexed 0xFF20 0xDF21 (c.fields i rsa) filler) filler

theorem CardFace.parse_file (oc : OverflowChecks) {c : CardFace.Contents} {filler : Bytes}
    (hbirth : c.birthDate.Statable) (hexpiry : c.expiry.Statable) (hfiller : StartsFiller filler)
    (hsize : (file i rsa c filler).length < usizeSize)
    (hstarts : ∀ start ∈ i.writer.positions 0xFF20 0xDF21 (c.fields i rsa) filler, start < 65536)
    (post : Bytes) : CardFace.parse oc (file i rsa c filler ++ post) = .ok (issued i rsa c) := by
  have hwrites : i.writer.Writes 0xFF20
      (i.writer.indexed 0xFF20 0xDF21 (c.fields i rsa) filler) filler :=
    .of_tags [0xDF21, 0xDF22, 0xDF23, 0xDF24, 0xDF25, 0xDF26, 0xDF27, 0xDF28, 0xDF29, 0xDF2A] rfl
      (by decide) (by decide) hsize hfiller
  have hnodup : ((c.fields i rsa).map Prod.fst).Nodup := by
    show [0xDF22, 0xDF23, 0xDF24, 0xDF25, 0xDF26, 0xDF27, 0xDF28, 0xDF29, 0xDF2A].Nodup
    decide
  have hfields : ∀ f ∈ c.fields i rsa, f.1 ≠ 0xDF21 := by
    simp [Contents.fields, Contents.groups]
  obtain ⟨hdata, himages, hphoto⟩ := c.groups_subset i rsa
  have hkey : (0xDF24, c.publicKey.write i.writer) ∈ c.fields i rsa :=
    hdata (List.mem_cons_of_mem _ (List.mem_cons_of_mem _ List.mem_cons_self))
  have hkeySize := hwrites.value_length_lt (List.mem_cons_of_mem _ hkey)
  have hget : ∀ tag, (i.writer.tlvFields (c.fields i rsa)).get tag = _ :=
    fun tag => Writer.get_tlvFields tag _
  unfold CardFace.parse
  refine Run.bind_eq_ok.mpr ⟨_, hwrites.parse_indexed hfields hstarts oc post, ?_⟩
  refine Run.bind_eq_ok.mpr ⟨_, hget 0xDF22, ?_⟩
  refine Run.bind_eq_ok.mpr ⟨_, Date.parse_digits hbirth, ?_⟩
  refine Run.bind_eq_ok.mpr ⟨_, hget 0xDF23, ?_⟩
  refine Run.bind_eq_ok.mpr ⟨c.sex, rfl, ?_⟩
  refine Run.bind_eq_ok.mpr ⟨_, hget 0xDF24, ?_⟩
  refine Run.bind_eq_ok.mpr ⟨_, RsaPublicKey.parse_write oc i.writer hkeySize, ?_⟩
  refine Run.bind_eq_ok.mpr ⟨_, hget 0xDF25, ?_⟩
  refine Run.bind_eq_ok.mpr ⟨_, hget 0xDF26, ?_⟩
  refine Run.bind_eq_ok.mpr ⟨_, hget 0xDF27, ?_⟩
  refine Run.bind_eq_ok.mpr ⟨_, hget 0xDF28, ?_⟩
  refine Run.bind_eq_ok.mpr ⟨_, hget 0xDF29, ?_⟩
  refine Run.bind_eq_ok.mpr ⟨_, Date.parse_digits hexpiry, ?_⟩
  refine Run.bind_eq_ok.mpr ⟨_, hget 0xDF2A, ?_⟩
  refine Run.bind_eq_ok.mpr ⟨_, Writer.bytesOf_tlvFields hnodup _ hdata, ?_⟩
  refine Run.bind_eq_ok.mpr ⟨_, Writer.bytesOf_tlvFields hnodup _ himages, ?_⟩
  exact Run.bind_eq_ok.mpr ⟨_, Writer.bytesOf_tlvFields hnodup _ hphoto, rfl⟩

end Surface

/-! ### The records of the text application -/

namespace Text

/-- The digests of the two files a record vouches for. -/
def IntegrityRecord.fields (myNumberFile attributesSource : Bytes) : List (ℕ × Bytes) :=
  [(0xDF31, (rsa.sha256 myNumberFile).1), (0xDF32, (rsa.sha256 attributesSource).1)]

/-- An integrity record issued. -/
def IntegrityRecord.issued (myNumberFile attributesSource : Bytes) : IntegrityRecord :=
  let signed := i.writer.objects (fields rsa myNumberFile attributesSource)
  ⟨rsa.sha256 myNumberFile, rsa.sha256 attributesSource, i.signature rsa signed, signed⟩

/-- Its file. -/
def IntegrityRecord.file (myNumberFile attributesSource filler : Bytes) : Bytes :=
  i.signedFile rsa 0xFF30 0xDF33 (fields rsa myNumberFile attributesSource) filler

def SignedPublicKey.fields (w : Writer) (publicKey : RsaPublicKey) : List (ℕ × Bytes) :=
  [(0xDF51, publicKey.write w)]

/-- A signed public key issued. -/
def SignedPublicKey.issued (publicKey : RsaPublicKey) : SignedPublicKey :=
  let signed := i.writer.objects (fields i.writer publicKey)
  ⟨publicKey, i.signature rsa signed, signed⟩

/-- Its file. -/
def SignedPublicKey.file (publicKey : RsaPublicKey) (filler : Bytes) : Bytes :=
  i.signedFile rsa 0xFF50 0xDF52 (fields i.writer publicKey) filler

variable {i rsa}

theorem IntegrityRecord.parse_file (oc : OverflowChecks)
    {myNumberFile attributesSource filler : Bytes} (hfiller : StartsFiller filler)
    (hsize : (file i rsa myNumberFile attributesSource filler).length < usizeSize) (post : Bytes) :
    IntegrityRecord.parse oc (file i rsa myNumberFile attributesSource filler ++ post) =
      .ok (issued i rsa myNumberFile attributesSource) := by
  obtain ⟨f, hf, hfind, hsignature, hsigned⟩ := i.parse_signedFile rsa oc [0xDF31, 0xDF32] rfl
    (by decide) (by decide) (by decide) hsize hfiller post
  obtain ⟨hnumber, -⟩ := hfind 0xDF31 _ rfl
  obtain ⟨hattributes, -⟩ := hfind 0xDF32 _ rfl
  exact integrityRecord_parse_eq_ok.mpr ⟨f, hf, hnumber, hattributes, hsignature, hsigned⟩

theorem SignedPublicKey.parse_file (oc : OverflowChecks) {publicKey : RsaPublicKey}
    {filler : Bytes} (hfiller : StartsFiller filler)
    (hsize : (file i rsa publicKey filler).length < usizeSize) (post : Bytes) :
    SignedPublicKey.parse oc (file i rsa publicKey filler ++ post) =
      .ok (issued i rsa publicKey) := by
  obtain ⟨f, hf, hfind, hsignature, hsigned⟩ := i.parse_signedFile rsa oc [0xDF51] rfl
    (by decide) (by decide) (by decide) hsize hfiller post
  obtain ⟨hkey, hkeySize⟩ := hfind 0xDF51 _ rfl
  exact signedPublicKey_parse_eq_ok.mpr ⟨f, _, hf, hkey,
    RsaPublicKey.parse_write oc i.writer hkeySize, hsignature, hsigned⟩

end Text

/-! ### All of them -/

open Surface Text

/-- **What an issuer signs is read back and verifies.** For each of the five signed records, whatever
its fields are, however lengths are written, whatever filler is in the file and whatever follows it:
the parser gives the record that was issued, and its signature verifies under the issuer's key. -/
theorem issued_records_verify {i : Issuer} {rsa : RsaCrate} (hi : i.Signs rsa)
    (oc : OverflowChecks) {filler : Bytes} (hfiller : StartsFiller filler) (post : Bytes) :
    (∀ birthDate publicKey, birthDate.Statable →
      (AgeRecord.file i rsa birthDate publicKey filler).length < usizeSize →
      AgeRecord.parse oc (AgeRecord.file i rsa birthDate publicKey filler ++ post) =
          .ok (.issued i rsa birthDate publicKey) ∧
        (AgeRecord.issued i rsa birthDate publicKey).verify rsa i.publicKey = .ok ()) ∧
    (∀ image publicKey, (MyNumberImage.file i rsa image publicKey filler).length < usizeSize →
      MyNumberImage.parse oc (MyNumberImage.file i rsa image publicKey filler ++ post) =
          .ok (.issued i rsa image publicKey) ∧
        (MyNumberImage.issued i rsa image publicKey).verify rsa i.publicKey = .ok ()) ∧
    (∀ c : CardFace.Contents, c.birthDate.Statable → c.expiry.Statable →
      (CardFace.file i rsa c filler).length < usizeSize →
      (∀ start ∈ i.writer.positions 0xFF20 0xDF21 (c.fields i rsa) filler, start < 65536) →
      CardFace.parse oc (CardFace.file i rsa c filler ++ post) = .ok (.issued i rsa c) ∧
        (CardFace.issued i rsa c).verify rsa i.publicKey = .ok ()) ∧
    (∀ myNumberFile attributesSource,
      (IntegrityRecord.file i rsa myNumberFile attributesSource filler).length < usizeSize →
      IntegrityRecord.parse oc
            (IntegrityRecord.file i rsa myNumberFile attributesSource filler ++ post) =
          .ok (.issued i rsa myNumberFile attributesSource) ∧
        (IntegrityRecord.issued i rsa myNumberFile attributesSource).verify rsa i.publicKey =
          .ok ()) ∧
    ∀ publicKey, (SignedPublicKey.file i rsa publicKey filler).length < usizeSize →
      SignedPublicKey.parse oc (SignedPublicKey.file i rsa publicKey filler ++ post) =
          .ok (.issued i rsa publicKey) ∧
        (SignedPublicKey.issued i rsa publicKey).verify rsa i.publicKey = .ok () := by
  refine ⟨?_, ?_, ?_, ?_, ?_⟩
  · intro birthDate publicKey hdate hsize
    exact ⟨AgeRecord.parse_file oc hdate hfiller hsize post, hi.verifyPkcs1Sha256 _⟩
  · intro image publicKey hsize
    exact ⟨MyNumberImage.parse_file oc hfiller hsize post, hi.verifyPkcs1Sha256 _⟩
  · intro c hbirth hexpiry hsize hstarts
    exact ⟨CardFace.parse_file oc hbirth hexpiry hfiller hsize hstarts post,
      hi.verifyPkcs1 (Issuer.three_digests_length _ _ _).le⟩
  · intro myNumberFile attributesSource hsize
    exact ⟨IntegrityRecord.parse_file oc hfiller hsize post, hi.verifyPkcs1Sha256 _⟩
  · intro publicKey hsize
    exact ⟨SignedPublicKey.parse_file oc hfiller hsize post, hi.verifyPkcs1Sha256 _⟩

/-! ### A key pair -/

/-- A pair of 2048 bits, its primes one more than powers of two and three. -/
@[irreducible] def syntheticPair : Rsa.KeyPair where
  p := 2 ^ 207 * 3 ^ 515 + 1
  q := 2 ^ 853 * 3 ^ 108 + 1
  e := 65537
  d := (1 + 2 ^ 207 * 3 ^ 515 * (2 ^ 853 * 3 ^ 108) * 27898) / 65537
  prime_p := Rsa.prime_of_generator rfl (by decide +kernel) 5 (by decide +kernel)
    (by decide +kernel) (by decide +kernel)
  prime_q := Rsa.prime_of_generator rfl (by decide +kernel) 5 (by decide +kernel)
    (by decide +kernel) (by decide +kernel)
  ne := by decide +kernel
  inverse := ⟨27898, by decide +kernel⟩

def syntheticModulus : Bytes :=
  [0xAC, 0xA4, 0x4C, 0x98, 0x1D, 0xB7, 0xD5, 0xDC, 0x92, 0xF2, 0x3A, 0x17, 0x52, 0x9F, 0xB1, 0x03,
   0xD4, 0xFC, 0x90, 0x67, 0x34, 0xB6, 0x28, 0x5F, 0x31, 0xE7, 0x57, 0x86, 0x4F, 0x5A, 0xE1, 0xC2,
   0x63, 0x83, 0xC1, 0x70, 0x08, 0x1D, 0x00, 0x1E, 0x67, 0xAE, 0xB9, 0x89, 0xA1, 0x70, 0xC2, 0xDB,
   0xE0, 0x42, 0xB8, 0x28, 0x77, 0x44, 0x18, 0xE6, 0x42, 0x01, 0x4D, 0xA5, 0x87, 0x4F, 0x48, 0x02,
   0x82, 0x0C, 0xE5, 0x07, 0x1A, 0x6E, 0x89, 0x0C, 0xE8, 0x79, 0x57, 0x7D, 0x32, 0x1F, 0xAC, 0x34,
   0x33, 0x38, 0x9F, 0x43, 0x57, 0x07, 0xBF, 0xB9, 0x23, 0x96, 0xF9, 0xD1, 0x1A, 0xE9, 0xDC, 0x03,
   0xDB, 0x28, 0xDB, 0x78, 0xDF, 0x9F, 0xF0, 0xDE, 0xEB, 0x4C, 0x57, 0x90, 0x8F, 0x8B, 0x90, 0x53,
   0x70, 0x01, 0xE7, 0x8D, 0x9A, 0x60, 0xAD, 0xE8, 0xC0, 0x88, 0x8E, 0xB0, 0x00, 0x00, 0x00, 0x01,
   0xBA, 0x06, 0x6D, 0x03, 0x7F, 0x8D, 0x0C, 0x66, 0xC7, 0xC0, 0x94, 0xBB, 0xB4, 0xA4, 0x59, 0x12,
   0xE9, 0xE6, 0x4F, 0x58, 0xD3, 0xA7, 0x46, 0x07, 0x46, 0xD4, 0x6B, 0xBE, 0x32, 0xB3, 0x7B, 0xDD,
   0x35, 0x4B, 0xE3, 0xC9, 0x1D, 0x2E, 0xA2, 0x63, 0x15, 0x02, 0x9C, 0x45, 0xE2, 0x17, 0x2E, 0xB4,
   0xCE, 0x43, 0xF4, 0x22, 0xDC, 0x6C, 0xE0, 0xE9, 0x01, 0x07, 0x2A, 0x81, 0x2E, 0xDD, 0x2C, 0x12,
   0xBE, 0x81, 0x7C, 0x5C, 0x94, 0x23, 0xD4, 0xEE, 0xB9, 0xD4, 0x79, 0xBD, 0xA9, 0x63, 0x55, 0x77,
   0xE3, 0x86, 0x90, 0x8C, 0xEE, 0x7D, 0xBF, 0x6E, 0x1B, 0xF0, 0x08, 0xD8, 0x3A, 0x23, 0x8C, 0xE1,
   0xB0, 0x79, 0x45, 0xC1, 0xBC, 0x0D, 0x80, 0x00, 0x00, 0x00, 0x00, 0x00, 0x00, 0x00, 0x00, 0x00,
   0x00, 0x00, 0x00, 0x00, 0x00, 0x00, 0x00, 0x00, 0x00, 0x00, 0x00, 0x00, 0x00, 0x00, 0x00, 0x01]

/-- The public half of the pair. -/
@[irreducible] def syntheticKey : RsaPublicKey := ⟨[0x01, 0x00, 0x01], syntheticModulus⟩

/-- An issuer with that pair, who writes lengths short. -/
def syntheticIssuer : Issuer := ⟨.der, syntheticKey, syntheticPair.sign⟩

theorem syntheticKey_exponent : bigEndian syntheticKey.exponent = syntheticPair.e := by
  decide +kernel

theorem syntheticKey_modulus : bigEndian syntheticKey.modulus = syntheticPair.modulus := by
  decide +kernel

theorem syntheticIssuer_signs : syntheticIssuer.Signs .pkcs1 where
  usable := by decide +kernel
  verifies payload hroom := by
    rw [syntheticIssuer] at hroom ⊢
    rw [RsaPublicKey.size, syntheticKey_modulus] at hroom
    rw [RsaCrate.pkcs1_pkcs1v15, syntheticKey_modulus, syntheticKey_exponent]
    exact syntheticPair.verify_sign hroom
  room := by decide +kernel

theorem startsFiller_zero : StartsFiller [0x00] := by
  intro b hb
  rw [← Option.some.inj hb]
  rfl

/-- A card face with small images. -/
def smallFace : CardFace.Contents :=
  ⟨⟨1980, 2, 17⟩, 0x31, syntheticKey, [0xA0], [0xB0, 0xB1], [0xC0], ⟨2030, 2, 17⟩, []⟩

/-- The five of them with filler, and with more behind them. -/
theorem issued_records_verify_small :
    (AgeRecord.parse .on
          (AgeRecord.file syntheticIssuer .pkcs1 ⟨1980, 2, 17⟩ syntheticKey [0x00] ++ [0xFF, 0xFF]) =
        .ok (.issued syntheticIssuer .pkcs1 ⟨1980, 2, 17⟩ syntheticKey) ∧
      (AgeRecord.issued syntheticIssuer .pkcs1 ⟨1980, 2, 17⟩ syntheticKey).verify .pkcs1
        syntheticKey = .ok ()) ∧
    (MyNumberImage.parse .on
          (MyNumberImage.file syntheticIssuer .pkcs1 [0xA0] syntheticKey [0x00] ++ [0xFF, 0xFF]) =
        .ok (.issued syntheticIssuer .pkcs1 [0xA0] syntheticKey) ∧
      (MyNumberImage.issued syntheticIssuer .pkcs1 [0xA0] syntheticKey).verify .pkcs1
        syntheticKey = .ok ()) ∧
    (CardFace.parse .on (CardFace.file syntheticIssuer .pkcs1 smallFace [0x00] ++ [0xFF, 0xFF]) =
        .ok (.issued syntheticIssuer .pkcs1 smallFace) ∧
      (CardFace.issued syntheticIssuer .pkcs1 smallFace).verify .pkcs1 syntheticKey = .ok ()) ∧
    (IntegrityRecord.parse .on
          (IntegrityRecord.file syntheticIssuer .pkcs1 [0x31] [0xA0] [0x00] ++ [0xFF, 0xFF]) =
        .ok (.issued syntheticIssuer .pkcs1 [0x31] [0xA0]) ∧
      (IntegrityRecord.issued syntheticIssuer .pkcs1 [0x31] [0xA0]).verify .pkcs1 syntheticKey =
        .ok ()) ∧
    SignedPublicKey.parse .on
          (SignedPublicKey.file syntheticIssuer .pkcs1 syntheticKey [0x00] ++ [0xFF, 0xFF]) =
        .ok (.issued syntheticIssuer .pkcs1 syntheticKey) ∧
      (SignedPublicKey.issued syntheticIssuer .pkcs1 syntheticKey).verify .pkcs1 syntheticKey =
        .ok () := by
  obtain ⟨hage, himage, hface, hintegrity, hkey⟩ :=
    issued_records_verify syntheticIssuer_signs .on startsFiller_zero [0xFF, 0xFF]
  have hstatable : (⟨1980, 2, 17⟩ : Date).Statable := ⟨by decide, by decide, by decide⟩
  exact ⟨hage _ _ hstatable (by decide +kernel), himage _ _ (by decide +kernel),
    hface smallFace hstatable ⟨by decide, by decide, by decide⟩ (by decide +kernel)
      (by decide +kernel),
    hintegrity _ _ (by decide +kernel), hkey _ (by decide +kernel)⟩

end MynaCard
