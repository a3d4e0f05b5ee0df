import MynaCard.Ap.Surface

/-!
# What the card face's signature covers

The card face record is signed over three groups of fields, each hashed by itself. Unlike the other
records it names the objects it signs: a segment is the first object with each of its tags, in a
fixed order, and a field is decoded from the first object with its tag. So the object shown is
always the object signed, wherever in the file it stands.

From a payload back to the fields there are four steps, one lemma each: the `DigestInfo` gives the
three digests, a digest gives its segment if no two segments collide, a segment gives its objects,
and an object gives its field.
-/

namespace MynaCard.SignedCardFace

open Ber TlvFields Surface

/-- `bytesOf` is the concatenation of the first object with each of the tags. -/
theorem bytesOf_eq_concat {f : TlvFields} {objs : List Obj} (hitems : f.items = objs.map Field.ofObj)
    {tags : List ℕ} {b : Bytes} (h : f.bytesOf tags = .ok b) :
    ∃ os, b = concat os ∧
      List.Forall₂ (fun t o => objs.find? (fun o => o.tag = t) = some o) tags os := by
  induction tags generalizing b with
  | nil =>
    obtain rfl : [] = b := Except.ok.inj h
    exact ⟨[], rfl, .nil⟩
  | cons tag tags ih =>
    obtain ⟨o, rest, ho, hrest, rfl⟩ := (bytesOf_cons_eq_ok_iff hitems).mp h
    obtain ⟨os, rfl, hos⟩ := ih hrest
    exact ⟨o :: os, rfl, .cons ho hos⟩

/-- A segment determines the values of the fields in it. -/
theorem get_eq_of_bytesOf_eq {f f' : TlvFields} {objs objs' : List Obj}
    (hitems : f.items = objs.map Field.ofObj) (hitems' : f'.items = objs'.map Field.ofObj)
    {tags : List ℕ} {b : Bytes} (h : f.bytesOf tags = .ok b) (h' : f'.bytesOf tags = .ok b)
    {t : ℕ} (ht : t ∈ tags) : f'.get t = f.get t := by
  obtain ⟨os, rfl, hos⟩ := bytesOf_eq_concat hitems h
  obtain ⟨os', hb, hos'⟩ := bytesOf_eq_concat hitems' h'
  obtain rfl := concat_injective hb
  obtain ⟨i, hi, rfl⟩ := List.getElem_of_mem ht
  have hlen := hos.length_eq
  have ho := hos.get hi (hlen ▸ hi)
  have ho' := hos'.get hi (hlen ▸ hi)
  simp only [List.get_eq_getElem] at ho ho'
  rw [(get_eq_ok_iff hitems').mpr ⟨_, ho', rfl⟩, (get_eq_ok_iff hitems).mpr ⟨_, ho, rfl⟩]

/-- What `CardFace::parse` reads, as far as the signed fields go. -/
theorem cardFace_parse_eq_ok {oc : OverflowChecks} {raw : Bytes} {c : CardFace}
    (h : CardFace.parse oc raw = .ok c) :
    ∃ (f : TlvFields) (objs : List Obj), f.items = objs.map Field.ofObj ∧
      (∃ v, f.get 0xDF22 = .ok v ∧ Date.parse v = .ok c.birthDate) ∧
      (∃ v b, f.get 0xDF23 = .ok v ∧ v.head? = some b ∧ c.sex = .fromByte b) ∧
      (∃ v, f.get 0xDF24 = .ok v ∧ RsaPublicKey.parse oc v = .ok c.publicKey) ∧
      (∃ v, f.get 0xDF25 = .ok v ∧ c.nameImage = .new v) ∧
      (∃ v, f.get 0xDF26 = .ok v ∧ c.addressImage = .new v) ∧
      (∃ v, f.get 0xDF27 = .ok v ∧ c.photo = .new v) ∧
      f.bytesOf [0xDF22, 0xDF23, 0xDF24] = .ok c.signedSegments.1 ∧
      f.bytesOf [0xDF25, 0xDF26] = .ok c.signedSegments.2.1 ∧
      f.bytesOf [0xDF27] = .ok c.signedSegments.2.2 := by
  unfold CardFace.parse at h
  simp only [Run.bind_eq_ok, orMalformed_eq_ok, pure, Except.pure, Except.ok.injEq] at h
  obtain ⟨f, hf, v22, h22, date, hdate, v23, h23, sex, hsex, v24, h24, key, hkey, v25, h25, v26,
    h26, v27, h27, sig, hsig, v29, h29, expiry, hexpiry, v2a, h2a, s1, hs1, s2, hs2, s3, hs3,
    rfl⟩ := h
  obtain ⟨objs, -, hitems⟩ := exists_decomposed hf
  exact ⟨f, _, hitems, ⟨v22, h22, hdate⟩, ⟨v23, sex, h23, hsex, rfl⟩, ⟨v24, h24, hkey⟩,
    ⟨v25, h25, rfl⟩, ⟨v26, h26, rfl⟩, ⟨v27, h27, rfl⟩, hs1, hs2, hs3⟩

/-- The segments of a card face. -/
def segments (c : CardFace) : Set Bytes :=
  {c.signedSegments.1, c.signedSegments.2.1, c.signedSegments.2.2}

theorem digest_length (d : Digest) : d.1.length = 32 := d.2

/-- The payload gives the segments, if no two of the segments collide. -/
theorem segments_eq_of_payload_eq {sha256 : Bytes → Digest} {c c' : CardFace}
    (hinj : Set.InjOn sha256 (segments c ∪ segments c'))
    (h : c.payload sha256 = c'.payload sha256) : c.signedSegments = c'.signedSegments := by
  have hcat := sha256DigestInfo_inj (by simp only [List.length_append, digest_length]) h
  rw [List.append_assoc, List.append_assoc] at hcat
  obtain ⟨h1, hcat⟩ := List.append_inj hcat (by rw [digest_length, digest_length])
  obtain ⟨h2, h3⟩ := List.append_inj hcat (by rw [digest_length, digest_length])
  have e1 := hinj (by simp [segments]) (by simp [segments]) (Subtype.ext h1)
  have e2 := hinj (by simp [segments]) (by simp [segments]) (Subtype.ext h2)
  have e3 := hinj (by simp [segments]) (by simp [segments]) (Subtype.ext h3)
  exact Prod.ext e1 (Prod.ext e2 e3)

/-- **The card face shown is the card face signed.** Two accepted files whose signatures are
checked over the same payload show the same fields, but for the two that come after the signature,
in whatever order and number their objects stand. -/
theorem cardFace_eq_of_payload_eq (sha256 : Bytes → Digest) (oc : OverflowChecks)
    {raw raw' : Bytes} {c c' : CardFace} (h : CardFace.parse oc raw = .ok c)
    (h' : CardFace.parse oc raw' = .ok c')
    (hinj : Set.InjOn sha256 (segments c ∪ segments c'))
    (hpayload : c.payload sha256 = c'.payload sha256) :
    c.birthDate = c'.birthDate ∧ c.sex = c'.sex ∧ c.publicKey = c'.publicKey ∧
      c.nameImage = c'.nameImage ∧ c.addressImage = c'.addressImage ∧ c.photo = c'.photo := by
  have hseg := segments_eq_of_payload_eq hinj hpayload
  obtain ⟨f, objs, hitems, ⟨v22, h22, hdate⟩, ⟨v23, b, h23, hb, hsex⟩, ⟨v24, h24, hkey⟩,
    ⟨v25, h25, hname⟩, ⟨v26, h26, haddress⟩, ⟨v27, h27, hphoto⟩, hs1, hs2, hs3⟩ :=
      cardFace_parse_eq_ok h
  obtain ⟨f', objs', hitems', ⟨v22', h22', hdate'⟩, ⟨v23', b', h23', hb', hsex'⟩,
    ⟨v24', h24', hkey'⟩, ⟨v25', h25', hname'⟩, ⟨v26', h26', haddress'⟩, ⟨v27', h27', hphoto'⟩,
    hs1', hs2', hs3'⟩ := cardFace_parse_eq_ok h'
  rw [← hseg] at hs1' hs2' hs3'
  have g1 : ∀ t ∈ [0xDF22, 0xDF23, 0xDF24], f'.get t = f.get t :=
    fun t ht => get_eq_of_bytesOf_eq hitems hitems' hs1 hs1' ht
  have g2 : ∀ t ∈ [0xDF25, 0xDF26], f'.get t = f.get t :=
    fun t ht => get_eq_of_bytesOf_eq hitems hitems' hs2 hs2' ht
  have g3 : f'.get 0xDF27 = f.get 0xDF27 :=
    get_eq_of_bytesOf_eq hitems hitems' hs3 hs3' (by simp)
  obtain rfl : v22' = v22 := Except.ok.inj (h22'.symm.trans ((g1 _ (by simp)).trans h22))
  obtain rfl : v23' = v23 := Except.ok.inj (h23'.symm.trans ((g1 _ (by simp)).trans h23))
  obtain rfl : v24' = v24 := Except.ok.inj (h24'.symm.trans ((g1 _ (by simp)).trans h24))
  obtain rfl : v25' = v25 := Except.ok.inj (h25'.symm.trans ((g2 _ (by simp)).trans h25))
  obtain rfl : v26' = v26 := Except.ok.inj (h26'.symm.trans ((g2 _ (by simp)).trans h26))
  obtain rfl : v27' = v27 := Except.ok.inj (h27'.symm.trans (g3.trans h27))
  obtain rfl : b' = b := Option.some.inj (hb'.symm.trans hb)
  exact ⟨Except.ok.inj (hdate.symm.trans hdate'), hsex.trans hsex'.symm,
    Except.ok.inj (hkey.symm.trans hkey'), hname.trans hname'.symm, haddress.trans haddress'.symm,
    hphoto.trans hphoto'.symm⟩

/-! ### Two files with one payload -/

/-- A card face without an offset table. -/
def face : Bytes :=
  [0xFF, 0x20, 0x35, 0xDF, 0x22, 0x08, 0x31, 0x39, 0x38, 0x30, 0x30, 0x32, 0x31, 0x37, 0xDF, 0x23,
    0x01, 0x31, 0xDF, 0x24, 0x04, 0x90, 0x00, 0x91, 0x00, 0xDF, 0x25, 0x01, 0xAA, 0xDF, 0x26, 0x01,
    0xBB, 0xDF, 0x27, 0x01, 0xCC, 0xDF, 0x28, 0x01, 0xBC, 0xDF, 0x29, 0x08, 0x32, 0x30, 0x33, 0x35,
    0x30, 0x32, 0x31, 0x37, 0xDF, 0x2A, 0x01, 0xDD]

/-- The same with the photograph and the images first, and another expiry. -/
def faceReordered : Bytes :=
  [0xFF, 0x20, 0x35, 0xDF, 0x27, 0x01, 0xCC, 0xDF, 0x25, 0x01, 0xAA, 0xDF, 0x26, 0x01, 0xBB, 0xDF,
    0x22, 0x08, 0x31, 0x39, 0x38, 0x30, 0x30, 0x32, 0x31, 0x37, 0xDF, 0x23, 0x01, 0x31, 0xDF, 0x24,
    0x04, 0x90, 0x00, 0x91, 0x00, 0xDF, 0x28, 0x01, 0xBC, 0xDF, 0x29, 0x08, 0x32, 0x30, 0x34, 0x35,
    0x30, 0x32, 0x31, 0x37, 0xDF, 0x2A, 0x01, 0xDD]

def segment1 : Bytes :=
  [0xDF, 0x22, 0x08, 0x31, 0x39, 0x38, 0x30, 0x30, 0x32, 0x31, 0x37, 0xDF, 0x23, 0x01, 0x31, 0xDF,
    0x24, 0x04, 0x90, 0x00, 0x91, 0x00]

def segment2 : Bytes := [0xDF, 0x25, 0x01, 0xAA, 0xDF, 0x26, 0x01, 0xBB]

def segment3 : Bytes := [0xDF, 0x27, 0x01, 0xCC]

/-- What the two files parse to, but for the expiry. -/
def faceRecord (expiry : Date) : CardFace :=
  ⟨⟨1980, 2, 17⟩, .male, ⟨[], []⟩, .new [0xAA], .new [0xBB], .new [0xCC], [0xBC], expiry,
    .new [0xDD], segment1, segment2, segment3⟩

/-- SHA-256 on the three segments. -/
def segmentDigest (b : Bytes) : Digest :=
  if b = segment1 then
    ⟨[0xD2, 0x25, 0x18, 0x86, 0x55, 0x95, 0x9A, 0x09, 0xD9, 0xBD, 0x4E, 0x51, 0xDA, 0x28, 0xEF,
      0x33, 0x33, 0xE8, 0x56, 0x74, 0x81, 0xBB, 0x34, 0xC0, 0xC2, 0x62, 0x32, 0xE0, 0x33, 0x09,
      0xFC, 0x15], rfl⟩
  else if b = segment2 then
    ⟨[0xFD, 0xA3, 0xA8, 0xDA, 0xFF, 0x02, 0x6F, 0xA3, 0x17, 0xD5, 0x1B, 0x1D, 0x4C, 0x6D, 0x8B,
      0x02, 0x0E, 0x0C, 0x4F, 0xB4, 0x8F, 0x09, 0xE0, 0xA7, 0x2A, 0x0D, 0x63, 0x3D, 0x58, 0xCF,
      0x0D, 0x5A], rfl⟩
  else if b = segment3 then
    ⟨[0xB2, 0x7A, 0x58, 0x73, 0x10, 0x31, 0x6A, 0x9F, 0xC2, 0x11, 0xE4, 0x6B, 0xE9, 0x00, 0xDF,
      0xBE, 0x6E, 0xFE, 0x1F, 0x56, 0x9A, 0x02, 0xA6, 0x7F, 0xD8, 0x30, 0xDF, 0x2B, 0x0E, 0x42,
      0xB6, 0x8D], rfl⟩
  else ⟨List.replicate 32 0, rfl⟩

theorem segmentDigest_injOn (e e' : Date) :
    Set.InjOn segmentDigest (segments (faceRecord e) ∪ segments (faceRecord e')) := by
  have hset : segments (faceRecord e) ∪ segments (faceRecord e') =
      {segment1, segment2, segment3} := Set.union_self _
  rw [hset]
  rintro x (rfl | rfl | rfl) y (rfl | rfl | rfl) h
  · rfl
  · exact absurd h (by decide)
  · exact absurd h (by decide)
  · exact absurd h (by decide)
  · rfl
  · exact absurd h (by decide)
  · exact absurd h (by decide)
  · exact absurd h (by decide)
  · rfl

theorem cardFace_eq_of_payload_eq_reordered :
    CardFace.parse .on face = .ok (faceRecord ⟨2035, 2, 17⟩) ∧
    CardFace.parse .on faceReordered = .ok (faceRecord ⟨2045, 2, 17⟩) ∧
    (faceRecord ⟨2035, 2, 17⟩).birthDate = (faceRecord ⟨2045, 2, 17⟩).birthDate ∧
    (faceRecord ⟨2035, 2, 17⟩).photo = (faceRecord ⟨2045, 2, 17⟩).photo := by
  have h : CardFace.parse .on face = .ok (faceRecord ⟨2035, 2, 17⟩) := by decide +kernel
  have h' : CardFace.parse .on faceReordered = .ok (faceRecord ⟨2045, 2, 17⟩) := by decide +kernel
  obtain ⟨hbirth, -, -, -, -, hphoto⟩ := cardFace_eq_of_payload_eq segmentDigest .on h h'
    (segmentDigest_injOn _ _) rfl
  exact ⟨h, h', hbirth, hphoto⟩

end MynaCard.SignedCardFace
