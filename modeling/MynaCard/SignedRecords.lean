import MynaCard.Ap.Surface
import MynaCard.Ap.Text

/-!
# What a record's signature covers

The four records signed as a whole keep, as `signedData`, every object before the first one with
the signature's tag. The fields shown to the caller are looked up by tag over the whole file. This
file settles when the first determines the second: exactly when the object each field was decoded
from comes before the signature (`signedData_determines_iff`).

One direction is unique decodability of the signed bytes. For the other, a record whose field comes
after the signature is turned into a second accepted file with the same signed bytes and another
value of that field (`exists_forged`).
-/

namespace MynaCard.SignedRecords

open Ber TlvFields

/-- The tags of the objects inside the outer object of a file, in order. -/
def objectTags (oc : OverflowChecks) (raw : Bytes) : List ℕ :=
  match Ber.parse oc raw with
  | .ok outer => (iter oc outer.value).filterMap fun item => item.toOption.map Tlv.tag
  | .error _ => []

/-- Inside the file, the first object with each of the tags `dataTags` comes before the first one
with the tag `sigTag`. -/
def DataFirst (oc : OverflowChecks) (raw : Bytes) (dataTags : List ℕ) (sigTag : ℕ) : Prop :=
  ∀ t ∈ dataTags, (objectTags oc raw).idxOf t < (objectTags oc raw).idxOf sigTag

instance (oc : OverflowChecks) (raw : Bytes) (dataTags : List ℕ) (sigTag : ℕ) :
    Decidable (DataFirst oc raw dataTags sigTag) :=
  inferInstanceAs (Decidable (∀ t ∈ dataTags, _))

theorem objectTags_of_decomposed (oc : OverflowChecks) {raw : Bytes} {tag : ℕ} {objs : List Obj}
    (h : Decomposed raw tag objs) : objectTags oc raw = objs.map Obj.tag := by
  obtain ⟨⟨o, tail, post, rfl, hsize, -, hval, htail⟩, hplain⟩ := h
  have hlen : (concat objs).length < usizeSize := by
    have := congrArg List.length hval
    rw [List.length_append] at this
    rw [Obj.raw_length] at hsize
    omega
  have hiter : iter oc o.value = objs.map fun o => .ok o.tlv := by
    rw [hval]
    exact iter_concat oc hplain hlen htail
  unfold objectTags
  rw [parse_raw_append oc o hsize]
  show (iter oc o.value).filterMap _ = _
  rw [hiter]
  induction objs with
  | nil => rfl
  | cons p objs => simp [Except.toOption, Obj.tlv]

/-- A file with a signature, split at its first signature object. -/
structure SignedFile (oc : OverflowChecks) (raw : Bytes) (tag sigTag : ℕ) (f : TlvFields)
    (before : List Obj) (signature : Obj) (after : List Obj) : Prop where
  parse_eq : TlvFields.parse oc raw tag none = .ok f
  decomposed : Decomposed raw tag (before ++ signature :: after)
  items_eq : f.items = (before ++ signature :: after).map Field.ofObj
  before_ne : ∀ p ∈ before, p.tag ≠ sigTag
  tag_eq : signature.tag = sigTag

variable {oc : OverflowChecks} {raw : Bytes} {tag sigTag : ℕ} {f : TlvFields}
  {before after : List Obj} {signature : Obj}

theorem exists_signedFile {signed : Bytes} (hparse : TlvFields.parse oc raw tag none = .ok f)
    (hsigned : f.bytesBefore sigTag = .ok signed) :
    ∃ before signature after, SignedFile oc raw tag sigTag f before signature after ∧
      signed = concat before := by
  obtain ⟨objs, hd, hitems⟩ := parse_none_eq_ok_iff.mp hparse
  obtain ⟨before, signature, after, rfl, hbefore, htag, rfl⟩ :=
    (bytesBefore_eq_ok_iff hitems).mp hsigned
  exact ⟨before, signature, after, ⟨hparse, hd, hitems, hbefore, htag⟩, rfl⟩

theorem SignedFile.bytesBefore_eq (h : SignedFile oc raw tag sigTag f before signature after) :
    f.bytesBefore sigTag = .ok (concat before) :=
  (bytesBefore_eq_ok_iff h.items_eq).mpr
    ⟨before, signature, after, rfl, h.before_ne, h.tag_eq, rfl⟩

/-- A tag comes before the signature's when one of the objects before the signature has it. -/
theorem SignedFile.dataFirst_iff (h : SignedFile oc raw tag sigTag f before signature after)
    (dataTags : List ℕ) :
    DataFirst oc raw dataTags sigTag ↔ ∀ t ∈ dataTags, ∃ p ∈ before, p.tag = t := by
  have hsig : sigTag ∉ before.map Obj.tag := by
    intro hmem
    obtain ⟨p, hp, hpt⟩ := List.mem_map.mp hmem
    exact h.before_ne p hp hpt
  have hidx : ((before ++ signature :: after).map Obj.tag).idxOf sigTag = before.length := by
    rw [List.map_append, List.idxOf_append_of_notMem hsig, List.map_cons, h.tag_eq]
    simp
  unfold DataFirst
  rw [objectTags_of_decomposed oc h.decomposed, hidx]
  refine forall₂_congr fun t _ => ?_
  rw [List.map_append]
  by_cases hmem : t ∈ before.map Obj.tag
  · rw [List.idxOf_append_of_mem hmem]
    have hlt := List.idxOf_lt_length_of_mem hmem
    rw [List.length_map] at hlt
    exact ⟨fun _ => List.mem_map.mp hmem, fun _ => hlt⟩
  · rw [List.idxOf_append_of_notMem hmem, List.length_map]
    refine ⟨fun hlt => by omega, fun hex => absurd (List.mem_map.mpr hex) hmem⟩

/-- A lookup that succeeds before the signature is determined by the signed bytes. -/
theorem SignedFile.get_eq (h : SignedFile oc raw tag sigTag f before signature after)
    {raw' : Bytes} {f' : TlvFields} (hparse : TlvFields.parse oc raw' tag none = .ok f')
    (hsigned : f'.bytesBefore sigTag = f.bytesBefore sigTag) {t : ℕ}
    (ht : ∃ p ∈ before, p.tag = t) : f'.get t = f.get t := by
  rw [h.bytesBefore_eq] at hsigned
  obtain ⟨before', signature', after', h', hbefore⟩ := exists_signedFile hparse hsigned
  obtain rfl := concat_injective hbefore
  obtain ⟨p, hp⟩ : ∃ p, before.find? (fun o => o.tag = t) = some p := by
    rw [← Option.isSome_iff_exists, List.find?_isSome]
    obtain ⟨p, hp, hpt⟩ := ht
    exact ⟨p, hp, by simpa using hpt⟩
  have hfind : ∀ (s : Obj) (rest : List Obj),
      (before ++ s :: rest).find? (fun o => o.tag = t) = some p := by
    intro s rest
    rw [List.find?_append, hp, Option.some_or]
  rw [(get_eq_ok_iff h'.items_eq).mpr ⟨p, hfind _ _, rfl⟩,
    (get_eq_ok_iff h.items_eq).mpr ⟨p, hfind _ _, rfl⟩]

/-- Objects in an outer object, and nothing else. -/
theorem decomposed_mk2 {objs : List Obj} (hplain : ∀ o ∈ objs, o.NotFiller)
    (hsize : (concat objs).length + 1000 < usizeSize) (outerLo : UInt8)
    (houterLo : outerLo &&& 0x80 = 0) :
    Decomposed (Obj.mk2 0xFF outerLo (concat objs) (by decide) houterLo (by omega)).raw
      (bigEndian [0xFF, outerLo]) objs := by
  refine ⟨⟨_, [], [], (List.append_nil _).symm, ?_, rfl, (List.append_nil _).symm,
    startsFiller_nil⟩, hplain⟩
  rw [Obj.mk2_raw_length]
  omega

/-- **A field after the signature can be given any value.** The new object goes right behind the
signature: nothing before it changes, and a lookup of any other tag passes over it. -/
theorem SignedFile.exists_forged (h : SignedFile oc raw tag sigTag f before signature after)
    (hraw : raw.length ≤ isizeMax) (outerLo lo : UInt8) (htag : tag = bigEndian [0xFF, outerLo])
    (houterLo : outerLo &&& 0x80 = 0) (hlo : lo &&& 0x80 = 0)
    (hlate : ∀ p ∈ before, p.tag ≠ bigEndian [0xDF, lo]) (hne : bigEndian [0xDF, lo] ≠ sigTag)
    {v : Bytes} (hv : v.length < 2 ^ 32) :
    ∃ raw' f', TlvFields.parse oc raw' tag none = .ok f' ∧
      f'.bytesBefore sigTag = f.bytesBefore sigTag ∧ f'.get (bigEndian [0xDF, lo]) = .ok v ∧
      ∀ u, u ≠ bigEndian [0xDF, lo] → f'.get u = f.get u := by
  have hvsize : v.length < usizeSize := lt_trans hv (by decide)
  let forged := Obj.mk2 0xDF lo v (by decide) hlo hvsize
  let objs := before ++ signature :: forged :: after
  have hinner : (concat objs).length + 1000 < usizeSize := by
    have hcontents := h.decomposed.concat_length_le
    have hforged : forged.raw.length = 11 + v.length := Obj.mk2_raw_length _ hlo hvsize
    simp only [concat_append, concat_cons, List.length_append] at hcontents
    simp only [objs, concat_append, concat_cons, List.length_append, hforged]
    unfold isizeMax at hraw
    unfold usizeSize
    omega
  have hplain : ∀ o ∈ objs, o.NotFiller := by
    intro o ho
    have hcases : o ∈ before ++ signature :: after ∨ o = forged := by
      simp only [objs, List.mem_append, List.mem_cons] at ho ⊢
      tauto
    rcases hcases with ho | rfl
    · exact h.decomposed.plain o ho
    · intro b hb
      obtain rfl : (0xDF : UInt8) = b := Option.some.inj hb
      rfl
  let outer := Obj.mk2 0xFF outerLo (concat objs) (by decide) houterLo (by omega)
  have hdecomposed : Decomposed outer.raw tag objs := by
    rw [htag]
    exact decomposed_mk2 hplain hinner outerLo houterLo
  let f' : TlvFields := ⟨objs.map Field.ofObj⟩
  have hparse : TlvFields.parse oc outer.raw tag none = .ok f' :=
    parse_none_eq_ok_iff.mpr ⟨objs, hdecomposed, rfl⟩
  have h' : SignedFile oc outer.raw tag sigTag f' before signature (forged :: after) :=
    ⟨hparse, hdecomposed, rfl, h.before_ne, h.tag_eq⟩
  have hsigne : signature.tag ≠ bigEndian [0xDF, lo] := fun heq => hne (heq ▸ h.tag_eq)
  refine ⟨outer.raw, f', hparse, by rw [h'.bytesBefore_eq, h.bytesBefore_eq], ?_, ?_⟩
  · refine (get_eq_ok_iff h'.items_eq).mpr ⟨forged, ?_, rfl⟩
    have hnone : (before.find? fun o => o.tag = bigEndian [0xDF, lo]) = none := by
      rw [List.find?_eq_none]
      intro p hp
      simpa using hlate p hp
    rw [List.find?_append, hnone, Option.none_or, List.find?_cons_of_neg (by simpa using hsigne)]
    exact List.find?_cons_of_pos (by simp [forged, Obj.mk2])
  · intro u hu
    have hforged : ¬ forged.tag = u := fun heq => hu heq.symm
    unfold TlvFields.get
    rw [h'.items_eq, h.items_eq]
    simp only [List.find?_map, List.find?_append, List.find?_cons, Function.comp_def, Field.ofObj,
      hforged, decide_false]

/-- A field that no accepted file with the same signed bytes shows differently was decoded from an
object before the signature. -/
theorem SignedFile.exists_of_determined
    (h : SignedFile oc raw tag sigTag f before signature after) (hraw : raw.length ≤ isizeMax)
    (outerLo lo : UInt8) (htag : tag = bigEndian [0xFF, outerLo]) (houterLo : outerLo &&& 0x80 = 0)
    (hlo : lo &&& 0x80 = 0) (hne : bigEndian [0xDF, lo] ≠ sigTag) {v : Bytes}
    (hv : v.length < 2 ^ 32)
    (hdet : ∀ raw' f', TlvFields.parse oc raw' tag none = .ok f' →
      f'.bytesBefore sigTag = f.bytesBefore sigTag → f'.get (bigEndian [0xDF, lo]) = .ok v →
      (∀ u, u ≠ bigEndian [0xDF, lo] → f'.get u = f.get u) → False) :
    ∃ p ∈ before, p.tag = bigEndian [0xDF, lo] := by
  by_contra hlate
  push Not at hlate
  obtain ⟨raw', f', hf', hb', hget, hother⟩ :=
    h.exists_forged hraw outerLo lo htag houterLo hlo hlate hne hv
  exact hdet raw' f' hf' hb' hget hother

/-! ### Each field has another value -/

theorem date_exists_ne (d : Date) :
    ∃ v d', Date.parse v = .ok d' ∧ d' ≠ d ∧ v.length < 2 ^ 32 := by
  by_cases h : d = ⟨1970, 1, 1⟩
  · exact ⟨[0x31, 0x39, 0x37, 0x30, 0x30, 0x31, 0x30, 0x32], ⟨1970, 1, 2⟩, by decide,
      by rw [h]; decide, by decide⟩
  · exact ⟨[0x31, 0x39, 0x37, 0x30, 0x30, 0x31, 0x30, 0x31], ⟨1970, 1, 1⟩, by decide,
      fun heq => h heq.symm, by decide⟩

theorem publicKey_exists_ne (oc : OverflowChecks) (k : RsaPublicKey) :
    ∃ v k', RsaPublicKey.parse oc v = .ok k' ∧ k' ≠ k ∧ v.length < 2 ^ 32 := by
  by_cases h : k = ⟨[], []⟩
  · exact ⟨[0x90, 0x00, 0x91, 0x01, 0x05], ⟨[], [0x05]⟩, by cases oc <;> decide +kernel,
      by rw [h]; decide, by decide⟩
  · exact ⟨[0x90, 0x00, 0x91, 0x00], ⟨[], []⟩, by cases oc <;> decide +kernel,
      fun heq => h heq.symm, by decide⟩

theorem image_exists_ne (i : Image) : ∃ v, Image.new v ≠ i ∧ v.length < 2 ^ 32 := by
  by_cases h : i = Image.new []
  · exact ⟨[0x00], by rw [h]; decide, by decide⟩
  · exact ⟨[], fun heq => h heq.symm, by decide⟩

theorem digest_exists_ne (d : { d : Bytes // d.length = 32 }) :
    ∃ d' : { d : Bytes // d.length = 32 }, d' ≠ d := by
  by_cases h : d = ⟨List.replicate 32 0, rfl⟩
  · exact ⟨⟨List.replicate 32 1, rfl⟩, by rw [h]; decide⟩
  · exact ⟨⟨List.replicate 32 0, rfl⟩, fun heq => h heq.symm⟩

/-! ### The four records -/

section records

variable {oc : OverflowChecks} {raw : Bytes}

theorem ageRecord_parse_eq_ok {r : Surface.AgeRecord} :
    Surface.AgeRecord.parse oc raw = .ok r ↔
      ∃ f v k, TlvFields.parse oc raw 0xFF10 none = .ok f ∧
        f.get 0xDF11 = .ok v ∧ Date.parse v = .ok r.birthDate ∧
        f.get 0xDF12 = .ok k ∧ RsaPublicKey.parse oc k = .ok r.publicKey ∧
        f.get 0xDF13 = .ok r.signature ∧ f.bytesBefore 0xDF13 = .ok r.signedData := by
  unfold Surface.AgeRecord.parse
  simp only [Run.bind_eq_ok, pure, Except.pure, Except.ok.injEq]
  constructor
  · rintro ⟨f, hf, v, hv, d, hd, k, hk, key, hkey, s, hs, b, hb, rfl⟩
    exact ⟨f, v, k, hf, hv, hd, hk, hkey, hs, hb⟩
  · rintro ⟨f, v, k, hf, hv, hd, hk, hkey, hs, hb⟩
    exact ⟨f, hf, v, hv, _, hd, k, hk, _, hkey, _, hs, _, hb, rfl⟩

theorem myNumberImage_parse_eq_ok {r : Surface.MyNumberImage} :
    Surface.MyNumberImage.parse oc raw = .ok r ↔
      ∃ f v k, TlvFields.parse oc raw 0xFF40 none = .ok f ∧
        f.get 0xDF41 = .ok v ∧ r.image = .new v ∧
        f.get 0xDF42 = .ok k ∧ RsaPublicKey.parse oc k = .ok r.publicKey ∧
        f.get 0xDF43 = .ok r.signature ∧ f.bytesBefore 0xDF43 = .ok r.signedData := by
  unfold Surface.MyNumberImage.parse
  simp only [Run.bind_eq_ok, pure, Except.pure, Except.ok.injEq]
  constructor
  · rintro ⟨f, hf, v, hv, k, hk, key, hkey, s, hs, b, hb, rfl⟩
    exact ⟨f, v, k, hf, hv, rfl, hk, hkey, hs, hb⟩
  · obtain ⟨image, publicKey, signature, signedData⟩ := r
    rintro ⟨f, v, k, hf, hv, rfl, hk, hkey, hs, hb⟩
    exact ⟨f, hf, v, hv, k, hk, _, hkey, _, hs, _, hb, rfl⟩

theorem digest_eq_ok {f : TlvFields} {t : ℕ} {d : { d : Bytes // d.length = 32 }} :
    Text.IntegrityRecord.digest f t = .ok d ↔ f.get t = .ok d.1 := by
  unfold Text.IntegrityRecord.digest
  rw [Run.bind_eq_ok]
  constructor
  · rintro ⟨v, hv, h⟩
    split at h
    · cases h
      exact hv
    · cases h
  · intro h
    exact ⟨d.1, h, by rw [dif_pos d.2]; rfl⟩

theorem integrityRecord_parse_eq_ok {r : Text.IntegrityRecord} :
    Text.IntegrityRecord.parse oc raw = .ok r ↔
      ∃ f, TlvFields.parse oc raw 0xFF30 none = .ok f ∧
        f.get 0xDF31 = .ok r.myNumberDigest.1 ∧ f.get 0xDF32 = .ok r.attributesDigest.1 ∧
        f.get 0xDF33 = .ok r.signature ∧ f.bytesBefore 0xDF33 = .ok r.signedData := by
  unfold Text.IntegrityRecord.parse
  simp only [Run.bind_eq_ok, digest_eq_ok, pure, Except.pure, Except.ok.injEq]
  constructor
  · rintro ⟨f, hf, d, hd, e, he, s, hs, b, hb, rfl⟩
    exact ⟨f, hf, hd, he, hs, hb⟩
  · rintro ⟨f, hf, hd, he, hs, hb⟩
    exact ⟨f, hf, _, hd, _, he, _, hs, _, hb, rfl⟩

theorem signedPublicKey_parse_eq_ok {r : Text.SignedPublicKey} :
    Text.SignedPublicKey.parse oc raw = .ok r ↔
      ∃ f k, TlvFields.parse oc raw 0xFF50 none = .ok f ∧
        f.get 0xDF51 = .ok k ∧ RsaPublicKey.parse oc k = .ok r.publicKey ∧
        f.get 0xDF52 = .ok r.signature ∧ f.bytesBefore 0xDF52 = .ok r.signedData := by
  unfold Text.SignedPublicKey.parse
  simp only [Run.bind_eq_ok, pure, Except.pure, Except.ok.injEq]
  constructor
  · rintro ⟨f, hf, k, hk, key, hkey, s, hs, b, hb, rfl⟩
    exact ⟨f, k, hf, hk, hkey, hs, hb⟩
  · rintro ⟨f, k, hf, hk, hkey, hs, hb⟩
    exact ⟨f, hf, k, hk, _, hkey, _, hs, _, hb, rfl⟩

/-- The signed bytes of the record determine the birth date and the key. -/
def AgeRecordDetermined (oc : OverflowChecks) (r : Surface.AgeRecord) : Prop :=
  ∀ raw' r', Surface.AgeRecord.parse oc raw' = .ok r' → r'.signedData = r.signedData →
    r'.birthDate = r.birthDate ∧ r'.publicKey = r.publicKey

/-- The signed bytes of the record determine the image and the key. -/
def MyNumberImageDetermined (oc : OverflowChecks) (r : Surface.MyNumberImage) : Prop :=
  ∀ raw' r', Surface.MyNumberImage.parse oc raw' = .ok r' → r'.signedData = r.signedData →
    r'.image = r.image ∧ r'.publicKey = r.publicKey

/-- The signed bytes of the record determine the two digests. -/
def IntegrityRecordDetermined (oc : OverflowChecks) (r : Text.IntegrityRecord) : Prop :=
  ∀ raw' r', Text.IntegrityRecord.parse oc raw' = .ok r' → r'.signedData = r.signedData →
    r'.myNumberDigest = r.myNumberDigest ∧ r'.attributesDigest = r.attributesDigest

/-- The signed bytes of the record determine the key. -/
def SignedPublicKeyDetermined (oc : OverflowChecks) (r : Text.SignedPublicKey) : Prop :=
  ∀ raw' r', Text.SignedPublicKey.parse oc raw' = .ok r' → r'.signedData = r.signedData →
    r'.publicKey = r.publicKey

theorem ageRecord_determined_iff {r : Surface.AgeRecord}
    (h : Surface.AgeRecord.parse oc raw = .ok r) (hraw : raw.length ≤ isizeMax) :
    AgeRecordDetermined oc r ↔ DataFirst oc raw [0xDF11, 0xDF12] 0xDF13 := by
  obtain ⟨f, v, k, hf, hv, hd, hk, hkey, hs, hb⟩ := ageRecord_parse_eq_ok.mp h
  obtain ⟨before, signature, after, hfile, -⟩ := exists_signedFile hf hb
  rw [hfile.dataFirst_iff]
  constructor
  · intro hdet t ht
    rcases List.mem_pair.mp ht with rfl | rfl
    · obtain ⟨v', d', hd', hne, hlen⟩ := date_exists_ne r.birthDate
      refine hfile.exists_of_determined hraw 0x10 0x11 rfl (by decide) (by decide) (by decide) hlen
        fun raw' f' hf' hb' hget hother => ?_
      refine hne (hdet raw' ⟨d', r.publicKey, r.signature, r.signedData⟩ ?_ rfl).1
      exact ageRecord_parse_eq_ok.mpr ⟨f', v', k, hf', hget, hd',
        (hother _ (by decide)).trans hk, hkey, (hother _ (by decide)).trans hs, hb'.trans hb⟩
    · obtain ⟨k', key', hkey', hne, hlen⟩ := publicKey_exists_ne oc r.publicKey
      refine hfile.exists_of_determined hraw 0x10 0x12 rfl (by decide) (by decide) (by decide) hlen
        fun raw' f' hf' hb' hget hother => ?_
      refine hne (hdet raw' ⟨r.birthDate, key', r.signature, r.signedData⟩ ?_ rfl).2
      exact ageRecord_parse_eq_ok.mpr ⟨f', v, k', hf', (hother _ (by decide)).trans hv, hd,
        hget, hkey', (hother _ (by decide)).trans hs, hb'.trans hb⟩
  · intro hearly raw' r' h' hsigned
    obtain ⟨f', v', k', hf', hv', hd', hk', hkey', -, hb'⟩ := ageRecord_parse_eq_ok.mp h'
    have hget := fun t ht =>
      hfile.get_eq hf' (hb'.trans ((congrArg Except.ok hsigned).trans hb.symm)) (hearly t ht)
    obtain rfl : v' = v := Except.ok.inj (hv'.symm.trans ((hget _ (by simp)).trans hv))
    obtain rfl : k' = k := Except.ok.inj (hk'.symm.trans ((hget _ (by simp)).trans hk))
    exact ⟨Except.ok.inj (hd'.symm.trans hd), Except.ok.inj (hkey'.symm.trans hkey)⟩

theorem myNumberImage_determined_iff {r : Surface.MyNumberImage}
    (h : Surface.MyNumberImage.parse oc raw = .ok r) (hraw : raw.length ≤ isizeMax) :
    MyNumberImageDetermined oc r ↔ DataFirst oc raw [0xDF41, 0xDF42] 0xDF43 := by
  obtain ⟨f, v, k, hf, hv, hi, hk, hkey, hs, hb⟩ := myNumberImage_parse_eq_ok.mp h
  obtain ⟨before, signature, after, hfile, -⟩ := exists_signedFile hf hb
  rw [hfile.dataFirst_iff]
  constructor
  · intro hdet t ht
    rcases List.mem_pair.mp ht with rfl | rfl
    · obtain ⟨v', hne, hlen⟩ := image_exists_ne r.image
      refine hfile.exists_of_determined hraw 0x40 0x41 rfl (by decide) (by decide) (by decide) hlen
        fun raw' f' hf' hb' hget hother => ?_
      refine hne (hdet raw' ⟨.new v', r.publicKey, r.signature, r.signedData⟩ ?_ rfl).1
      exact myNumberImage_parse_eq_ok.mpr ⟨f', v', k, hf', hget, rfl,
        (hother _ (by decide)).trans hk, hkey, (hother _ (by decide)).trans hs, hb'.trans hb⟩
    · obtain ⟨k', key', hkey', hne, hlen⟩ := publicKey_exists_ne oc r.publicKey
      refine hfile.exists_of_determined hraw 0x40 0x42 rfl (by decide) (by decide) (by decide) hlen
        fun raw' f' hf' hb' hget hother => ?_
      refine hne (hdet raw' ⟨r.image, key', r.signature, r.signedData⟩ ?_ rfl).2
      exact myNumberImage_parse_eq_ok.mpr ⟨f', v, k', hf', (hother _ (by decide)).trans hv, hi,
        hget, hkey', (hother _ (by decide)).trans hs, hb'.trans hb⟩
  · intro hearly raw' r' h' hsigned
    obtain ⟨f', v', k', hf', hv', hi', hk', hkey', -, hb'⟩ := myNumberImage_parse_eq_ok.mp h'
    have hget := fun t ht =>
      hfile.get_eq hf' (hb'.trans ((congrArg Except.ok hsigned).trans hb.symm)) (hearly t ht)
    obtain rfl : v' = v := Except.ok.inj (hv'.symm.trans ((hget _ (by simp)).trans hv))
    obtain rfl : k' = k := Except.ok.inj (hk'.symm.trans ((hget _ (by simp)).trans hk))
    exact ⟨hi'.trans hi.symm, Except.ok.inj (hkey'.symm.trans hkey)⟩

theorem integrityRecord_determined_iff {r : Text.IntegrityRecord}
    (h : Text.IntegrityRecord.parse oc raw = .ok r) (hraw : raw.length ≤ isizeMax) :
    IntegrityRecordDetermined oc r ↔ DataFirst oc raw [0xDF31, 0xDF32] 0xDF33 := by
  obtain ⟨f, hf, hm, ha, hs, hb⟩ := integrityRecord_parse_eq_ok.mp h
  obtain ⟨before, signature, after, hfile, -⟩ := exists_signedFile hf hb
  rw [hfile.dataFirst_iff]
  constructor
  · intro hdet t ht
    rcases List.mem_pair.mp ht with rfl | rfl
    · obtain ⟨d', hne⟩ := digest_exists_ne r.myNumberDigest
      refine hfile.exists_of_determined hraw 0x30 0x31 rfl (by decide) (by decide) (by decide)
        (v := d'.1) (by rw [d'.2]; decide) fun raw' f' hf' hb' hget hother => ?_
      refine hne (hdet raw' ⟨d', r.attributesDigest, r.signature, r.signedData⟩ ?_ rfl).1
      exact integrityRecord_parse_eq_ok.mpr ⟨f', hf', hget, (hother _ (by decide)).trans ha,
        (hother _ (by decide)).trans hs, hb'.trans hb⟩
    · obtain ⟨d', hne⟩ := digest_exists_ne r.attributesDigest
      refine hfile.exists_of_determined hraw 0x30 0x32 rfl (by decide) (by decide) (by decide)
        (v := d'.1) (by rw [d'.2]; decide) fun raw' f' hf' hb' hget hother => ?_
      refine hne (hdet raw' ⟨r.myNumberDigest, d', r.signature, r.signedData⟩ ?_ rfl).2
      exact integrityRecord_parse_eq_ok.mpr ⟨f', hf', (hother _ (by decide)).trans hm, hget,
        (hother _ (by decide)).trans hs, hb'.trans hb⟩
  · intro hearly raw' r' h' hsigned
    obtain ⟨f', hf', hm', ha', -, hb'⟩ := integrityRecord_parse_eq_ok.mp h'
    have hget := fun t ht =>
      hfile.get_eq hf' (hb'.trans ((congrArg Except.ok hsigned).trans hb.symm)) (hearly t ht)
    exact ⟨Subtype.ext (Except.ok.inj (hm'.symm.trans ((hget _ (by simp)).trans hm))),
      Subtype.ext (Except.ok.inj (ha'.symm.trans ((hget _ (by simp)).trans ha)))⟩

theorem signedPublicKey_determined_iff {r : Text.SignedPublicKey}
    (h : Text.SignedPublicKey.parse oc raw = .ok r) (hraw : raw.length ≤ isizeMax) :
    SignedPublicKeyDetermined oc r ↔ DataFirst oc raw [0xDF51] 0xDF52 := by
  obtain ⟨f, k, hf, hk, hkey, hs, hb⟩ := signedPublicKey_parse_eq_ok.mp h
  obtain ⟨before, signature, after, hfile, -⟩ := exists_signedFile hf hb
  rw [hfile.dataFirst_iff]
  constructor
  · intro hdet t ht
    obtain rfl := List.mem_singleton.mp ht
    obtain ⟨k', key', hkey', hne, hlen⟩ := publicKey_exists_ne oc r.publicKey
    refine hfile.exists_of_determined hraw 0x50 0x51 rfl (by decide) (by decide) (by decide) hlen
      fun raw' f' hf' hb' hget hother => ?_
    refine hne (hdet raw' ⟨key', r.signature, r.signedData⟩ ?_ rfl)
    exact signedPublicKey_parse_eq_ok.mpr ⟨f', k', hf', hget, hkey',
      (hother _ (by decide)).trans hs, hb'.trans hb⟩
  · intro hearly raw' r' h' hsigned
    obtain ⟨f', k', hf', hk', hkey', -, hb'⟩ := signedPublicKey_parse_eq_ok.mp h'
    have hget := fun t ht =>
      hfile.get_eq hf' (hb'.trans ((congrArg Except.ok hsigned).trans hb.symm)) (hearly t ht)
    obtain rfl : k' = k := Except.ok.inj (hk'.symm.trans ((hget _ (by simp)).trans hk))
    exact Except.ok.inj (hkey'.symm.trans hkey)

/-- **When the signed bytes of an accepted record determine the fields it shows.** For each of the
four records, no other accepted file with the same signed bytes shows different fields if and only
if every field was decoded from an object before the signature. No slice of bytes is longer than
`isize::MAX`. -/
theorem signedData_determines_iff (oc : OverflowChecks) (raw : Bytes)
    (hraw : raw.length ≤ isizeMax) :
    (∀ r, Surface.AgeRecord.parse oc raw = .ok r →
      (AgeRecordDetermined oc r ↔ DataFirst oc raw [0xDF11, 0xDF12] 0xDF13)) ∧
    (∀ r, Surface.MyNumberImage.parse oc raw = .ok r →
      (MyNumberImageDetermined oc r ↔ DataFirst oc raw [0xDF41, 0xDF42] 0xDF43)) ∧
    (∀ r, Text.IntegrityRecord.parse oc raw = .ok r →
      (IntegrityRecordDetermined oc r ↔ DataFirst oc raw [0xDF31, 0xDF32] 0xDF33)) ∧
    (∀ r, Text.SignedPublicKey.parse oc raw = .ok r →
      (SignedPublicKeyDetermined oc r ↔ DataFirst oc raw [0xDF51] 0xDF52)) :=
  ⟨fun _ h => ageRecord_determined_iff h hraw, fun _ h => myNumberImage_determined_iff h hraw,
    fun _ h => integrityRecord_determined_iff h hraw,
    fun _ h => signedPublicKey_determined_iff h hraw⟩

/-- An age record whose signature comes first: its signed bytes are empty. -/
def signatureFirst : Bytes :=
  [0xFF, 0x10, 0x16, 0xDF, 0x13, 0x01, 0xBC,
    0xDF, 0x11, 0x08, 0x31, 0x39, 0x38, 0x30, 0x30, 0x32, 0x31, 0x37,
    0xDF, 0x12, 0x04, 0x90, 0x00, 0x91, 0x00]

theorem signedData_determines_iff_signatureFirst :
    signatureFirst.length ≤ isizeMax ∧
    (∀ r, Surface.AgeRecord.parse .on signatureFirst = .ok r →
      (AgeRecordDetermined .on r ↔ DataFirst .on signatureFirst [0xDF11, 0xDF12] 0xDF13)) ∧
    (∀ r, Surface.MyNumberImage.parse .on signatureFirst = .ok r →
      (MyNumberImageDetermined .on r ↔ DataFirst .on signatureFirst [0xDF41, 0xDF42] 0xDF43)) ∧
    (∀ r, Text.IntegrityRecord.parse .on signatureFirst = .ok r →
      (IntegrityRecordDetermined .on r ↔ DataFirst .on signatureFirst [0xDF31, 0xDF32] 0xDF33)) ∧
    (∀ r, Text.SignedPublicKey.parse .on signatureFirst = .ok r →
      (SignedPublicKeyDetermined .on r ↔ DataFirst .on signatureFirst [0xDF51] 0xDF52)) :=
  ⟨by decide, signedData_determines_iff .on signatureFirst (by decide)⟩

/-- The same file with another year of birth. -/
def signatureFirstOther : Bytes :=
  [0xFF, 0x10, 0x16, 0xDF, 0x13, 0x01, 0xBC,
    0xDF, 0x11, 0x08, 0x31, 0x39, 0x39, 0x30, 0x30, 0x32, 0x31, 0x37,
    0xDF, 0x12, 0x04, 0x90, 0x00, 0x91, 0x00]

/-- The two files are both accepted, with the same signed bytes and different dates of birth. -/
theorem signatureFirst_not_determined :
    Surface.AgeRecord.parse .on signatureFirst =
      .ok ⟨⟨1980, 2, 17⟩, ⟨[], []⟩, [0xBC], []⟩ ∧
    Surface.AgeRecord.parse .on signatureFirstOther =
      .ok ⟨⟨1990, 2, 17⟩, ⟨[], []⟩, [0xBC], []⟩ ∧
    ¬ AgeRecordDetermined .on ⟨⟨1980, 2, 17⟩, ⟨[], []⟩, [0xBC], []⟩ := by
  have hother : Surface.AgeRecord.parse .on signatureFirstOther =
      .ok ⟨⟨1990, 2, 17⟩, ⟨[], []⟩, [0xBC], []⟩ := by decide +kernel
  refine ⟨by decide +kernel, hother, ?_⟩
  intro hdet
  exact absurd (hdet signatureFirstOther _ hother rfl).1 (by decide)

end records

end MynaCard.SignedRecords
