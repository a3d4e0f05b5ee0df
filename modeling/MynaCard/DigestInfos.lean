import MynaCard.BerIteration
import MynaCard.Data

/-!
# The `DigestInfo` of a digest

`sha256_digest_info` writes two lengths by hand. The outer one has the form `81` from 128 on, the
inner one is always one byte. What it gives is the `DigestInfo` of the digest up to 127 bytes
(`isDigestInfo_iff`); beyond, the byte in front of the digest announces more length bytes, or none,
and no reader finds the digest. Different digests have different results at any length, since the
length of the result tells the length of the digest.
-/

namespace MynaCard

open Ber

/-! ### Digests and results -/

/-- What stands inside the outer object. -/
def digestInfoContents (digest : Bytes) : Bytes :=
  sha256Algorithm ++ ([0x04, UInt8.ofNat digest.length] ++ digest)

theorem digestInfoContents_length (digest : Bytes) :
    (digestInfoContents digest).length = 17 + digest.length := by
  simp [digestInfoContents, sha256Algorithm]
  omega

theorem sha256DigestInfo_eq (digest : Bytes) :
    sha256DigestInfo digest =
      (if 17 + digest.length < 0x80 then [0x30, UInt8.ofNat (17 + digest.length)]
        else [0x30, 0x81, UInt8.ofNat (17 + digest.length)]) ++ digestInfoContents digest := by
  simp [sha256DigestInfo, digestInfoContents, sha256Algorithm]

/-- Different digests give different results, of whatever lengths. -/
theorem sha256DigestInfo_injective : Function.Injective sha256DigestInfo := by
  intro d d' h
  apply sha256DigestInfo_inj ?_ h
  -- a result is 19 or 20 bytes longer than its digest, the first up to 129 bytes only
  have hlen := congrArg List.length h
  rw [sha256DigestInfo_eq, sha256DigestInfo_eq, List.length_append, List.length_append,
    digestInfoContents_length, digestInfoContents_length] at hlen
  split at hlen <;> split at hlen <;>
    simp only [List.length_cons, List.length_nil] at hlen <;> omega

/-! ### Objects with a one byte tag -/

/-- Whatever the byte after `81`, it is the length. -/
theorem isHeader_81 (tag : UInt8) (htag : tag &&& 0x1F ≠ 0x1F) (b : UInt8) :
    IsHeader [tag, 0x81, b] ⟨tag.toNat, b.toNat, 3⟩ := by
  have hl := LengthField.long 0x81 [b] rfl (by simp) (by simp)
  rw [bigEndian_singleton] at hl
  exact ⟨[tag], [0x81, b], rfl, .single tag htag, hl, (bigEndian_singleton tag).symm, rfl⟩

/-- The `AlgorithmIdentifier` as an object. -/
def algorithmObj : Obj := .short 0x30 (sha256Algorithm.drop 2) (by decide) (by decide)

theorem algorithmObj_raw : algorithmObj.raw = sha256Algorithm := rfl

theorem algorithmObj_notFiller : algorithmObj.NotFiller := by
  intro b hb
  obtain rfl : 0x30 = b := Option.some.inj hb
  rfl

/-! ### Reading a `DigestInfo` -/

/-- `der` is one definite-length object with tag `30` and nothing behind it, and in it are the
`AlgorithmIdentifier` of SHA-256 and an object of tag `04` with the digest. -/
structure IsDigestInfo (oc : OverflowChecks) (der digest : Bytes) : Prop where
  whole : ∃ header, parseHeader der = .ok header ∧ header.headerLen + header.length = der.length
  contents : ∃ contents, Ber.parse oc der = .ok ⟨0x30, contents⟩ ∧
    Ber.iter oc contents = [.ok ⟨0x30, sha256Algorithm.drop 2⟩, .ok ⟨0x04, digest⟩]

/-- The header in front, as far as its byte for the length can say it. -/
theorem parseHeader_sha256DigestInfo (digest : Bytes) :
    parseHeader (sha256DigestInfo digest) =
      .ok (if 17 + digest.length < 0x80 then ⟨0x30, 17 + digest.length, 2⟩
        else ⟨0x30, (17 + digest.length) % 256, 3⟩) := by
  rw [sha256DigestInfo_eq]
  by_cases hshort : 17 + digest.length < 0x80
  · rw [if_pos hshort, if_pos hshort]
    exact (isHeader_short 0x30 (by decide) hshort).parseHeader_append _
  · rw [if_neg hshort, if_neg hshort]
    have h := isHeader_81 0x30 (by decide) (UInt8.ofNat (17 + digest.length))
    rw [UInt8.toNat_ofNat'] at h
    exact h.parseHeader_append _

/-- An object with the length written in one byte is there when the digest fits it. -/
theorem iter_digestInfoContents (oc : OverflowChecks) {digest : Bytes} (h : digest.length < 0x80) :
    Ber.iter oc (digestInfoContents digest) =
      [.ok ⟨0x30, sha256Algorithm.drop 2⟩, .ok ⟨0x04, digest⟩] := by
  have hplain : (Obj.short 0x04 digest (by decide) h).NotFiller := by
    intro b hb
    obtain rfl : 0x04 = b := Option.some.inj hb
    rfl
  have hcat : digestInfoContents digest =
      concat [algorithmObj, .short 0x04 digest (by decide) h] ++ [] := by
    rw [concat_cons, algorithmObj_raw, List.append_nil, digestInfoContents]
    simp [concat, Obj.raw, Obj.short]
  rw [hcat, iter_concat oc ?_ ?_ startsFiller_nil]
  · rfl
  · intro o ho
    rcases List.mem_pair.mp ho with rfl | rfl
    · exact algorithmObj_notFiller
    · exact hplain
  · rw [← List.append_nil (concat _), ← hcat, digestInfoContents_length]
    unfold usizeSize
    omega

/-- Read behind the `AlgorithmIdentifier`, only a digest that fits one length byte is there. -/
theorem length_le_of_iter {oc : OverflowChecks} {b : UInt8} {digest : Bytes}
    (h : Ber.iter oc (sha256Algorithm ++ ([0x04, b] ++ digest)) =
      [.ok ⟨0x30, sha256Algorithm.drop 2⟩, .ok ⟨0x04, digest⟩]) : digest.length ≤ 127 := by
  have hplain : ¬ StartsFiller ([0x04, b] ++ digest) := by
    intro hfill
    have := hfill 0x04 rfl
    cases this
  rw [← algorithmObj_raw, iter_raw_append oc algorithmObj_notFiller (by decide),
    iter_step oc hplain] at h
  -- the second item is an object read at the byte `04`
  cases hobj : objectAt oc "TLV value is truncated" ([0x04, b] ++ digest) with
  | error e =>
    rw [hobj] at h
    simp at h
  | ok found =>
    obtain ⟨n, t⟩ := found
    rw [hobj] at h
    simp only [List.cons.injEq, Except.ok.injEq] at h
    obtain ⟨o, post, hcat, -, -, rfl⟩ := objectAt_eq_ok_iff.mp hobj
    obtain rfl : o.value = digest := congrArg Tlv.value h.2.1
    obtain ⟨t, l, hhdr, ht, hl, -, -⟩ := o.wf
    have htpos := ht.length_pos
    have hlpos := hl.length_pos
    have hlens := congrArg List.length hcat
    have hhlen := congrArg List.length hhdr
    simp only [List.length_append, List.length_cons, List.length_nil, Obj.raw_length] at hlens hhlen
    -- with the whole digest in it, there is room for one byte of tag and one of length
    rw [Obj.raw, List.append_assoc] at hcat
    obtain ⟨hhdr', -⟩ := List.append_inj hcat
      (by simp only [List.length_cons, List.length_nil]; omega)
    rw [hhdr] at hhdr'
    have hcat' : [0x04] ++ [b] = t ++ l := hhdr'
    obtain ⟨-, rfl⟩ := List.append_inj hcat' (by simp only [List.length_singleton]; omega)
    generalize hn : o.value.length = n at hl ⊢
    cases hl with
    | short _ hlt =>
      rw [UInt8.lt_iff_toNat_lt] at hlt
      exact Nat.le_of_lt_succ hlt
    | long _ bs _ hpos _ => simp at hpos

/-- What `parse` gives of a result whose header tells its length is what stands inside. -/
theorem contents_of_parse {oc : OverflowChecks} {digest contents : Bytes} {header : Header}
    (hheader : parseHeader (sha256DigestInfo digest) = .ok header)
    (hwhole : header.headerLen + header.length = (sha256DigestInfo digest).length)
    (hparse : Ber.parse oc (sha256DigestInfo digest) = .ok ⟨0x30, contents⟩) :
    contents = digestInfoContents digest := by
  obtain ⟨o, post, hder, -, ht⟩ := parse_eq_ok_iff.mp hparse
  obtain rfl : contents = o.value := congrArg Tlv.value ht
  have hobj := o.parseHeader_raw_append post
  rw [← hder, hheader, Except.ok.injEq] at hobj
  have hlens := congrArg List.length hder
  rw [List.length_append, Obj.raw_length, ← hwhole, hobj] at hlens
  obtain rfl : post = [] := List.length_eq_zero_iff.mp (by simp only at hlens; omega)
  rw [List.append_nil, Obj.raw] at hder
  have hhlen : o.hdr.length = header.headerLen := by rw [hobj]
  have hdrop : (sha256DigestInfo digest).drop header.headerLen = o.value := by
    rw [hder, ← hhlen, List.drop_left]
  rw [← hdrop, sha256DigestInfo_eq]
  rw [parseHeader_sha256DigestInfo, Except.ok.injEq] at hheader
  rw [← hheader]
  split <;> rfl

/-- Up to 238 bytes the outer length is right, and the result is one object. -/
theorem exists_obj_of_length_le (digest : Bytes) (h : digest.length ≤ 238) :
    ∃ o : Obj, o.tag = 0x30 ∧ o.value = digestInfoContents digest ∧
      o.raw = sha256DigestInfo digest := by
  have hlen := digestInfoContents_length digest
  by_cases hshort : 17 + digest.length < 0x80
  · have hh := isHeader_short 0x30 (by decide) hshort
    rw [← hlen] at hh
    refine ⟨⟨_, 0x30, digestInfoContents digest, hh⟩, rfl, rfl, ?_⟩
    rw [sha256DigestInfo_eq, if_pos hshort, ← hlen]
    rfl
  · have hh := isHeader_81 0x30 (by decide) (UInt8.ofNat (17 + digest.length))
    rw [UInt8.toNat_ofNat', Nat.mod_eq_of_lt (by omega), ← hlen] at hh
    refine ⟨⟨_, 0x30, digestInfoContents digest, hh⟩, rfl, rfl, ?_⟩
    rw [sha256DigestInfo_eq, if_neg hshort, ← hlen]
    rfl

/-- A digest of up to 127 bytes is found again. -/
theorem isDigestInfo_of_length_le (oc : OverflowChecks) {digest : Bytes}
    (h : digest.length ≤ 127) : IsDigestInfo oc (sha256DigestInfo digest) digest := by
  obtain ⟨o, htag, hvalue, hraw⟩ := exists_obj_of_length_le digest (by omega)
  have hlen := congrArg List.length hvalue
  rw [digestInfoContents_length] at hlen
  have hhlen : o.hdr.length ≤ 13 := (parseHeader_headerLen (o.parseHeader_raw_append [])).2
  rw [← hraw, ← List.append_nil o.raw]
  constructor
  · refine ⟨_, o.parseHeader_raw_append [], ?_⟩
    rw [List.append_nil, Obj.raw_length]
  · refine ⟨o.value, ?_, ?_⟩
    · rw [parse_raw_append oc o ?_ [], Obj.tlv, htag]
      rw [Obj.raw_length]
      unfold usizeSize
      omega
    · rw [hvalue]
      exact iter_digestInfoContents oc (by omega)

/-- **The result is the `DigestInfo` of the digest, and of no other, exactly up to 127 bytes.** -/
theorem isDigestInfo_iff (oc : OverflowChecks) (digest : Bytes) :
    (IsDigestInfo oc (sha256DigestInfo digest) digest ∧
      ∀ other, other ≠ digest → sha256DigestInfo other ≠ sha256DigestInfo digest) ↔
      digest.length ≤ 127 := by
  constructor
  · intro h
    obtain ⟨header, hheader, hwhole⟩ := h.1.whole
    obtain ⟨contents, hparse, hiter⟩ := h.1.contents
    rw [contents_of_parse hheader hwhole hparse, digestInfoContents] at hiter
    exact length_le_of_iter hiter
  · intro hle
    refine ⟨isDigestInfo_of_length_le oc hle, ?_⟩
    intro other hne heq
    exact hne (sha256DigestInfo_injective heq)

/-- A digest of 128 bytes is written as an object of indefinite length. -/
theorem not_isDigestInfo_128 :
    ¬ (IsDigestInfo .on (sha256DigestInfo (List.replicate 128 0)) (List.replicate 128 0) ∧
      ∀ other, other ≠ List.replicate 128 0 →
        sha256DigestInfo other ≠ sha256DigestInfo (List.replicate 128 0)) := by
  intro h
  obtain ⟨header, hheader, hwhole⟩ := h.1.whole
  obtain ⟨contents, hparse, hiter⟩ := h.1.contents
  rw [contents_of_parse hheader hwhole hparse, digestInfoContents] at hiter
  have hle := length_le_of_iter hiter
  rw [List.length_replicate] at hle
  omega

end MynaCard
