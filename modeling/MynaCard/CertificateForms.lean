import MynaCard.BerGrammar
import MynaCard.Data

/-!
# The two forms of a card-verifiable certificate

A certificate comes wrapped in its `7F21` template or as the template's contents.
`CardVerifiableCertificate::parse` tells the two apart by the first two bytes, and reads the same
certificate off both, whatever definite length the template has and whatever follows it, as long as
the length takes at most eight bytes (`one_meaning`). What is signed fixes the two key identifiers
and the key, whatever else the contents hold.
-/

namespace MynaCard

open Ber

/-! ### Length encodings -/

/-- The definite lengths of BER: one byte below `80`, or `80` plus a count and that many bytes,
leading zeros allowed. -/
inductive DefiniteLength : Bytes → ℕ → Prop
  | short (b : UInt8) (h : b < 0x80) : DefiniteLength [b] b.toNat
  | long (b : UInt8) (bs : Bytes) (h : b.toNat = 0x80 + bs.length) (hpos : 1 ≤ bs.length)
      (hle : bs.length ≤ 126) : DefiniteLength (b :: bs) (bigEndian bs)

/-- The reader takes the definite lengths of at most nine bytes. -/
theorem DefiniteLength.lengthField {l : Bytes} {n : ℕ} (h : DefiniteLength l n)
    (hle : l.length ≤ 9) : LengthField l n := by
  cases h with
  | short b h => exact .short b h
  | long b bs h hpos _ =>
    rw [List.length_cons] at hle
    exact .long b bs h hpos (by omega)

/-- It does not take the longer ones, also where what they say is small. -/
theorem DefiniteLength.lengthField_append {l : Bytes} {n : ℕ} (h : DefiniteLength l n)
    (hlong : 9 < l.length) (front post : Bytes) :
    Ber.lengthField (front ++ (l ++ post)) front.length =
      malformed "TLV length does not fit in usize" := by
  cases h with
  | short b h => simp at hlong
  | long b bs h hpos hle =>
    have hfirst : (front ++ (b :: bs ++ post))[front.length]? = some b := by simp
    obtain ⟨hlarge, hcount⟩ := count_of_long h
    rw [List.length_cons] at hlong
    unfold Ber.lengthField
    rw [hfirst]
    show (if b < 0x80 then _ else _) = _
    rw [if_neg hlarge]
    simp only [hcount, show bs.length ≠ 0 from by omega, show bs.length > 8 from by omega,
      if_true, if_false]

namespace CardVerifiableCertificate

variable {oc : OverflowChecks} {c l s : Bytes}

/-! ### With and without the template -/

theorem templateTag : TagField [0x7F, 0x21] :=
  .multi 0x7F [0x21] (by decide) (.last 0x21 (by decide)) (by decide)

/-- What `parse` does depends on the template's contents only. -/
theorem parse_eq_of_contents {data : Bytes} (h : contents oc data = contents oc c) :
    parse oc data = parse oc c := by
  unfold parse
  rw [h]

theorem contents_bare (h : ¬ [0x7F, 0x21] <+: c) : contents oc c = .ok c := by
  rw [contents, if_neg h]
  rfl

/-- The contents come out of the template, whatever follows it. -/
theorem contents_wrapped (hl : LengthField l c.length)
    (hsize : ([0x7F, 0x21] ++ l ++ c).length < usizeSize) :
    contents oc ([0x7F, 0x21] ++ l ++ c ++ s) = .ok c := by
  let o : Obj := ⟨[0x7F, 0x21] ++ l, 0x7F21, c, [0x7F, 0x21], l, rfl, templateTag, hl, rfl, rfl⟩
  have hparse : Ber.parse oc ([0x7F, 0x21] ++ l ++ c ++ s) = .ok o.tlv :=
    parse_raw_append oc o hsize s
  have hfront : [0x7F, 0x21] <+: [0x7F, 0x21] ++ l ++ c ++ s := ⟨l ++ c ++ s, by simp⟩
  rw [contents, if_pos hfront, hparse]
  rfl

/-- A template whose length is too long for the reader is reported. -/
theorem parse_overlong (hl : DefiniteLength l c.length) (hlong : 9 < l.length) :
    parse oc ([0x7F, 0x21] ++ l ++ c ++ s) = malformed "TLV length does not fit in usize" := by
  have hfront : [0x7F, 0x21] <+: [0x7F, 0x21] ++ l ++ c ++ s := ⟨l ++ c ++ s, by simp⟩
  have hheader : parseHeader ([0x7F, 0x21] ++ l ++ c ++ s) =
      malformed "TLV length does not fit in usize" := by
    have htag := tagField_append templateTag (l ++ (c ++ s))
    have hlen := hl.lengthField_append hlong [0x7F, 0x21] (c ++ s)
    rw [List.append_assoc, List.append_assoc, parseHeader, htag]
    show (Ber.lengthField ([0x7F, 0x21] ++ (l ++ (c ++ s))) [0x7F, 0x21].length >>= _) = _
    rw [hlen]
    rfl
  rw [parse, contents, if_pos hfront, Ber.parse, hheader]
  rfl

/-! ### What is signed -/

/-- An identifier is the bytes it was parsed from. -/
theorem keyId_bytes_of_parse {b : Bytes} {keyId : KeyId} (h : KeyId.parse b = .ok keyId) :
    keyId.bytes = b := by
  unfold KeyId.parse at h
  split at h
  · split at h
    · cases h
    · rw [← Except.ok.inj h]
  · cases h

/-- The identifiers and the key are cut out of the signed bytes. -/
theorem of_parse {data : Bytes} {r : CardVerifiableCertificate} (h : parse oc data = .ok r) :
    r.issuerKeyId.bytes = r.signedData.take 16 ∧
      r.subjectKeyId.bytes = (r.signedData.drop 16).take 16 ∧
      RsaPublicKey.parse oc (r.signedData.drop 32) = .ok r.publicKey := by
  unfold parse at h
  obtain ⟨inner, -, h⟩ := Run.bind_eq_ok.mp h
  obtain ⟨found, -, h⟩ := Run.bind_eq_ok.mp h
  obtain ⟨body, -, h⟩ := Run.bind_eq_ok.mp h
  split at h
  · cases h
  obtain ⟨issuer, hissuer, h⟩ := Run.bind_eq_ok.mp h
  obtain ⟨subject, hsubject, h⟩ := Run.bind_eq_ok.mp h
  obtain ⟨key, hkey, h⟩ := Run.bind_eq_ok.mp h
  obtain ⟨signature, -, h⟩ := Run.bind_eq_ok.mp h
  cases h
  exact ⟨keyId_bytes_of_parse hissuer, keyId_bytes_of_parse hsubject, hkey⟩

theorem keyId_eq {a b : KeyId} (h : a.bytes = b.bytes) : a = b := by
  cases a
  cases b
  congr

/-- **One meaning per certificate.** The wrapped form and the contents parse alike, the identifiers
are the first two sixteen bytes of what is signed, and what is signed fixes them and the key. -/
theorem one_meaning (oc : OverflowChecks) :
    (∀ c l s : Bytes, ¬ [0x7F, 0x21] <+: c → DefiniteLength l c.length →
      ([0x7F, 0x21] ++ l ++ c ++ s).length ≤ isizeMax →
        (l.length ≤ 9 → parse oc ([0x7F, 0x21] ++ l ++ c ++ s) = parse oc c) ∧
        (9 < l.length → parse oc ([0x7F, 0x21] ++ l ++ c ++ s) =
          malformed "TLV length does not fit in usize")) ∧
    ∀ data data' r r', parse oc data = .ok r → parse oc data' = .ok r' →
      r.signedData = r'.signedData →
        r.issuerKeyId = r'.issuerKeyId ∧ r.subjectKeyId = r'.subjectKeyId ∧
        r.publicKey = r'.publicKey ∧ r.issuerKeyId.bytes = r.signedData.take 16 ∧
        r.subjectKeyId.bytes = (r.signedData.drop 16).take 16 := by
  constructor
  · intro c l s hc hl hsize
    refine ⟨fun hle => ?_, parse_overlong hl⟩
    have hfits : ([0x7F, 0x21] ++ l ++ c).length < usizeSize := by
      rw [List.length_append] at hsize
      unfold isizeMax at hsize
      unfold usizeSize
      omega
    apply parse_eq_of_contents
    rw [contents_wrapped (hl.lengthField hle) hfits, contents_bare hc]
  · intro data data' r r' h h' hsigned
    obtain ⟨hissuer, hsubject, hkey⟩ := of_parse h
    obtain ⟨hissuer', hsubject', hkey'⟩ := of_parse h'
    rw [hsigned] at hissuer hsubject hkey
    refine ⟨keyId_eq (hissuer.trans hissuer'.symm), keyId_eq (hsubject.trans hsubject'.symm),
      Except.ok.inj (hkey.symm.trans hkey'), ?_, ?_⟩
    · rw [hissuer, hsigned]
    · rw [hsubject, hsigned]

/-- A certificate without its template: the identifier `5000023/001` twice, a key, a signature. -/
def certificateContents : Bytes :=
  let keyId : Bytes := [0x35, 0x30, 0x30, 0x30, 0x30, 0x32, 0x33, 0x2F, 0x2F, 0x30, 0x30, 0x31, 0x20,
    0x20, 0x20, 0x20]
  [0x5F, 0x4E, 0x82, 0x01, 0x29] ++ keyId ++ keyId ++
    [0x90, 0x03, 0x01, 0x00, 0x01, 0x91, 0x82, 0x01, 0x00] ++ List.replicate 256 0xC1 ++
    [0x5F, 0x37, 0x01, 0x00]

/-- The length of these contents, 306, in nine bytes. -/
def nineByteLength : Bytes := [0x89, 0, 0, 0, 0, 0, 0, 0, 0x01, 0x32]

/-- The template with that length is rejected, its contents are accepted. -/
theorem nineByteLength_rejected :
    ¬ [0x7F, 0x21] <+: certificateContents ∧
      DefiniteLength nineByteLength certificateContents.length ∧
      (parse .on certificateContents).toOption.isSome ∧
      parse .on ([0x7F, 0x21] ++ nineByteLength ++ certificateContents ++ []) =
        malformed "TLV length does not fit in usize" := by
  have hlength : DefiniteLength nineByteLength certificateContents.length := by
    have hcount : certificateContents.length = bigEndian [0, 0, 0, 0, 0, 0, 0, 0x01, 0x32] := by
      decide +kernel
    rw [hcount]
    exact .long 0x89 [0, 0, 0, 0, 0, 0, 0, 0x01, 0x32] (by decide) (by decide) (by decide)
  exact ⟨by decide +kernel, hlength, by decide +kernel, parse_overlong hlength (by decide)⟩

end CardVerifiableCertificate

end MynaCard
