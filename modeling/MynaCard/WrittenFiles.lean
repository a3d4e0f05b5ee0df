import MynaCard.DigestedAttributes
import MynaCard.Utf8Text
import MynaCard.WrittenRecords

/-!
# The other data files written

The files of the two display applications that carry no signature of their own: the individual number,
the attributes behind their table, the basic information of both applications and the key that a
session is opened with. Each is read back as what was written.

Two of them are vouched for by the integrity record: **an integrity record issued over them matches
them** (`issued_integrity_matches`), the number by its whole file and the attributes by what
follows their table.
-/

namespace MynaCard

open Ber

/-! ### The text application -/

namespace Text

variable (w : Writer)

/-- The file of an individual number. -/
def myNumberFile (n : MyNumber) : Bytes := w.object 0xFF10 n.digits

/-- The four attributes, as fields. -/
def Attributes.fields (name address : String) (birthDate : Date) (sex : UInt8) :
    List (ℕ × Bytes) :=
  [(0xDF22, Utf8.encode name), (0xDF23, Utf8.encode address), (0xDF24, birthDate.digits),
    (0xDF25, [sex])]

/-- What of the file is digested: the fields and the filler behind them. -/
def Attributes.source (name address : String) (birthDate : Date) (sex : UInt8) (filler : Bytes) :
    Bytes :=
  w.objects (fields name address birthDate sex) ++ filler

/-- The file, with the table of where the fields are in it. -/
def Attributes.file (name address : String) (birthDate : Date) (sex : UInt8) (filler : Bytes) :
    Bytes :=
  w.file 0xFF20 (w.indexed 0xFF20 0xDF21 (fields name address birthDate sex) filler) filler

/-- The file of the application's basic information. -/
def ApBasicData.file (b : ApBasicData) (filler : Bytes) : Bytes :=
  w.file 0xFF40 [(0xDF41, b.identification.toBytes), (0xDF42, b.publicKeyId.bytes),
    (0xDF43, b.trailing)] filler

/-- The file of the key a session is opened with. -/
def SessionKeyPublicKey.file (k : SessionKeyPublicKey) (filler : Bytes) : Bytes :=
  w.object 0xA1 (k.publicKey.write w ++ filler)

variable {w} (oc : OverflowChecks)

theorem parse_myNumberFile {n : MyNumber} (hsize : (myNumberFile w n).length < usizeSize)
    (post : Bytes) : parseMyNumber oc (myNumberFile w n ++ post) = .ok n := by
  unfold parseMyNumber
  refine Run.bind_eq_ok.mpr ⟨_, w.parse_object oc (by decide) hsize post, ?_⟩
  rw [if_neg (by simp)]
  exact n.parse_digits

theorem SessionKeyPublicKey.parse_file {k : SessionKeyPublicKey} {filler : Bytes}
    (hfiller : StartsFiller filler) (hsize : (file w k filler).length < usizeSize) (post : Bytes) :
    SessionKeyPublicKey.parse oc (file w k filler ++ post) = .ok k := by
  have hlen := hsize
  rw [file, Writer.object_length, List.length_append] at hlen
  unfold SessionKeyPublicKey.parse
  refine Run.bind_eq_ok.mpr ⟨_, w.parse_object oc (by decide) hsize post, ?_⟩
  rw [if_neg (by simp)]
  exact Run.bind_eq_ok.mpr
    ⟨_, RsaPublicKey.parse_write_append oc w (by omega) hfiller, rfl⟩

theorem ApBasicData.parse_file {b : ApBasicData} {filler : Bytes} (hkey : b.publicKeyId.Digits)
    (hfiller : StartsFiller filler) (hsize : (file w b filler).length < usizeSize) (post : Bytes) :
    ApBasicData.parse oc (file w b filler ++ post) = .ok b := by
  have hwrites : w.Writes 0xFF40 [(0xDF41, b.identification.toBytes),
      (0xDF42, b.publicKeyId.bytes), (0xDF43, b.trailing)] filler :=
    .of_tags [0xDF41, 0xDF42, 0xDF43] rfl (by decide) (by decide) hsize hfiller
  unfold ApBasicData.parse
  refine Run.bind_eq_ok.mpr ⟨_, hwrites.parse_file oc (by simp) post, ?_⟩
  refine Run.bind_eq_ok.mpr ⟨_, Writer.get_tlvFields 0xDF41 _, ?_⟩
  refine Run.bind_eq_ok.mpr ⟨_, b.identification.parse_toBytes, ?_⟩
  refine Run.bind_eq_ok.mpr ⟨_, Writer.get_tlvFields 0xDF42 _, ?_⟩
  refine Run.bind_eq_ok.mpr ⟨_, KeyId.parse_bytes hkey, ?_⟩
  exact Run.bind_eq_ok.mpr ⟨_, Writer.get_tlvFields 0xDF43 _, rfl⟩

/-- The table of an attributes file, and the digested part behind it. -/
theorem Attributes.writes {name address : String} {birthDate : Date} {sex : UInt8}
    {filler : Bytes} (hfiller : StartsFiller filler)
    (hsize : (file w name address birthDate sex filler).length < usizeSize) :
    w.Writes 0xFF20 (w.indexed 0xFF20 0xDF21 (fields name address birthDate sex) filler) filler :=
  .of_tags [0xDF21, 0xDF22, 0xDF23, 0xDF24, 0xDF25] rfl (by decide) (by decide) hsize hfiller

theorem Attributes.ofFields_tlvFields {name address : String} {birthDate : Date}
    (hdate : birthDate.Statable) (sex : UInt8) :
    ofFields (w.tlvFields (fields name address birthDate sex)) =
      .ok ⟨name, address, birthDate, .fromByte sex⟩ := by
  unfold ofFields
  refine Run.bind_eq_ok.mpr ⟨_, Writer.get_tlvFields 0xDF22 _, ?_⟩
  refine Run.bind_eq_ok.mpr ⟨name, orMalformed_eq_ok.mpr (Utf8.fromUtf8_encode name), ?_⟩
  refine Run.bind_eq_ok.mpr ⟨_, Writer.get_tlvFields 0xDF23 _, ?_⟩
  refine Run.bind_eq_ok.mpr ⟨address, orMalformed_eq_ok.mpr (Utf8.fromUtf8_encode address), ?_⟩
  refine Run.bind_eq_ok.mpr ⟨_, Writer.get_tlvFields 0xDF24 _, ?_⟩
  refine Run.bind_eq_ok.mpr ⟨_, Date.parse_digits hdate, ?_⟩
  refine Run.bind_eq_ok.mpr ⟨_, Writer.get_tlvFields 0xDF25 _, ?_⟩
  exact Run.bind_eq_ok.mpr ⟨sex, rfl, rfl⟩

theorem Attributes.parse_file {name address : String} {birthDate : Date} {sex : UInt8}
    {filler : Bytes} (hdate : birthDate.Statable) (hfiller : StartsFiller filler)
    (hsize : (file w name address birthDate sex filler).length < usizeSize)
    (hstarts : ∀ start ∈ w.positions 0xFF20 0xDF21 (fields name address birthDate sex) filler,
      start < 65536) :
    Attributes.parse oc (file w name address birthDate sex filler) =
      .ok ⟨name, address, birthDate, .fromByte sex⟩ := by
  obtain ⟨o, objs, hlayout, htag, hfits, hfields⟩ :=
    (writes hfiller hsize).exists_layout_indexed (by simp [fields]) hstarts []
  rw [List.append_nil] at hlayout
  refine parse_eq_ok_iff.mpr ⟨o, objs, [], hlayout, htag, hfits, ?_⟩
  rw [hfields]
  exact ofFields_tlvFields hdate sex

/-- **What is digested of an attributes file is its fields and its filler.** -/
theorem Attributes.digestSource_file {name address : String} {birthDate : Date} {sex : UInt8}
    {filler : Bytes} (hfiller : StartsFiller filler)
    (hsize : (file w name address birthDate sex filler).length < usizeSize) (post : Bytes) :
    digestSource oc (file w name address birthDate sex filler ++ post) =
      .ok (source w name address birthDate sex filler) := by
  have hwrites := writes hfiller hsize
  have htable := hwrites.value_length_lt List.mem_cons_self
  have hvalue : w.objects (w.indexed 0xFF20 0xDF21 (fields name address birthDate sex) filler) ++
      filler = w.object 0xDF21 (tableOf (w.positions 0xFF20 0xDF21
        (fields name address birthDate sex) filler)) ++ source w name address birthDate sex filler :=
    List.append_assoc _ _ _
  have hlen := hsize
  rw [file, Writer.file, Writer.object_length, hvalue, List.length_append,
    Writer.object_length] at hlen
  unfold digestSource
  refine Run.bind_eq_ok.mpr ⟨_, w.parse_object oc (by decide) hsize post, ?_⟩
  rw [if_neg (by simp), hvalue]
  refine Run.bind_eq_ok.mpr ⟨_, w.parseHeader_object (by decide) htable _, ?_⟩
  rw [if_neg (by simp)]
  refine Run.bind_eq_ok.mpr ⟨_, usizeAdd_of_lt oc (by dsimp only; omega), orMalformed_eq_ok.mpr ?_⟩
  rw [← Writer.object_length]
  exact slice_eq_some.mpr ⟨_, [], (List.append_nil _).symm, rfl, (List.length_append ..).symm⟩

variable {i : Issuer} {rsa : RsaCrate}

/-- **An integrity record issued over two files matches them**: the file of the number as it is
stored, and the file of the attributes with whatever follows it. The attributes that are matched are
the ones that are shown. -/
theorem issued_integrity_matches (hi : i.Signs rsa) (oc : OverflowChecks) {name address : String}
    {birthDate : Date} {sex : UInt8} {attributesFiller filler : Bytes} (hdate : birthDate.Statable)
    (hattributesFiller : StartsFiller attributesFiller) (hfiller : StartsFiller filler)
    (hsize : (Attributes.file w name address birthDate sex attributesFiller).length < usizeSize)
    (hstarts : ∀ start ∈ w.positions 0xFF20 0xDF21 (Attributes.fields name address birthDate sex)
      attributesFiller, start < 65536)
    (physical : Bytes)
    (hrecord : (IntegrityRecord.file i rsa physical
      (Attributes.source w name address birthDate sex attributesFiller) filler).length < usizeSize)
    (post post' : Bytes) :
    ∃ r, IntegrityRecord.parse oc (IntegrityRecord.file i rsa physical
          (Attributes.source w name address birthDate sex attributesFiller) filler ++ post) = .ok r ∧
      r.verify rsa i.publicKey = .ok () ∧ r.matchesMyNumberFile rsa physical = true ∧
      r.matchesAttributesFile rsa oc
        (Attributes.file w name address birthDate sex attributesFiller ++ post') = .ok true ∧
      Attributes.parse oc (Attributes.file w name address birthDate sex attributesFiller) =
        .ok ⟨name, address, birthDate, .fromByte sex⟩ := by
  refine ⟨_, IntegrityRecord.parse_file oc hfiller hrecord post, hi.verifyPkcs1Sha256 _,
    decide_eq_true rfl, ?_, Attributes.parse_file oc hdate hattributesFiller hsize hstarts⟩
  unfold IntegrityRecord.matchesAttributesFile
  refine Run.bind_eq_ok.mpr
    ⟨_, Attributes.digestSource_file oc hattributesFiller hsize post', ?_⟩
  exact congrArg Except.ok (decide_eq_true rfl)

/-- A record over the attributes of a few bytes, and twelve digits with their filler. -/
theorem issued_integrity_matches_small :
    ∃ r, IntegrityRecord.parse .on (IntegrityRecord.file syntheticIssuer .pkcs1
          (myNumberFile .der ⟨List.replicate 12 0x31, by decide, by decide⟩ ++ [0xFF, 0xFF])
          (Attributes.source .der "卷" "A" ⟨1980, 2, 17⟩ 0x31 [0x00]) [] ++ [0x00]) = .ok r ∧
      r.verify .pkcs1 syntheticKey = .ok () ∧
      r.matchesMyNumberFile .pkcs1
        (myNumberFile .der ⟨List.replicate 12 0x31, by decide, by decide⟩ ++ [0xFF, 0xFF]) = true ∧
      r.matchesAttributesFile .pkcs1 .on
        (Attributes.file .der "卷" "A" ⟨1980, 2, 17⟩ 0x31 [0x00] ++ [0xFF]) = .ok true ∧
      Attributes.parse .on (Attributes.file .der "卷" "A" ⟨1980, 2, 17⟩ 0x31 [0x00]) =
        .ok ⟨"卷", "A", ⟨1980, 2, 17⟩, .male⟩ :=
  issued_integrity_matches syntheticIssuer_signs .on ⟨by decide, by decide, by decide⟩ startsFiller_zero
    startsFiller_nil (by decide +kernel) (by decide +kernel) _ (by decide +kernel) [0x00] [0xFF]

end Text

/-! ### The surface application -/

namespace Surface

/-- The file of the application's basic information. -/
def ApBasicData.file (w : Writer) (b : ApBasicData) (filler : Bytes) : Bytes :=
  w.file 0xFF30 [(0xDF31, b.identification.toBytes), (0xDF32, b.publicKeyId.bytes),
    (0xDF33, [b.version]), (0xDF34, Utf8.encode b.municipalityCode),
    (0xDF35, b.encryptedReferenceNumber.keyId.bytes ++ b.encryptedReferenceNumber.data)] filler

theorem ApBasicData.parse_file (oc : OverflowChecks) {w : Writer} {b : ApBasicData}
    {filler : Bytes} (hkey : b.publicKeyId.Digits)
    (hreference : b.encryptedReferenceNumber.keyId.Digits) (hfiller : StartsFiller filler)
    (hsize : (file w b filler).length < usizeSize) (post : Bytes) :
    ApBasicData.parse oc (file w b filler ++ post) = .ok b := by
  obtain ⟨identification, publicKeyId, version, municipalityCode, ⟨keyId, data⟩⟩ := b
  have hlen := keyId.length_eq
  have hwrites : w.Writes 0xFF30 [(0xDF31, identification.toBytes), (0xDF32, publicKeyId.bytes),
      (0xDF33, [version]), (0xDF34, Utf8.encode municipalityCode), (0xDF35, keyId.bytes ++ data)]
      filler :=
    .of_tags [0xDF31, 0xDF32, 0xDF33, 0xDF34, 0xDF35] rfl (by decide) (by decide) hsize hfiller
  unfold ApBasicData.parse
  refine Run.bind_eq_ok.mpr ⟨_, hwrites.parse_file oc (by simp) post, ?_⟩
  refine Run.bind_eq_ok.mpr ⟨[version], Writer.get_tlvFields 0xDF33 _, ?_⟩
  refine Run.bind_eq_ok.mpr ⟨keyId.bytes ++ data, Writer.get_tlvFields 0xDF35 _, ?_⟩
  rw [if_neg (by rw [List.length_append]; omega)]
  refine Run.bind_eq_ok.mpr ⟨_, Writer.get_tlvFields 0xDF31 _, ?_⟩
  refine Run.bind_eq_ok.mpr ⟨_, identification.parse_toBytes, ?_⟩
  refine Run.bind_eq_ok.mpr ⟨_, Writer.get_tlvFields 0xDF32 _, ?_⟩
  refine Run.bind_eq_ok.mpr ⟨_, KeyId.parse_bytes hkey, ?_⟩
  refine Run.bind_eq_ok.mpr ⟨version, rfl, ?_⟩
  refine Run.bind_eq_ok.mpr ⟨_, Writer.get_tlvFields 0xDF34 _, ?_⟩
  rw [List.take_left' hlen, List.drop_left' hlen]
  refine Run.bind_eq_ok.mpr ⟨_, KeyId.parse_bytes hreference, ?_⟩
  show Except.ok _ = _
  rw [Utf8.fromUtf8Lossy_encode]

end Surface

end MynaCard
