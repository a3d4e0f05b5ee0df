import MynaCard.ReadingRuns
import MynaCard.WrittenCertificates
import MynaCard.WrittenFiles

/-!
# From the issuer to the reader

A personalised card: its EFs hold files as their issuer wrote them, with whatever is behind them, and
its keys open them. `Written` lists the files of the wrappers' typed reads with the values they are
written from. **The holder of a key is shown what the issuer wrote** (`holder_reads_written`), through
any run of the wrappers' operations, and however the file is written.
-/

namespace MynaCard

open Ber Dialogue

/-! ### Files off a card -/

/-- An object that is written is what is read of its file. -/
theorem plainResult_object (pf : Platform) (w : Writer) {tag : ℕ} {value post : Bytes}
    (htag : isTag tag = true) (hsize : (w.object tag value ++ post).length ≤ 0x8000) :
    FileCard.plainResult pf (w.object tag value ++ post) = .ok (w.object tag value) := by
  have hlen := hsize
  rw [List.length_append, w.object_length] at hlen
  have hparse := w.parseHeader_object htag (by unfold usizeSize; omega : value.length < usizeSize) post
  have hheader := parseHeader_headerLen hparse
  have hnil : w.object tag value ++ post ≠ [] := by
    intro hnil
    rw [hnil] at hparse
    have hle := (parseHeader_headerLen_le hparse).1
    rw [List.length_nil] at hle
    omega
  have hfirst := parseHeader_take (n := 256) hparse (by omega)
  have htotal : (w.hdr tag value.length).length + value.length = (w.object tag value).length :=
    (w.object_length tag value).symm
  have htrim := (plainResult_eq_take_iff pf hnil hfirst
    (by unfold usizeSize; dsimp only; omega)).mpr
    (.inl (by dsimp only; rw [List.length_append, w.object_length]; omega))
  dsimp only at htrim
  rw [htrim, htotal, List.take_left]

theorem Reading.value_object {α : Type} {r : Reading α} (hphysical : r.physical = false)
    (pf : Platform) (w : Writer) {tag : ℕ} {value post : Bytes} (htag : isTag tag = true)
    (hsize : (w.object tag value ++ post).length ≤ 0x8000) {a : α}
    (hparse : r.parse (w.object tag value ++ []) = .ok a) :
    r.value pf (w.object tag value ++ post) = .ok a := by
  rw [List.append_nil] at hparse
  rw [Reading.value, hphysical, plainResult_object pf w htag hsize]
  exact hparse

/-! ### The files of the typed reads -/

section

variable (rsa : RsaCrate) (x509 : X509Crate) (pf : Platform)

/-- The file of a read, and what it is written from. -/
inductive Written : {α : Type} → Reading α → Bytes → α → Prop
  | surfaceApBasicData (w : Writer) {b : Surface.ApBasicData} {filler : Bytes}
      (hkey : b.publicKeyId.Digits) (hreference : b.encryptedReferenceNumber.keyId.Digits)
      (hfiller : StartsFiller filler) :
      Written ⟨SurfaceAp.df, SurfaceAp.Ef.apBasicData, false, Surface.ApBasicData.parse pf⟩
        (Surface.ApBasicData.file w b filler) b
  | ageRecord (i : Issuer) {birthDate : Date} (publicKey : RsaPublicKey) {filler : Bytes}
      (hdate : birthDate.Statable) (hfiller : StartsFiller filler) :
      Written ⟨SurfaceAp.df, SurfaceAp.Ef.ageRecord, false, Surface.AgeRecord.parse pf⟩
        (Surface.AgeRecord.file i rsa birthDate publicKey filler)
        (.issued i rsa birthDate publicKey)
  | cardFace (i : Issuer) {c : Surface.CardFace.Contents} {filler : Bytes}
      (hbirth : c.birthDate.Statable) (hexpiry : c.expiry.Statable)
      (hfiller : StartsFiller filler) :
      Written ⟨SurfaceAp.df, SurfaceAp.Ef.cardFace, false, Surface.CardFace.parse pf⟩
        (Surface.CardFace.file i rsa c filler) (.issued i rsa c)
  | myNumberImage (i : Issuer) (image : Bytes) (publicKey : RsaPublicKey) {filler : Bytes}
      (hfiller : StartsFiller filler) :
      Written ⟨SurfaceAp.df, SurfaceAp.Ef.myNumberImage, false, Surface.MyNumberImage.parse pf⟩
        (Surface.MyNumberImage.file i rsa image publicKey filler) (.issued i rsa image publicKey)
  | surfaceCertificate {a subject : Authority} {extra : List (ℕ × Bytes)} {filler : Bytes}
      (h : CardVerifiableCertificate.Certifies a subject)
      (hextra : CardVerifiableCertificate.Beside extra) (hfiller : StartsFiller filler) :
      Written ⟨SurfaceAp.df, SurfaceAp.Ef.certificate, false, CardVerifiableCertificate.parse pf⟩
        (CardVerifiableCertificate.file rsa a subject extra filler) (.issued rsa a subject)
  | myNumber (w : Writer) (n : MyNumber) :
      Written ⟨TextAp.df, TextAp.Ef.myNumber, false, Text.parseMyNumber pf⟩
        (Text.myNumberFile w n) n
  | attributes (w : Writer) (name address : String) {birthDate : Date} (sex : UInt8)
      {filler : Bytes} (hdate : birthDate.Statable) (hfiller : StartsFiller filler) :
      Written ⟨TextAp.df, TextAp.Ef.attributes, false, Text.Attributes.parse pf⟩
        (Text.Attributes.file w name address birthDate sex filler)
        ⟨name, address, birthDate, .fromByte sex⟩
  | textCertificate {a subject : Authority} {extra : List (ℕ × Bytes)} {filler : Bytes}
      (h : CardVerifiableCertificate.Certifies a subject)
      (hextra : CardVerifiableCertificate.Beside extra) (hfiller : StartsFiller filler) :
      Written ⟨TextAp.df, TextAp.Ef.certificate, false, CardVerifiableCertificate.parse pf⟩
        (CardVerifiableCertificate.file rsa a subject extra filler) (.issued rsa a subject)
  | textApBasicData (w : Writer) {b : Text.ApBasicData} {filler : Bytes}
      (hkey : b.publicKeyId.Digits) (hfiller : StartsFiller filler) :
      Written ⟨TextAp.df, TextAp.Ef.apBasicData, false, Text.ApBasicData.parse pf⟩
        (Text.ApBasicData.file w b filler) b
  | integrityRecord (i : Issuer) (myNumberFile attributesSource : Bytes) {filler : Bytes}
      (hfiller : StartsFiller filler) :
      Written ⟨TextAp.df, TextAp.Ef.integrity, false, Text.IntegrityRecord.parse pf⟩
        (Text.IntegrityRecord.file i rsa myNumberFile attributesSource filler)
        (.issued i rsa myNumberFile attributesSource)
  | signedPublicKey (i : Issuer) (publicKey : RsaPublicKey) {filler : Bytes}
      (hfiller : StartsFiller filler) :
      Written ⟨TextAp.df, TextAp.Ef.signedPublicKey, false, Text.SignedPublicKey.parse pf⟩
        (Text.SignedPublicKey.file i rsa publicKey filler) (.issued i rsa publicKey)
  | sessionKeyPublicKey (w : Writer) (k : Text.SessionKeyPublicKey) {filler : Bytes}
      (hfiller : StartsFiller filler) :
      Written ⟨TextAp.df, TextAp.Ef.sessionKeyPublicKey, false, Text.SessionKeyPublicKey.parse pf⟩
        (Text.SessionKeyPublicKey.file w k filler) k
  /-- one of the four X.509 certificates -/
  | certificate (w : Writer) (id : UInt16) {contents : Bytes} {certificate : Certificate x509}
      (hparse : Certificate.parse x509 (w.object 0x30 contents) = .ok certificate) :
      Written ⟨JpkiAp.df, id, false, Certificate.parse x509⟩ (w.object 0x30 contents) certificate

variable {rsa x509 pf}

/-- What a read gives of the file is what it was written from, whatever is behind it. -/
theorem Written.value_eq {α : Type} {r : Reading α} {file : Bytes} {a : α}
    (h : Written rsa x509 pf r file a) {post : Bytes} (hsize : (file ++ post).length ≤ 0x8000) :
    r.value pf (file ++ post) = .ok a := by
  have hfile : file.length < usizeSize := by
    rw [List.length_append] at hsize
    unfold usizeSize
    omega
  have hstarts : ∀ start, start ≤ file.length → start < 65536 := by
    intro start hstart
    rw [List.length_append] at hsize
    omega
  cases h with
  | surfaceApBasicData w hkey hreference hfiller =>
    exact Reading.value_object rfl pf w (by decide) hsize
      (Surface.ApBasicData.parse_file pf hkey hreference hfiller hfile [])
  | ageRecord i publicKey hdate hfiller =>
    exact Reading.value_object rfl pf i.writer (by decide) hsize
      (Surface.AgeRecord.parse_file pf hdate hfiller hfile [])
  | cardFace i hbirth hexpiry hfiller =>
    exact Reading.value_object rfl pf i.writer (by decide) hsize
      (Surface.CardFace.parse_file pf hbirth hexpiry hfiller hfile
        (fun start hstart => hstarts start (Writer.positions_le_file hstart)) [])
  | myNumberImage i image publicKey hfiller =>
    exact Reading.value_object rfl pf i.writer (by decide) hsize
      (Surface.MyNumberImage.parse_file pf hfiller hfile [])
  | @surfaceCertificate a subject extra filler h hextra hfiller
  | @textCertificate a subject extra filler h hextra hfiller =>
    exact Reading.value_object rfl pf a.writer (by decide) hsize
      (CardVerifiableCertificate.parse_file pf h hextra hfile hfiller [])
  | myNumber w n =>
    exact Reading.value_object rfl pf w (by decide) hsize (Text.parse_myNumberFile pf hfile [])
  | attributes w name address sex hdate hfiller =>
    refine Reading.value_object rfl pf w (by decide) hsize ?_
    rw [List.append_nil]
    exact Text.Attributes.parse_file pf hdate hfiller hfile
      fun start hstart => hstarts start (Writer.positions_le_file hstart)
  | textApBasicData w hkey hfiller =>
    exact Reading.value_object rfl pf w (by decide) hsize
      (Text.ApBasicData.parse_file pf hkey hfiller hfile [])
  | integrityRecord i myNumberFile attributesSource hfiller =>
    exact Reading.value_object rfl pf i.writer (by decide) hsize
      (Text.IntegrityRecord.parse_file pf hfiller hfile [])
  | signedPublicKey i publicKey hfiller =>
    exact Reading.value_object rfl pf i.writer (by decide) hsize
      (Text.SignedPublicKey.parse_file pf hfiller hfile [])
  | sessionKeyPublicKey w k hfiller =>
    exact Reading.value_object rfl pf w (by decide) hsize
      (Text.SessionKeyPublicKey.parse_file pf hfiller hfile [])
  | certificate w id hparse =>
    refine Reading.value_object rfl pf w (by decide) hsize ?_
    rw [List.append_nil]
    exact hparse

end

/-! ### Personalised cards -/

/-- **The holder of a key is shown what the issuer wrote.** In any run of the wrappers' operations off
a card whose keys open its files: once a key of the file was presented in its application and the
operation returned `Ok`, and as long as none leaves the application or presents the key and fails, the
typed read of the file gives what the file was written from, whatever is behind it. -/
theorem holder_reads_written {τ α : Type} {held : Holdings} {answer : Bytes → τ → Answer × τ}
    {view : τ → KeyCard} {unlocked : τ → Set UInt16} (h : GuardsFiles held answer view unlocked)
    {rsa : RsaCrate} {x509 : X509Crate} {pf : Platform} {fuel : ℕ} {x : CardM α}
    {r : Reading α} (hread : IsRead x509 pf fuel x r) {file post : Bytes} {a : α}
    (hwritten : Written rsa x509 pf r file a) (hfile : held.files r.df r.ef = some (file ++ post))
    (hsize : (file ++ post).length ≤ 0x8000) (ops : List WrapperOperation) (s : τ) {k : UInt16}
    (hk : k ∈ held.openers r.df r.ef) {e : Entry τ} {before after : List (Entry τ)}
    (hlog : entries answer rsa x509 pf fuel ops s = before ++ e :: after)
    (hdf : (view e.1).vault.df = r.df) (hlogs : LogsIn k e)
    (hstays : ∀ e' ∈ after, ¬ Leaves view e' ∧ ¬ Fails k e') :
    (x.run.run answer (afterOperations answer rsa x509 pf fuel ops s)).1 = .ok a := by
  obtain ⟨hselected, hopen⟩ := open_since_login h rsa x509 pf fuel ops s hk hlog hdf hlogs hstays
  rw [(h.read_run hread hselected hfile hsize).1 hopen]
  exact hwritten.value_eq hsize

/-- The attributes, behind the PIN. -/
theorem holder_reads_written_attributes :
    ((TextAp.readAttributes .checked 0).run.run numberAnswer
        (afterOperations numberAnswer .pkcs1 .blank .checked 0 login numberCard)).1 =
      .ok ⟨"卷", "A", ⟨1980, 2, 17⟩, .male⟩ := by
  obtain ⟨before, e, after, hlog, hdf, hlogs, hstays⟩ := login_entries
  have hfile : heldText.files TextAp.df TextAp.Ef.attributes =
      some (Text.Attributes.file .der "卷" "A" ⟨1980, 2, 17⟩ 0x31 [0x00] ++ [0xFF]) := by
    decide +kernel
  exact holder_reads_written FilesCard.transmit_guardsFiles .attributes
    (.attributes .der "卷" "A" 0x31 ⟨by decide, by decide, by decide⟩ startsFiller_zero) hfile
    (by decide +kernel) login numberCard (List.mem_cons_self : TextAp.Ef.pin ∈ [_, _]) hlog hdf hlogs
    hstays

end MynaCard
