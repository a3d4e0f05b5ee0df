import MynaCard.OffsetTables
import MynaCard.SignedRecords

/-!
# Records as cuts of their files

A record is read off the front of its file: bytes behind the outer object change nothing
(`filler_changes_nothing`), and the bytes a signature covers, collected object by object, are one
contiguous piece of the file (`signedData_contiguous`).
-/

namespace MynaCard

open Ber

/-! ### What stands behind the outer object -/

variable {oc : OverflowChecks} {raw : Bytes}

theorem Ber.parse_append {t : Tlv} (h : Ber.parse oc raw = .ok t) (s : Bytes) :
    Ber.parse oc (raw ++ s) = .ok t := by
  obtain ⟨o, post, rfl, hsize, rfl⟩ := parse_eq_ok_iff.mp h
  rw [List.append_assoc]
  exact parse_raw_append oc o hsize (post ++ s)

/-- The fields of a file are those of the file with more bytes behind it. -/
theorem TlvFields.parse_append {tag : ℕ} {offsetTable : Option ℕ} {f : TlvFields}
    (h : TlvFields.parse oc raw tag offsetTable = .ok f) (s : Bytes) :
    TlvFields.parse oc (raw ++ s) tag offsetTable = .ok f := by
  obtain ⟨o, objs, post, hlayout, hrest⟩ := TlvFields.parse_eq_ok_iff.mp h
  exact TlvFields.parse_eq_ok_iff.mpr ⟨o, objs, post ++ s, hlayout.append s, hrest⟩

/-- So is whatever is made of the fields. -/
theorem TlvFields.bind_append {α : Type} {tag : ℕ} {offsetTable : Option ℕ} {k : TlvFields → Run α}
    {r : α} (h : (TlvFields.parse oc raw tag offsetTable >>= k) = .ok r) (s : Bytes) :
    (TlvFields.parse oc (raw ++ s) tag offsetTable >>= k) = .ok r := by
  obtain ⟨f, hf, hk⟩ := Run.bind_eq_ok.mp h
  exact Run.bind_eq_ok.mpr ⟨f, TlvFields.parse_append hf s, hk⟩

theorem Ber.bind_append {α : Type} {k : Tlv → Run α} {r : α}
    (h : (Ber.parse oc raw >>= k) = .ok r) (s : Bytes) :
    (Ber.parse oc (raw ++ s) >>= k) = .ok r := by
  obtain ⟨t, ht, hk⟩ := Run.bind_eq_ok.mp h
  exact Run.bind_eq_ok.mpr ⟨t, Ber.parse_append ht s, hk⟩

/-- **Bytes behind the end of a file change nothing**, whatever they are, for each of the eight
records. -/
theorem filler_changes_nothing (oc : OverflowChecks) (raw s : Bytes) :
    (∀ r, Surface.AgeRecord.parse oc raw = .ok r →
      Surface.AgeRecord.parse oc (raw ++ s) = .ok r) ∧
    (∀ r, Surface.CardFace.parse oc raw = .ok r → Surface.CardFace.parse oc (raw ++ s) = .ok r) ∧
    (∀ r, Surface.MyNumberImage.parse oc raw = .ok r →
      Surface.MyNumberImage.parse oc (raw ++ s) = .ok r) ∧
    (∀ r, Surface.ApBasicData.parse oc raw = .ok r →
      Surface.ApBasicData.parse oc (raw ++ s) = .ok r) ∧
    (∀ r, Text.ApBasicData.parse oc raw = .ok r → Text.ApBasicData.parse oc (raw ++ s) = .ok r) ∧
    (∀ r, Text.IntegrityRecord.parse oc raw = .ok r →
      Text.IntegrityRecord.parse oc (raw ++ s) = .ok r) ∧
    (∀ r, Text.SignedPublicKey.parse oc raw = .ok r →
      Text.SignedPublicKey.parse oc (raw ++ s) = .ok r) ∧
    ∀ r, Text.SessionKeyPublicKey.parse oc raw = .ok r →
      Text.SessionKeyPublicKey.parse oc (raw ++ s) = .ok r := by
  refine ⟨?_, ?_, ?_, ?_, ?_, ?_, ?_, ?_⟩
  · exact fun r h => TlvFields.bind_append h s
  · exact fun r h => TlvFields.bind_append h s
  · exact fun r h => TlvFields.bind_append h s
  · exact fun r h => TlvFields.bind_append h s
  · exact fun r h => TlvFields.bind_append h s
  · exact fun r h => TlvFields.bind_append h s
  · exact fun r h => TlvFields.bind_append h s
  · exact fun r h => Ber.bind_append h s

/-! ### What a signature covers -/

/-- The signed bytes are a run of whole objects without the signature's tag, standing in the file
right behind the outer header, and right before the first object with the signature's tag, which
holds the signature. -/
def SignedInPlace (raw : Bytes) (tag sigTag : ℕ) (signature signedData : Bytes) : Prop :=
  ∃ (outer o : Obj) (before after : List Obj) (post rest : Bytes),
    Layout raw outer (before ++ o :: after) post ∧ outer.tag = tag ∧
      raw = outer.hdr ++ signedData ++ o.raw ++ rest ∧
      o.tag = sigTag ∧ o.value = signature ∧
      signedData = concat before ∧ ∀ p ∈ before, p.tag ≠ sigTag

/-- The bytes before a field, where they stand. -/
theorem signedInPlace_of_fields {tag sigTag : ℕ} {f : TlvFields} {signature signedData : Bytes}
    (hparse : TlvFields.parse oc raw tag none = .ok f) (hsig : f.get sigTag = .ok signature)
    (hsigned : f.bytesBefore sigTag = .ok signedData) :
    SignedInPlace raw tag sigTag signature signedData := by
  obtain ⟨outer, objs, post, hlayout, htag, -, rfl⟩ := TlvFields.parse_eq_ok_iff.mp hparse
  have hitems : (fieldsOf none objs).items = objs.map Field.ofObj := by simp [fieldsOf]
  obtain ⟨before, o, after, rfl, hbefore, hotag, rfl⟩ :=
    (TlvFields.bytesBefore_eq_ok_iff hitems).mp hsigned
  have hfirst : (before ++ o :: after).find? (fun o => o.tag = sigTag) = some o := by
    have hnone : before.find? (fun o => o.tag = sigTag) = none := by
      rw [List.find?_eq_none]
      intro p hp
      simpa using hbefore p hp
    rw [List.find?_append, hnone, Option.none_or, List.find?_cons_of_pos (by simpa using hotag)]
  obtain ⟨o', ho', hval'⟩ := (TlvFields.get_eq_ok_iff hitems).mp hsig
  obtain rfl : o = o' := Option.some.inj (hfirst.symm.trans ho')
  obtain ⟨tail, hval, -⟩ := hlayout.value_eq
  refine ⟨outer, o, before, after, post, concat after ++ tail ++ post, hlayout, htag, ?_, hotag,
    hval', rfl, hbefore⟩
  rw [hlayout.raw_eq, Obj.raw, hval, concat_append, concat_cons]
  simp only [List.append_assoc]

/-- **What a signature covers is the file's own bytes**, from the outer header to the object with the
signature, for each of the four records signed as a whole. -/
theorem signedData_contiguous (oc : OverflowChecks) (raw : Bytes) :
    (∀ r, Surface.AgeRecord.parse oc raw = .ok r →
      SignedInPlace raw 0xFF10 0xDF13 r.signature r.signedData) ∧
    (∀ r, Surface.MyNumberImage.parse oc raw = .ok r →
      SignedInPlace raw 0xFF40 0xDF43 r.signature r.signedData) ∧
    (∀ r, Text.IntegrityRecord.parse oc raw = .ok r →
      SignedInPlace raw 0xFF30 0xDF33 r.signature r.signedData) ∧
    ∀ r, Text.SignedPublicKey.parse oc raw = .ok r →
      SignedInPlace raw 0xFF50 0xDF52 r.signature r.signedData := by
  refine ⟨?_, ?_, ?_, ?_⟩
  · intro r h
    obtain ⟨f, v, k, hf, -, -, -, -, hs, hb⟩ := SignedRecords.ageRecord_parse_eq_ok.mp h
    exact signedInPlace_of_fields hf hs hb
  · intro r h
    obtain ⟨f, v, k, hf, -, -, -, -, hs, hb⟩ := SignedRecords.myNumberImage_parse_eq_ok.mp h
    exact signedInPlace_of_fields hf hs hb
  · intro r h
    obtain ⟨f, hf, -, -, hs, hb⟩ := SignedRecords.integrityRecord_parse_eq_ok.mp h
    exact signedInPlace_of_fields hf hs hb
  · intro r h
    obtain ⟨f, k, hf, -, -, hs, hb⟩ := SignedRecords.signedPublicKey_parse_eq_ok.mp h
    exact signedInPlace_of_fields hf hs hb

end MynaCard
