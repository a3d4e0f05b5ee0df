import MynaCard.SimpleTlv
import MynaCard.Overflow
import MynaCard.Iteration

/-!
# Records in simple TLV

A `Record` is a record as written: a tag other than `FF`, a value that two length bytes can count,
and the form its length has. Both forms are there for the short values, and may be mixed. What
`parse`, the iterator and `find` read from records in front of erased bytes is what was written
(`records_read`).
-/

namespace MynaCard.Simple

open Iteration

/-! ### Records as written -/

/-- A record, with the long form of its length or the short one. -/
structure Record where
  tag : UInt8
  value : Bytes
  long : Bool
  tag_ne : tag ≠ 0xFF
  length_le : value.length ≤ 65535
  short_le : long = false → value.length ≤ 254

namespace Record

/-- One byte, or `FF` and two. -/
def lengthField (r : Record) : Bytes :=
  if r.long then 0xFF :: beBytes 2 r.value.length else [UInt8.ofNat r.value.length]

def hdr (r : Record) : Bytes := r.tag :: r.lengthField

/-- The record's own bytes. -/
def raw (r : Record) : Bytes := r.hdr ++ r.value

/-- What the reader gives for the record. -/
def tlv (r : Record) : Tlv := ⟨r.tag, r.value⟩

theorem parseHeader_hdr_append (r : Record) (post : Bytes) :
    parseHeader (r.hdr ++ post) = .ok ⟨r.tag, r.value.length, r.hdr.length⟩ := by
  obtain ⟨tag, value, long, htag, hle, hshort⟩ := r
  unfold parseHeader
  refine Run.bind_eq_ok.mpr ⟨tag, rfl, ?_⟩
  rw [if_neg htag]
  cases long with
  | true =>
    refine Run.bind_eq_ok.mpr ⟨0xFF, rfl, ?_⟩
    rw [if_neg (by simp)]
    -- the two bytes behind the escape
    have hslice := slice_append [tag, 0xFF] (beBytes 2 value.length) post
    rw [beBytes_length] at hslice
    refine Run.bind_eq_ok.mpr ⟨_, orMalformed_eq_ok.mpr hslice, ?_⟩
    rw [bigEndian_beBytes (by omega)]
    rfl
  | false =>
    have hle := hshort rfl
    have hbyte : (UInt8.ofNat value.length).toNat = value.length := by
      rw [UInt8.toNat_ofNat']
      omega
    refine Run.bind_eq_ok.mpr ⟨UInt8.ofNat value.length, rfl, ?_⟩
    have hne : UInt8.ofNat value.length ≠ 0xFF := by
      intro heq
      rw [heq] at hbyte
      have : (0xFF : UInt8).toNat = 255 := rfl
      omega
    rw [if_pos hne, hbyte]
    rfl

@[simp] theorem raw_length (r : Record) : r.raw.length = r.hdr.length + r.value.length := by
  simp [raw]

theorem objectAt_raw_append (r : Record) (post : Bytes) :
    objectAt (r.raw ++ post) = .ok (r.raw.length, r.tlv) := by
  unfold objectAt
  refine Run.bind_eq_ok.mpr ⟨⟨r.tag, r.value.length, r.hdr.length⟩, ?_, ?_⟩
  · rw [raw, List.append_assoc]
    exact r.parseHeader_hdr_append _
  · refine Run.bind_eq_ok.mpr ⟨r.value, orMalformed_eq_ok.mpr ?_, ?_⟩
    · exact slice_append r.hdr r.value post
    · rw [raw_length]
      rfl

end Record

/-- The bytes of records, in order. -/
def concat (records : List Record) : Bytes := (records.map Record.raw).flatten

theorem concat_cons (r : Record) (records : List Record) :
    concat (r :: records) = r.raw ++ concat records := rfl

/-! ### What is no record -/

theorem eq_cons_of_getElem? (data : Bytes) {b : UInt8} (h : data[0]? = some b) :
    ∃ tail, data = b :: tail := by
  rw [← List.head?_eq_getElem?] at h
  exact List.head?_eq_some_iff.mp h

/-- A header that is read was written in one of the two forms. -/
theorem parseHeader_sound {data : Bytes} {h : Header} (heq : parseHeader data = .ok h) :
    h.tag ≠ 0xFF ∧ h.length ≤ 65535 ∧
      ((∃ b post, b ≠ 0xFF ∧ data = h.tag :: b :: post ∧ h.length = b.toNat ∧ h.headerLen = 2) ∨
        ∃ hi lo post, data = h.tag :: 0xFF :: hi :: lo :: post ∧ h.length = bigEndian [hi, lo] ∧
          h.headerLen = 4) := by
  unfold parseHeader at heq
  obtain ⟨tag, htag, heq⟩ := Run.bind_eq_ok.mp heq
  obtain ⟨tail, rfl⟩ := eq_cons_of_getElem? _ (orMalformed_eq_ok.mp htag)
  split at heq
  · cases heq
  rename_i hne
  obtain ⟨firstLen, hfirst, heq⟩ := Run.bind_eq_ok.mp heq
  obtain ⟨post, rfl⟩ := eq_cons_of_getElem? tail (orMalformed_eq_ok.mp hfirst)
  split at heq
  · rename_i hshort
    cases heq
    have := firstLen.toNat_lt
    refine ⟨hne, ?_, .inl ⟨firstLen, post, hshort, rfl, rfl, rfl⟩⟩
    show firstLen.toNat ≤ 65535
    omega
  · rename_i hlong
    obtain rfl : firstLen = 0xFF := not_not.mp hlong
    obtain ⟨bytes, hbytes, heq⟩ := Run.bind_eq_ok.mp heq
    cases heq
    obtain ⟨pre, rest, hdata, hpre, hlen⟩ := slice_eq_some.mp (orMalformed_eq_ok.mp hbytes)
    obtain ⟨hi, lo, rfl⟩ := List.length_eq_two.mp (show bytes.length = 2 by omega)
    obtain ⟨x, y, rfl⟩ := List.length_eq_two.mp hpre
    simp only [List.cons_append, List.nil_append, List.cons.injEq] at hdata
    obtain ⟨-, -, rfl⟩ := hdata
    have := bigEndian_lt [hi, lo]
    simp only [List.length_cons, List.length_nil] at this
    refine ⟨hne, ?_, .inr ⟨hi, lo, rest, rfl, rfl, rfl⟩⟩
    show bigEndian [hi, lo] ≤ 65535
    omega

/-- **The reader takes a record off the front, or there is none there.** -/
theorem objectAt_eq_ok_iff {rest : Bytes} {n : ℕ} {t : Tlv} :
    objectAt rest = .ok (n, t) ↔
      ∃ (r : Record) (post : Bytes), rest = r.raw ++ post ∧ n = r.raw.length ∧ t = r.tlv := by
  constructor
  · intro h
    unfold objectAt at h
    obtain ⟨header, hheader, h⟩ := Run.bind_eq_ok.mp h
    obtain ⟨value, hvalue, h⟩ := Run.bind_eq_ok.mp h
    cases h
    obtain ⟨htag, hle, hform⟩ := parseHeader_sound hheader
    obtain ⟨pre, post, hsplit, hpre, hlen⟩ := slice_eq_some.mp (orMalformed_eq_ok.mp hvalue)
    have hvlen : value.length = header.length := by
      unfold Header.totalLen at hlen
      omega
    rw [List.append_assoc] at hsplit
    rcases hform with ⟨b, tail, hne, rfl, hlength, hhdr⟩ | ⟨hi, lo, tail, rfl, hlength, hhdr⟩
    · have hb : b.toNat ≤ 254 := by
        have := b.toNat_lt
        have : b.toNat ≠ 255 := fun heq => hne (UInt8.toNat_inj.mp heq)
        omega
      have hcat : [header.tag, b] ++ tail = pre ++ (value ++ post) := hsplit
      obtain ⟨rfl, rfl⟩ := List.append_inj hcat (by simp [hpre, hhdr])
      refine ⟨⟨header.tag, value, false, htag, by omega, fun _ => by omega⟩, post, ?_, ?_, rfl⟩
      · simp [Record.raw, Record.hdr, Record.lengthField, hvlen, hlength]
      · simp [Record.hdr, Record.lengthField, Header.totalLen, hhdr, hvlen]
    · have hcat : [header.tag, 0xFF, hi, lo] ++ tail = pre ++ (value ++ post) := hsplit
      obtain ⟨rfl, rfl⟩ := List.append_inj hcat (by simp [hpre, hhdr])
      have hbytes : beBytes 2 value.length = [hi, lo] := by
        apply bigEndian_inj (by simp)
        rw [bigEndian_beBytes (by omega), hvlen, hlength]
      refine ⟨⟨header.tag, value, true, htag, by omega, fun h => nomatch h⟩, post, ?_, ?_, rfl⟩
      · simp [Record.raw, Record.hdr, Record.lengthField, hbytes]
      · simp [Record.hdr, Record.lengthField, Header.totalLen, hhdr, hvlen]
  · intro h
    obtain ⟨r, post, rfl, rfl, rfl⟩ := h
    exact r.objectAt_raw_append post

theorem returned_objectAt (rest : Bytes) : Returned (objectAt rest) := by
  refine Returned.bind ?_ fun header => (returned_orMalformed _ _).bind fun _ => returned_ok _
  refine (returned_orMalformed _ _).bind fun tag => ?_
  split
  · exact returned_malformed _
  · refine (returned_orMalformed _ _).bind fun firstLen => ?_
    split
    · exact returned_ok _
    · exact (returned_orMalformed _ _).bind fun _ => returned_ok _

/-! ### The iterator -/

/-- Nothing, or bytes that begin with an erased one: where the iterator stops. -/
def StartsErased (x : Bytes) : Prop := ∀ b, x.head? = some b → b = 0xFF

/-- A malformed record: bytes the iterator does not stop at and that begin with no record. -/
def Malformed (x : Bytes) : Prop :=
  ¬ StartsErased x ∧ ∀ (r : Record) (post : Bytes), x ≠ r.raw ++ post

theorem next_startsErased {x : Bytes} (h : StartsErased x) : Exhausted next x := by
  cases x with
  | nil => rfl
  | cons b bs =>
    show next (b :: bs) = (none, b :: bs)
    rw [next, if_pos (h b rfl)]

theorem next_of_not_startsErased {x : Bytes} (h : ¬ StartsErased x) :
    next x = match objectAt x with
      | .ok (consumed, tlv) => (some (.ok tlv), x.drop consumed)
      | .error e => (some (.error e), []) := by
  cases x with
  | nil => exact absurd (fun _ h => nomatch h) h
  | cons b bs =>
    have hb : b ≠ 0xFF := by
      intro heq
      apply h
      intro b' hb'
      rw [← Option.some.inj hb', heq]
    exact if_neg hb

theorem Record.not_startsErased (r : Record) (post : Bytes) : ¬ StartsErased (r.raw ++ post) :=
  fun h => r.tag_ne (h r.tag rfl)

theorem next_raw_append (r : Record) (post : Bytes) :
    next (r.raw ++ post) = (some (.ok r.tlv), post) := by
  rw [next_of_not_startsErased (r.not_startsErased post), r.objectAt_raw_append]
  simp

theorem next_malformed {x : Bytes} (h : Malformed x) :
    ∃ e : Error, next x = (some (.error (.err e)), []) := by
  rw [next_of_not_startsErased h.1]
  cases hobj : objectAt x with
  | error stop =>
    obtain ⟨e, rfl⟩ := returned_objectAt x stop hobj
    exact ⟨e, rfl⟩
  | ok found =>
    obtain ⟨r, post, hx, -, -⟩ := objectAt_eq_ok_iff.mp hobj
    exact absurd hx (h.2 r post)

theorem iter_startsErased {x : Bytes} (h : StartsErased x) : iter x = [] := by
  rw [iter, next_startsErased h]

theorem iter_malformed {x : Bytes} (h : Malformed x) :
    ∃ e : Error, iter x = [.error (.err e)] := by
  obtain ⟨e, hnext⟩ := next_malformed h
  refine ⟨e, ?_⟩
  rw [iter, hnext]
  simp only [iter_startsErased (x := []) fun _ h => nomatch h]

/-- The iterator yields the records at the front, in order, and goes on behind them. -/
theorem iter_concat_append (records : List Record) (post : Bytes) :
    iter (concat records ++ post) = (records.map fun r => .ok r.tlv) ++ iter post := by
  induction records with
  | nil => rfl
  | cons r records ih =>
    rw [concat_cons, List.append_assoc, iter, next_raw_append]
    simp only [ih, List.map_cons, List.cons_append]

theorem yields_concat (records : List Record) (post : Bytes) :
    Yields next (concat records ++ post) (records.map fun r => .ok r.tlv) post := by
  induction records with
  | nil => exact .nil post
  | cons r records ih =>
    rw [concat_cons, List.append_assoc]
    exact .cons (next_raw_append r _) ih

/-! ### The first record with a tag -/

theorem findIn_append (tag : UInt8) (records : List Record) (items : List (Run Tlv)) :
    findIn tag ((records.map fun r => .ok r.tlv) ++ items) =
      match records.find? fun r => r.tag = tag with
      | some r => .ok (some r.value)
      | none => findIn tag items := by
  induction records with
  | nil => rfl
  | cons r records ih =>
    rw [List.map_cons, List.cons_append, findIn]
    show (if r.tag = tag then pure (some r.value) else findIn tag _) = _
    by_cases htag : r.tag = tag
    · rw [if_pos htag, List.find?_cons_of_pos (by simpa using htag)]
      rfl
    · rw [if_neg htag, List.find?_cons_of_neg (by simpa using htag), ih]

/-- **What is read from records is what was written**, in both forms of the length. The iterator
yields them in front of erased bytes, and then nothing; `parse` gives the first; `find` gives the
value of the first with the tag whatever comes behind it, none when there is none before the erased
bytes, and an error when a malformed record comes first. -/
theorem records_read (records : List Record) (tag : UInt8) :
    (∀ tail, StartsErased tail →
      (∀ calls, answers next calls (concat records ++ tail) =
        ((records.map fun r : Record => some (Except.ok r.tlv)) ++
          List.replicate calls none).take calls) ∧
      find (concat records ++ tail) tag =
        .ok ((records.find? fun r => r.tag = tag).map Record.value)) ∧
    (∀ (r : Record) (post : Bytes), parse (concat (r :: records) ++ post) = .ok r.tlv) ∧
    (∀ (r : Record) (post : Bytes), (records.find? fun r => r.tag = tag) = some r →
      find (concat records ++ post) tag = .ok (some r.value)) ∧
    ∀ bad, (records.find? fun r => r.tag = tag) = none → Malformed bad →
      ∃ e : Error, find (concat records ++ bad) tag = .error (.err e) := by
  refine ⟨?_, ?_, ?_, ?_⟩
  · intro tail htail
    constructor
    · intro calls
      rw [(yields_concat records tail).answers_eq (next_startsErased htail), List.map_map]
      rfl
    · rw [find, iter_concat_append, findIn_append, iter_startsErased htail]
      cases records.find? fun r => r.tag = tag with
      | none => rfl
      | some r => rfl
  · intro r post
    rw [concat_cons, List.append_assoc, parse, r.objectAt_raw_append]
    rfl
  · intro r post hfind
    rw [find, iter_concat_append, findIn_append, hfind]
  · intro bad hfind hbad
    obtain ⟨e, hiter⟩ := iter_malformed hbad
    refine ⟨e, ?_⟩
    rw [find, iter_concat_append, findIn_append, hfind, hiter]
    rfl

/-- One record with a short length and one with a long one. -/
def mixedForms : List Record :=
  [⟨0x01, [0xAA], false, by decide, by decide, by decide⟩,
    ⟨0x02, [0xBB], true, by decide, by decide, by decide⟩]

theorem concat_mixedForms : concat mixedForms = [0x01, 0x01, 0xAA, 0x02, 0xFF, 0x00, 0x01, 0xBB] :=
  rfl

theorem records_read_mixedForms :
    find [0x01, 0x01, 0xAA, 0x02, 0xFF, 0x00, 0x01, 0xBB, 0xFF] 0x02 = .ok (some [0xBB]) ∧
      find [0x01, 0x01, 0xAA, 0x02, 0xFF, 0x00, 0x01, 0xBB, 0x05] 0x02 = .ok (some [0xBB]) ∧
      ∃ e : Error, find [0x01, 0x01, 0xAA, 0x02, 0xFF, 0x00, 0x01, 0xBB, 0x05] 0x03 =
        .error (.err e) := by
  have herased : StartsErased [0xFF] := fun b hb => (Option.some.inj hb).symm
  have hcut : Malformed [0x05] := by
    refine ⟨fun h => absurd (h 0x05 rfl) (by decide), ?_⟩
    intro r post heq
    have hobj := r.objectAt_raw_append post
    rw [← heq] at hobj
    cases hobj
  have hread := ((records_read mixedForms 0x02).1 [0xFF] herased).2
  have hfound := (records_read mixedForms 0x02).2.2.1 _ [0x05] rfl
  have hbad := (records_read mixedForms 0x03).2.2.2 [0x05] rfl hcut
  rw [concat_mixedForms] at hread hfound hbad
  exact ⟨hread, hfound, hbad⟩

end MynaCard.Simple
