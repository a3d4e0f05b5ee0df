import MynaCard.Error

/-!
# Simple TLV

`tlv/simple.rs`: the record format of record structured files. A tag is one byte and `FF` is none;
a length is one byte, or `FF` and two more. A header and its value are at most 65539 bytes, so no
sum of lengths comes near `usize`.
-/

namespace MynaCard.Simple

/-- Tag and length of an object, without its value. -/
structure Header where
  tag : UInt8
  length : ℕ
  headerLen : ℕ
  deriving DecidableEq, Repr

/-- `Header::total_len`. -/
def Header.totalLen (h : Header) : ℕ := h.headerLen + h.length

structure Tlv where
  tag : UInt8
  value : Bytes
  deriving DecidableEq, Repr

/-- `parse_header`. -/
def parseHeader (data : Bytes) : Run Header := do
  let tag ← orMalformed "empty TLV" data[0]?
  if tag = 0xFF then malformed "tag 'FF' is not a valid simple TLV tag"
  else do
    let firstLen ← orMalformed "truncated TLV length" data[1]?
    if firstLen ≠ 0xFF then pure ⟨tag, firstLen.toNat, 2⟩
    else do
      let bytes ← orMalformed "truncated long-form TLV length" (slice data 2 4)
      pure ⟨tag, bigEndian bytes, 4⟩

/-- The object at the start of `rest`, with the bytes it takes up. -/
def objectAt (rest : Bytes) : Run (ℕ × Tlv) := do
  let header ← parseHeader rest
  let value ← orMalformed "TLV value is truncated" (slice rest header.headerLen header.totalLen)
  pure (header.totalLen, ⟨header.tag, value⟩)

/-- `parse`: the first object in `data`. Bytes after it are ignored. -/
def parse (data : Bytes) : Run Tlv := do
  let found ← objectAt data
  pure found.2

/-- `Iter::next`: the item yielded, if any, and the bytes the iterator keeps. -/
def next (rest : Bytes) : Option (Run Tlv) × Bytes :=
  match rest with
  | [] => (none, rest)
  | first :: _ =>
    if first = 0xFF then (none, rest)
    else match objectAt rest with
      | .ok (consumed, tlv) => (some (.ok tlv), rest.drop consumed)
      | .error e => (some (.error e), [])

/-- A header takes two bytes or four. -/
theorem parseHeader_headerLen {data : Bytes} {h : Header} (heq : parseHeader data = .ok h) :
    2 ≤ h.headerLen ∧ h.headerLen ≤ 4 := by
  unfold parseHeader at heq
  obtain ⟨tag, -, heq⟩ := Run.bind_eq_ok.mp heq
  split at heq
  · cases heq
  obtain ⟨firstLen, -, heq⟩ := Run.bind_eq_ok.mp heq
  split at heq
  · cases heq
    simp
  · obtain ⟨bytes, -, heq⟩ := Run.bind_eq_ok.mp heq
    cases heq
    simp

theorem objectAt_le {rest : Bytes} {n : ℕ} {t : Tlv} (h : objectAt rest = .ok (n, t)) :
    2 ≤ n ∧ n ≤ rest.length := by
  unfold objectAt at h
  obtain ⟨header, hheader, h⟩ := Run.bind_eq_ok.mp h
  obtain ⟨value, hvalue, h⟩ := Run.bind_eq_ok.mp h
  cases h
  obtain ⟨pre, post, rfl, hpre, hstop⟩ := slice_eq_some.mp (orMalformed_eq_ok.mp hvalue)
  have := parseHeader_headerLen hheader
  simp only [List.length_append]
  omega

/-- The iterator's remaining bytes shrink with every item. -/
theorem next_length_lt {rest rest' : Bytes} {item : Run Tlv}
    (h : next rest = (some item, rest')) : rest'.length < rest.length := by
  unfold next at h
  split at h
  · cases h
  · split at h
    · cases h
    · split at h
      · rename_i consumed tlv hobj
        cases h
        have := objectAt_le hobj
        rw [List.length_drop]
        omega
      · cases h
        simp

/-- `iter(data).collect()`: every item the iterator yields. -/
@[semireducible] def iter (rest : Bytes) : List (Run Tlv) :=
  match _h : next rest with
  | (none, _) => []
  | (some item, rest') => item :: iter rest'
termination_by rest.length
decreasing_by exact next_length_lt _h

/-- The loop of `find`. -/
def findIn (tag : UInt8) : List (Run Tlv) → Run (Option Bytes)
  | [] => pure none
  | item :: items => do
    let tlv ← item
    if tlv.tag = tag then pure (some tlv.value) else findIn tag items

/-- `find`: the value of the first object with the tag, if the walk comes to one. -/
def find (data : Bytes) (tag : UInt8) : Run (Option Bytes) := findIn tag (iter data)

end MynaCard.Simple
