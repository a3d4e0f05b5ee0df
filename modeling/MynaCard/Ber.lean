import MynaCard.Error

/-!
# The BER-TLV reader

`tlv/ber.rs`: a header parser that needs only the tag and the length, a parser for one whole
object, and the iterator over concatenated objects that stops at filler.

The reader walks its input by position, as the source does; `BerGrammar` says which byte strings
it accepts. The one addition of the module, `Header.totalLen`, is taken at type `usize` and so is
given the overflow behaviour of the build.
-/

namespace MynaCard.Ber

/-- The tag and length of an object, without its value. `tag` has the tag bytes packed big-endian;
four bytes at most are packed, so the `u32` of the source never drops one. -/
structure Header where
  tag : ℕ
  length : ℕ
  headerLen : ℕ
  deriving DecidableEq, Repr

/-- `Header::total_len`. -/
def Header.totalLen (oc : OverflowChecks) (h : Header) : Run ℕ := usizeAdd oc h.headerLen h.length

/-- A parsed object. -/
structure Tlv where
  tag : ℕ
  value : Bytes
  deriving DecidableEq, Repr

/-! ### The header -/

/-- The loop over the continuation bytes of a multi-byte tag. Gives the tag and the position after
it. -/
@[semireducible] def tagLoop (data : Bytes) (pos tag : ℕ) : Run (ℕ × ℕ) :=
  match data[pos]? with
  | none => malformed "truncated TLV tag"
  | some byte =>
    if pos + 1 > 4 then malformed "TLV tag longer than 4 bytes"
    else if byte &&& 0x80 = 0 then .ok ((tag <<< 8) ||| byte.toNat, pos + 1)
    else tagLoop data (pos + 1) ((tag <<< 8) ||| byte.toNat)
termination_by 4 - pos

/-- The tag at the start of `data`, and the position after it. -/
def tagField (data : Bytes) : Run (ℕ × ℕ) := do
  let first ← orMalformed "empty TLV" data[0]?
  if first &&& 0x1F = 0x1F then tagLoop data 1 first.toNat else pure (first.toNat, 1)

/-- The length at `pos`, and the position after it. -/
def lengthField (data : Bytes) (pos : ℕ) : Run (ℕ × ℕ) := do
  let firstLen ← orMalformed "truncated TLV length" data[pos]?
  if firstLen < 0x80 then
    pure (firstLen.toNat, pos + 1)
  else
    let count := (firstLen &&& 0x7F).toNat
    if count = 0 then malformed "indefinite TLV length is not supported"
    else if count > 8 then malformed "TLV length does not fit in usize"
    else do
      let bytes ← orMalformed "truncated TLV length" (slice data (pos + 1) (pos + 1 + count))
      pure (bigEndian bytes, pos + 1 + count)

/-- `parse_header`: the tag and length at the start of `data`, whose value need not be present. -/
def parseHeader (data : Bytes) : Run Header := do
  let (tag, pos) ← tagField data
  let (length, pos) ← lengthField data pos
  pure ⟨tag, length, pos⟩

/-! ### Objects -/

/-- `parse`: the first complete object in `data`. Bytes after it are ignored. -/
def parse (oc : OverflowChecks) (data : Bytes) : Run Tlv := do
  let header ← parseHeader data
  let stop ← header.totalLen oc
  let value ← orMalformed "TLV value is truncated" (slice data header.headerLen stop)
  pure ⟨header.tag, value⟩

/-- The object at the start of `rest`, with the bytes it takes up: the header, then the slice up to
its total. The walks over concatenated objects share this step, each with its own text `what` for a
value that is not there. -/
def objectAt (oc : OverflowChecks) (what : String) (rest : Bytes) : Run (ℕ × Tlv) := do
  let header ← parseHeader rest
  let stop ← header.totalLen oc
  let value ← orMalformed what (slice rest header.headerLen stop)
  pure (stop, ⟨header.tag, value⟩)

/-- The bytes the card pads the unused tail of a file with. -/
def isFiller (b : UInt8) : Bool := b = 0x00 || b = 0xFF

/-- `Iter::next`: the item yielded, if any, and the bytes the iterator keeps. An item that is a
panic is the call not returning. -/
def next (oc : OverflowChecks) (rest : Bytes) : Option (Run Tlv) × Bytes :=
  match rest with
  | [] => (none, rest)
  | first :: _ =>
    if isFiller first then (none, rest)
    else match objectAt oc "TLV value is truncated" rest with
      | .ok (consumed, tlv) => (some (.ok tlv), rest.drop consumed)
      | .error e => (some (.error e), [])

/-! ### What the header parser consumes -/

theorem tagLoop_le {data : Bytes} {pos tag t p : ℕ} (h : tagLoop data pos tag = .ok (t, p)) :
    pos < p ∧ p ≤ 4 := by
  induction pos, tag using tagLoop.induct data with
  | case1 pos tag hnone =>
    rw [tagLoop, hnone] at h
    cases h
  | case2 pos tag byte hbyte hlong =>
    rw [tagLoop, hbyte] at h
    simp [hlong, malformed] at h
  | case3 pos tag byte hbyte hshort hlast =>
    rw [tagLoop, hbyte] at h
    simp only [hshort, hlast, if_false, if_true, Except.ok.injEq, Prod.mk.injEq] at h
    omega
  | case4 pos tag byte hbyte hshort hmore ih =>
    rw [tagLoop, hbyte] at h
    simp only [hshort, hmore, if_false] at h
    have := ih h
    omega

theorem tagField_le {data : Bytes} {t p : ℕ} (h : tagField data = .ok (t, p)) :
    1 ≤ p ∧ p ≤ 4 := by
  unfold tagField at h
  obtain ⟨first, -, h⟩ := Run.bind_eq_ok.mp h
  split at h
  · have := tagLoop_le h
    omega
  · cases h
    omega

theorem lengthField_le {data : Bytes} {pos n p : ℕ} (h : lengthField data pos = .ok (n, p)) :
    pos + 1 ≤ p ∧ p ≤ pos + 9 := by
  unfold lengthField at h
  obtain ⟨firstLen, -, h⟩ := Run.bind_eq_ok.mp h
  split at h
  · cases h
    omega
  · simp only at h
    split at h
    · cases h
    split at h
    · cases h
    · obtain ⟨bytes, -, h⟩ := Run.bind_eq_ok.mp h
      cases h
      omega

theorem parseHeader_eq_ok {data : Bytes} {h : Header} :
    parseHeader data = .ok h ↔ ∃ pos, tagField data = .ok (h.tag, pos) ∧
      lengthField data pos = .ok (h.length, h.headerLen) := by
  unfold parseHeader
  constructor
  · intro heq
    obtain ⟨⟨tag, pos⟩, htag, heq⟩ := Run.bind_eq_ok.mp heq
    obtain ⟨⟨length, pos'⟩, hlen, heq⟩ := Run.bind_eq_ok.mp heq
    cases heq
    exact ⟨pos, htag, hlen⟩
  · rintro ⟨pos, htag, hlen⟩
    rw [htag]
    refine Run.bind_eq_ok.mpr ⟨_, rfl, ?_⟩
    simp only [hlen]
    rfl

/-- A header takes at least a tag byte and a length byte, and at most four and nine. -/
theorem parseHeader_headerLen {data : Bytes} {h : Header} (heq : parseHeader data = .ok h) :
    2 ≤ h.headerLen ∧ h.headerLen ≤ 13 := by
  obtain ⟨pos, htag, hlen⟩ := parseHeader_eq_ok.mp heq
  have := tagField_le htag
  have := lengthField_le hlen
  omega

/-- A total at or past the end of the header did not wrap. -/
theorem Header.totalLen_eq_ok {oc : OverflowChecks} {h : Header} {n : ℕ}
    (hlen : 2 ≤ h.headerLen) (hn : h.totalLen oc = .ok n) (hle : h.headerLen ≤ n)
    (hsize : h.length < usizeSize) : n = h.headerLen + h.length ∧ n < usizeSize := by
  unfold Header.totalLen usizeAdd at hn
  split at hn
  · cases hn
    exact ⟨rfl, by assumption⟩
  · cases oc with
    | on => cases hn
    | off =>
      -- a wrapped total is below the header's own length
      simp only [Except.ok.injEq] at hn
      unfold usizeSize at *
      omega

/-- An object takes up at least the two bytes of its header, and they are there. -/
theorem objectAt_le {oc : OverflowChecks} {what : String} {rest : Bytes} {n : ℕ} {t : Tlv}
    (h : objectAt oc what rest = .ok (n, t)) : 2 ≤ n ∧ n ≤ rest.length := by
  unfold objectAt at h
  obtain ⟨header, hheader, h⟩ := Run.bind_eq_ok.mp h
  obtain ⟨stop, -, h⟩ := Run.bind_eq_ok.mp h
  obtain ⟨value, hvalue, h⟩ := Run.bind_eq_ok.mp h
  cases h
  obtain ⟨pre, post, rfl, hpre, hstop⟩ := slice_eq_some.mp (orMalformed_eq_ok.mp hvalue)
  have := parseHeader_headerLen hheader
  simp only [List.length_append]
  omega

/-- The iterator's remaining bytes shrink with every item. -/
theorem next_length_lt {oc : OverflowChecks} {rest rest' : Bytes} {item : Run Tlv}
    (h : next oc rest = (some item, rest')) : rest'.length < rest.length := by
  unfold next at h
  split at h
  · cases h
  · rename_i first tail
    split at h
    · cases h
    · split at h
      · rename_i consumed tlv hobj
        cases h
        have := objectAt_le hobj
        rw [List.length_drop]
        omega
      · cases h
        simp

/-- `iter(data).collect()`: every item the iterator yields. -/
@[semireducible] def iter (oc : OverflowChecks) (rest : Bytes) : List (Run Tlv) :=
  match _h : next oc rest with
  | (none, _) => []
  | (some item, rest') => item :: iter oc rest'
termination_by rest.length
decreasing_by exact next_length_lt _h

end MynaCard.Ber
