import MynaCard.Ber
import MynaCard.PrefixCode

/-!
# The language the BER reader accepts

`TagField` and `LengthField` are the two grammars of a header, stated without positions, and
`IsHeader` puts them side by side. `parseHeader_eq_ok_iff` says that the reader accepts exactly the
byte strings that begin with a header, and reads that header and nothing after it.

An `Obj` is an object as written: a header, kept as bytes because one length has several
encodings, and a value of the length it declares. The raw forms of objects are a prefix-free code
(`objects_prefixFree`), so a file is one list of objects in one way only.
-/

namespace MynaCard.Ber

open PrefixCode

/-! ### The grammar of a header -/

/-- The bytes of a multi-byte tag after the first: bit 8 is set on all of them but the last. -/
inductive TagTail : Bytes → Prop
  | last (b : UInt8) (h : b &&& 0x80 = 0) : TagTail [b]
  | more (b : UInt8) (bs : Bytes) (h : b &&& 0x80 ≠ 0) (hbs : TagTail bs) : TagTail (b :: bs)

/-- A tag: one byte whose low five bits are not all ones, or two to four bytes. -/
inductive TagField : Bytes → Prop
  | single (b : UInt8) (h : b &&& 0x1F ≠ 0x1F) : TagField [b]
  | multi (b : UInt8) (bs : Bytes) (h : b &&& 0x1F = 0x1F) (hbs : TagTail bs)
      (hlen : bs.length ≤ 3) : TagField (b :: bs)

/-- A length: one byte below `80`, or `8k` and `k` bytes with `1 ≤ k ≤ 8`. -/
inductive LengthField : Bytes → ℕ → Prop
  | short (b : UInt8) (h : b < 0x80) : LengthField [b] b.toNat
  | long (b : UInt8) (bs : Bytes) (h : b.toNat = 0x80 + bs.length) (hpos : 1 ≤ bs.length)
      (hle : bs.length ≤ 8) : LengthField (b :: bs) (bigEndian bs)

/-- `hdr` is a tag and a length, and `h` is what they denote. -/
def IsHeader (hdr : Bytes) (h : Header) : Prop :=
  ∃ t l, hdr = t ++ l ∧ TagField t ∧ LengthField l h.length ∧ h.tag = bigEndian t ∧
    h.headerLen = hdr.length

theorem TagTail.length_pos {bs : Bytes} (h : TagTail bs) : 1 ≤ bs.length := by
  cases h <;> simp

theorem TagField.length_pos {t : Bytes} (h : TagField t) : 1 ≤ t.length := by
  cases h <;> simp

theorem LengthField.length_pos {l : Bytes} {n : ℕ} (h : LengthField l n) : 1 ≤ l.length := by
  cases h <;> simp

/-- A declared length fits in `usize`. -/
theorem LengthField.lt_usizeSize {l : Bytes} {n : ℕ} (h : LengthField l n) : n < usizeSize := by
  unfold usizeSize
  cases h with
  | short b h =>
    have := b.toNat_lt
    omega
  | long b bs h hpos hle =>
    calc bigEndian bs < 256 ^ bs.length := bigEndian_lt bs
      _ ≤ 256 ^ 8 := Nat.pow_le_pow_right (by norm_num) hle
      _ = 2 ^ 64 := by norm_num

theorem IsHeader.length_ge {hdr : Bytes} {h : Header} (hh : IsHeader hdr h) : 2 ≤ hdr.length := by
  obtain ⟨t, l, rfl, ht, hl, -, -⟩ := hh
  have := ht.length_pos
  have := hl.length_pos
  rw [List.length_append]
  omega

/-! ### The tag -/

/-- The loop reads a tag tail that ends within the first four bytes, whatever follows. -/
theorem tagLoop_append {bs : Bytes} (hbs : TagTail bs) (pre post : Bytes) (tag : ℕ)
    (hlen : pre.length + bs.length ≤ 4) :
    tagLoop (pre ++ (bs ++ post)) pre.length tag =
      .ok (tag * 256 ^ bs.length + bigEndian bs, pre.length + bs.length) := by
  induction hbs generalizing pre tag with
  | last b h =>
    have hget : (pre ++ ([b] ++ post))[pre.length]? = some b := by simp
    rw [tagLoop, hget]
    simp only [List.length_singleton] at hlen
    simp [h, shift_or_byte, show ¬ 4 ≤ pre.length from by omega]
  | more b bs h hbs ih =>
    have hget : (pre ++ (b :: bs ++ post))[pre.length]? = some b := by simp
    have hpos := hbs.length_pos
    rw [List.length_cons] at hlen
    have hstep := ih (pre ++ [b]) ((tag <<< 8) ||| b.toNat)
      (by rw [List.length_append, List.length_singleton]; omega)
    rw [List.append_assoc, List.singleton_append, List.length_append, List.length_singleton,
      ← List.cons_append] at hstep
    rw [tagLoop, hget]
    simp only [h, if_false, show ¬ pre.length + 1 > 4 from by omega]
    rw [hstep, shift_or_byte, bigEndian_cons, List.length_cons]
    congr 2
    · ring
    · omega

/-- What the loop read was a tag tail. -/
theorem tagLoop_sound {data : Bytes} {pos tag t p : ℕ} (h : tagLoop data pos tag = .ok (t, p)) :
    ∃ bs post, TagTail bs ∧ data.drop pos = bs ++ post ∧ p = pos + bs.length := by
  induction pos, tag using tagLoop.induct data with
  | case1 pos tag hnone =>
    rw [tagLoop, hnone] at h
    cases h
  | case2 pos tag byte hbyte hlong =>
    rw [tagLoop, hbyte] at h
    simp [hlong, malformed] at h
  | case3 pos tag byte hbyte hshort hlast =>
    rw [tagLoop, hbyte] at h
    simp only [hshort, hlast, if_false, if_true, Except.ok.injEq, Prod.mk.injEq] at h
    exact ⟨[byte], data.drop (pos + 1), .last byte hlast,
      List.drop_eq_getElem?_toList_append.trans (by rw [hbyte]; rfl), h.2.symm⟩
  | case4 pos tag byte hbyte hshort hmore ih =>
    rw [tagLoop, hbyte] at h
    simp only [hshort, hmore, if_false] at h
    obtain ⟨bs, post, hbs, hdrop, rfl⟩ := ih h
    refine ⟨byte :: bs, post, .more byte bs hmore hbs, ?_, ?_⟩
    · rw [List.drop_eq_getElem?_toList_append, hbyte, hdrop]
      rfl
    · rw [List.length_cons]
      omega

theorem tagField_append {t : Bytes} (ht : TagField t) (post : Bytes) :
    tagField (t ++ post) = .ok (bigEndian t, t.length) := by
  unfold tagField
  cases ht with
  | single b h =>
    refine Run.bind_eq_ok.mpr ⟨b, rfl, ?_⟩
    rw [if_neg h, bigEndian_singleton]
    rfl
  | multi b bs h hbs hlen =>
    refine Run.bind_eq_ok.mpr ⟨b, rfl, ?_⟩
    rw [if_pos h]
    have hloop := tagLoop_append hbs [b] post b.toNat
      (by rw [List.length_singleton]; omega)
    rw [List.length_singleton, List.singleton_append] at hloop
    rw [List.cons_append, hloop, bigEndian_cons, List.length_cons,
      Nat.add_comm 1 bs.length]

theorem tagField_sound {data : Bytes} {tag pos : ℕ} (h : tagField data = .ok (tag, pos)) :
    ∃ t post, TagField t ∧ data = t ++ post ∧ tag = bigEndian t ∧ pos = t.length := by
  -- the shape first; the value then follows from `tagField_append`
  have hshape : ∃ t post, TagField t ∧ data = t ++ post := by
    have hle := tagField_le h
    unfold tagField at h
    obtain ⟨first, hfirst, h⟩ := Run.bind_eq_ok.mp h
    have hdata : data = first :: data.drop 1 := by
      have := @List.drop_eq_getElem?_toList_append _ data 0
      rwa [orMalformed_eq_ok.mp hfirst] at this
    split at h
    · rename_i hmulti
      obtain ⟨bs, post, hbs, hdrop, rfl⟩ := tagLoop_sound h
      exact ⟨first :: bs, post, .multi first bs hmulti hbs (by omega), by rw [hdata, hdrop]; rfl⟩
    · rename_i hsingle
      exact ⟨[first], data.drop 1, .single first hsingle, hdata⟩
  obtain ⟨t, post, ht, rfl⟩ := hshape
  rw [tagField_append ht] at h
  cases h
  exact ⟨t, post, ht, rfl, rfl, rfl⟩

/-! ### The length -/

theorem low_seven_bits (b : UInt8) (h : ¬ b < 0x80) : b.toNat = 0x80 + (b &&& 0x7F).toNat := by
  revert b
  decide +kernel

/-- The first byte of a long length is not a short one, and its low seven bits are the count. -/
theorem count_of_long {b : UInt8} {k : ℕ} (h : b.toNat = 0x80 + k) :
    ¬ b < 0x80 ∧ (b &&& 0x7F).toNat = k := by
  have hlarge : ¬ b < 0x80 := by
    rw [UInt8.lt_iff_toNat_lt, h]
    simp
  have := low_seven_bits b hlarge
  exact ⟨hlarge, by omega⟩

theorem lengthField_append {l : Bytes} {n : ℕ} (hl : LengthField l n) (pre post : Bytes) :
    lengthField (pre ++ (l ++ post)) pre.length = .ok (n, pre.length + l.length) := by
  unfold lengthField
  cases hl with
  | short b h =>
    refine Run.bind_eq_ok.mpr ⟨b, orMalformed_eq_ok.mpr (by simp), ?_⟩
    rw [if_pos h]
    rfl
  | long b bs h hpos hle =>
    refine Run.bind_eq_ok.mpr ⟨b, orMalformed_eq_ok.mpr (by simp), ?_⟩
    obtain ⟨hlarge, hcount⟩ := count_of_long h
    rw [if_neg hlarge]
    simp only [hcount, show bs.length ≠ 0 from by omega, show ¬ bs.length > 8 from by omega,
      if_false]
    refine Run.bind_eq_ok.mpr ⟨bs, orMalformed_eq_ok.mpr ?_, ?_⟩
    · have hs := slice_append (pre ++ [b]) bs post
      rw [List.length_append, List.length_singleton, List.append_assoc, List.append_assoc] at hs
      exact hs
    · rw [List.length_cons, Nat.add_assoc, Nat.add_comm 1]
      rfl

theorem lengthField_sound {data : Bytes} {pos n p : ℕ} (h : lengthField data pos = .ok (n, p)) :
    ∃ l post, LengthField l n ∧ data.drop pos = l ++ post ∧ p = pos + l.length := by
  unfold lengthField at h
  obtain ⟨firstLen, hfirst, h⟩ := Run.bind_eq_ok.mp h
  have hdrop : data.drop pos = firstLen :: data.drop (pos + 1) := by
    rw [List.drop_eq_getElem?_toList_append, orMalformed_eq_ok.mp hfirst]
    rfl
  split at h
  · rename_i hshort
    cases h
    exact ⟨[firstLen], data.drop (pos + 1), .short firstLen hshort, hdrop, rfl⟩
  · rename_i hlong
    simp only at h
    split at h
    · cases h
    rename_i hzero
    split at h
    · cases h
    rename_i hfew
    obtain ⟨bytes, hbytes, h⟩ := Run.bind_eq_ok.mp h
    cases h
    obtain ⟨pre, post, rfl, hpre, hlen⟩ := slice_eq_some.mp (orMalformed_eq_ok.mp hbytes)
    have hcount : bytes.length = (firstLen &&& 0x7F).toNat := by omega
    refine ⟨firstLen :: bytes, post, .long firstLen bytes ?_ ?_ ?_, ?_, ?_⟩
    · rw [hcount]
      exact low_seven_bits firstLen hlong
    · omega
    · omega
    · rw [hdrop, ← hpre, List.append_assoc, List.drop_left]
      rfl
    · rw [List.length_cons]
      omega

/-! ### The header -/

/-- A header is read whatever follows it. -/
theorem IsHeader.parseHeader_append {hdr : Bytes} {h : Header} (hh : IsHeader hdr h)
    (post : Bytes) : parseHeader (hdr ++ post) = .ok h := by
  obtain ⟨t, l, rfl, ht, hl, htag, hlen⟩ := hh
  rw [parseHeader_eq_ok]
  refine ⟨t.length, ?_, ?_⟩
  · rw [List.append_assoc, tagField_append ht, htag]
  · rw [List.append_assoc, lengthField_append hl, hlen, List.length_append]

/-- **The header parser accepts exactly the byte strings that begin with a header**, and what it
returns is that header's tag, length and size. -/
theorem parseHeader_eq_ok_iff {data : Bytes} {h : Header} :
    parseHeader data = .ok h ↔ ∃ hdr post, data = hdr ++ post ∧ IsHeader hdr h := by
  constructor
  · intro heq
    obtain ⟨pos, htag, hlen⟩ := parseHeader_eq_ok.mp heq
    obtain ⟨t, post, ht, rfl, htagv, rfl⟩ := tagField_sound htag
    obtain ⟨l, post', hl, hdrop, hpos⟩ := lengthField_sound hlen
    rw [List.drop_left] at hdrop
    subst hdrop
    exact ⟨t ++ l, post', by simp, t, l, rfl, ht, hl, htagv, by rw [hpos, List.length_append]⟩
  · rintro ⟨hdr, post, rfl, hh⟩
    exact hh.parseHeader_append post

/-- A header that is there is read the same when more follows. -/
theorem parseHeader_of_prefix {data more : Bytes} {h : Header} (hpre : data <+: more)
    (heq : parseHeader data = .ok h) : parseHeader more = .ok h := by
  obtain ⟨rest, rfl⟩ := hpre
  obtain ⟨hdr, post, rfl, hh⟩ := parseHeader_eq_ok_iff.mp heq
  rw [List.append_assoc]
  exact hh.parseHeader_append _

/-- A header is read off as many bytes as it takes up. -/
theorem parseHeader_take {data : Bytes} {h : Header} {n : ℕ} (heq : parseHeader data = .ok h)
    (hn : h.headerLen ≤ n) : parseHeader (data.take n) = .ok h := by
  obtain ⟨hdr, post, rfl, hh⟩ := parseHeader_eq_ok_iff.mp heq
  obtain ⟨-, -, -, -, -, -, hlen⟩ := id hh
  rw [List.take_append, List.take_of_length_le (by omega)]
  exact hh.parseHeader_append _

theorem parseHeader_headerLen_le {data : Bytes} {h : Header} (heq : parseHeader data = .ok h) :
    h.headerLen ≤ data.length ∧ h.length < usizeSize := by
  obtain ⟨hdr, post, rfl, hh⟩ := parseHeader_eq_ok_iff.mp heq
  obtain ⟨t, l, -, -, hl, -, hlen⟩ := hh
  have hsize := LengthField.lt_usizeSize hl
  rw [List.length_append]
  exact ⟨by omega, hsize⟩

/-! ### Tags as numbers -/

/-- The number of a tag of several bytes takes up as many bytes. -/
theorem TagField.pow_le {t : Bytes} (h : TagField t) (hlen : 2 ≤ t.length) :
    256 ^ (t.length - 1) ≤ bigEndian t := by
  cases h with
  | single b h => simp at hlen
  | multi b bs h hbs hle =>
    have hb : b.toNat ≠ 0 := by
      intro hzero
      rw [show b = 0 from UInt8.toNat_inj.mp hzero] at h
      cases h
    rw [bigEndian_cons, List.length_cons, Nat.add_sub_cancel]
    have := Nat.mul_le_mul_right (256 ^ bs.length) (Nat.one_le_iff_ne_zero.mpr hb)
    omega

theorem TagField.bigEndian_lt_of_length_lt {t t' : Bytes} (ht : TagField t) (ht' : TagField t')
    (h : t.length < t'.length) : bigEndian t < bigEndian t' := by
  have hpos := ht.length_pos
  calc bigEndian t < 256 ^ t.length := bigEndian_lt t
    _ ≤ 256 ^ (t'.length - 1) := Nat.pow_le_pow_right (by norm_num) (by omega)
    _ ≤ bigEndian t' := ht'.pow_le (by omega)

/-- Tags written differently have different numbers. -/
theorem TagField.bigEndian_injective {t t' : Bytes} (ht : TagField t) (ht' : TagField t')
    (h : bigEndian t = bigEndian t') : t = t' := by
  rcases Nat.lt_trichotomy t.length t'.length with hlt | heq | hgt
  · exact absurd h (ht.bigEndian_lt_of_length_lt ht' hlt).ne
  · exact bigEndian_inj heq h
  · exact absurd h (ht'.bigEndian_lt_of_length_lt ht hgt).ne'

/-- **What the header parser accepts and what it depends on.** It returns a header exactly when the
bytes begin with a tag and a length; the tag and the length are then the numbers these denote, and
the size is that of the two. The bytes after them do not matter, and tags written differently have
different numbers. -/
theorem parseHeader_grammar (data : Bytes) :
    (∀ h, parseHeader data = .ok h ↔ ∃ t l post n, data = t ++ l ++ post ∧ TagField t ∧
      LengthField l n ∧ h = ⟨bigEndian t, n, (t ++ l).length⟩) ∧
    (∀ h other, parseHeader data = .ok h → data.take h.headerLen <+: other →
      parseHeader other = .ok h) ∧
    ∀ t t', TagField t → TagField t' → t ≠ t' → bigEndian t ≠ bigEndian t' := by
  refine ⟨?_, ?_, ?_⟩
  · intro h
    rw [parseHeader_eq_ok_iff]
    constructor
    · intro hheader
      obtain ⟨hdr, post, hdata, t, l, rfl, ht, hl, htag, hlen⟩ := hheader
      refine ⟨t, l, post, h.length, hdata, ht, hl, ?_⟩
      rw [← htag, ← hlen]
    · intro hheader
      obtain ⟨t, l, post, n, hdata, ht, hl, rfl⟩ := hheader
      exact ⟨t ++ l, post, hdata, t, l, rfl, ht, hl, rfl, rfl⟩
  · intro h other heq hpre
    exact parseHeader_of_prefix hpre (parseHeader_take heq le_rfl)
  · intro t t' ht ht' hne heq
    exact hne (ht.bigEndian_injective ht' heq)

/-! ### Objects as written -/

/-- An object: a header and the value it declares. -/
structure Obj where
  hdr : Bytes
  tag : ℕ
  value : Bytes
  wf : IsHeader hdr ⟨tag, value.length, hdr.length⟩

namespace Obj

/-- The object's own bytes. -/
def raw (o : Obj) : Bytes := o.hdr ++ o.value

/-- What the reader gives for the object. -/
def tlv (o : Obj) : Tlv := ⟨o.tag, o.value⟩

@[simp] theorem raw_length (o : Obj) : o.raw.length = o.hdr.length + o.value.length := by
  simp [raw]

theorem raw_length_ge (o : Obj) : 2 ≤ o.raw.length := by
  have := o.wf.length_ge
  rw [raw_length]
  omega

theorem raw_ne_nil (o : Obj) : o.raw ≠ [] := by
  have := o.raw_length_ge
  intro h
  simp [h] at this

theorem parseHeader_raw_append (o : Obj) (post : Bytes) :
    parseHeader (o.raw ++ post) = .ok ⟨o.tag, o.value.length, o.hdr.length⟩ := by
  rw [raw, List.append_assoc]
  exact o.wf.parseHeader_append _

theorem slice_raw_append (o : Obj) (post : Bytes) :
    slice (o.raw ++ post) o.hdr.length o.raw.length = some o.value := by
  rw [raw_length]
  exact slice_append o.hdr o.value post

/-- An object whose bytes begin another's is that other object. -/
theorem eq_of_prefix {o o' : Obj} (h : o.raw <+: o'.raw) : o = o' := by
  obtain ⟨x, hx⟩ := h
  -- both headers are read off the same bytes
  have h1 := o.parseHeader_raw_append x
  have h2 := o'.parseHeader_raw_append []
  rw [hx, ← List.append_nil o'.raw, h2] at h1
  simp only [Except.ok.injEq, Header.mk.injEq] at h1
  obtain ⟨htag, hlen, hhlen⟩ := h1
  have hlens : x = [] := by
    have := congrArg List.length hx
    simp only [List.length_append, raw_length] at this
    exact List.length_eq_zero_iff.mp (by omega)
  rw [hlens, List.append_nil] at hx
  obtain ⟨hdr, tag, value, wf⟩ := o
  obtain ⟨hdr', tag', value', wf'⟩ := o'
  simp only [raw] at hx
  obtain ⟨rfl, rfl⟩ := List.append_inj hx hhlen.symm
  simp only at htag
  subst htag
  rfl

theorem raw_injective : Function.Injective raw :=
  fun _ _ h => eq_of_prefix (h ▸ List.prefix_refl _)

end Obj

/-- The raw forms of objects. -/
def objects : Set Bytes := Set.range Obj.raw

theorem raw_mem_objects (o : Obj) : o.raw ∈ objects := ⟨o, rfl⟩

theorem objects_prefixFree : PrefixFree objects := by
  rintro _ ⟨o, rfl⟩ _ ⟨o', rfl⟩ h
  rw [Obj.eq_of_prefix h]

theorem nil_notMem_objects : [] ∉ objects := fun ⟨o, h⟩ => o.raw_ne_nil h

/-- The bytes of a run of objects, in order. -/
def concat (objs : List Obj) : Bytes := (objs.map Obj.raw).flatten

@[simp] theorem concat_nil : concat [] = [] := rfl

@[simp] theorem concat_cons (o : Obj) (objs : List Obj) :
    concat (o :: objs) = o.raw ++ concat objs := rfl

@[simp] theorem concat_append (xs ys : List Obj) : concat (xs ++ ys) = concat xs ++ concat ys := by
  simp [concat]

theorem mem_map_raw_objects {objs : List Obj} {u : Bytes} (hu : u ∈ objs.map Obj.raw) :
    u ∈ objects := by
  obtain ⟨o, -, rfl⟩ := List.mem_map.mp hu
  exact raw_mem_objects o

/-- **A run of objects is decodable in one way only.** -/
theorem concat_injective : Function.Injective concat := by
  intro xs ys h
  have hmap := objects_prefixFree.uniquelyDecodable nil_notMem_objects (xs.map Obj.raw)
    (ys.map Obj.raw) (fun _ => mem_map_raw_objects) (fun _ => mem_map_raw_objects) h
  exact Obj.raw_injective.list_map hmap

/-! ### What `parse` and the iterator read -/

/-- The value a header declares is there, and the sum it is sliced at did not wrap. -/
theorem objectAt_eq_ok_iff {oc : OverflowChecks} {what : String} {rest : Bytes} {n : ℕ} {t : Tlv} :
    objectAt oc what rest = .ok (n, t) ↔
      ∃ (o : Obj) (post : Bytes), rest = o.raw ++ post ∧ o.raw.length < usizeSize ∧ n = o.raw.length ∧
        t = o.tlv := by
  unfold objectAt
  constructor
  · intro h
    obtain ⟨header, hheader, h⟩ := Run.bind_eq_ok.mp h
    obtain ⟨stop, hstop, h⟩ := Run.bind_eq_ok.mp h
    obtain ⟨value, hvalue, h⟩ := Run.bind_eq_ok.mp h
    cases h
    obtain ⟨hdr, post, rfl, hh⟩ := parseHeader_eq_ok_iff.mp hheader
    obtain ⟨pre, post', hsplit, hpre, hlen⟩ := slice_eq_some.mp (orMalformed_eq_ok.mp hvalue)
    have hhdr := hh.length_ge
    obtain ⟨tb, lb, hcat, ht, hl, htag, hhlen⟩ := id hh
    obtain ⟨htotal, hfits⟩ := Header.totalLen_eq_ok (by omega) hstop (by omega) hl.lt_usizeSize
    have hprehdr : pre = hdr := by
      rw [List.append_assoc] at hsplit
      exact ((List.append_inj hsplit) (by omega)).1.symm
    subst hprehdr
    have hvlen : value.length = header.length := by omega
    refine ⟨⟨pre, header.tag, value, ?_⟩, post', ?_, ?_, ?_, rfl⟩
    · obtain ⟨htagv, hlength, hlenv⟩ := header
      simp only at hvlen hhlen
      rw [hvlen, ← hhlen]
      exact hh
    · exact hsplit
    · rw [Obj.raw_length]
      show pre.length + value.length < usizeSize
      omega
    · rw [Obj.raw_length]
      show n = pre.length + value.length
      omega
  · rintro ⟨o, post, rfl, hsize, rfl, rfl⟩
    rw [Obj.raw_length] at hsize
    refine Run.bind_eq_ok.mpr ⟨_, o.parseHeader_raw_append post, ?_⟩
    refine Run.bind_eq_ok.mpr ⟨_, usizeAdd_of_lt oc hsize, ?_⟩
    refine Run.bind_eq_ok.mpr ⟨o.value, orMalformed_eq_ok.mpr ?_, ?_⟩
    · rw [← Obj.raw_length]
      exact o.slice_raw_append post
    · rw [Obj.raw_length]
      rfl

theorem objectAt_raw_append (oc : OverflowChecks) (what : String) (o : Obj)
    (hsize : o.raw.length < usizeSize) (post : Bytes) :
    objectAt oc what (o.raw ++ post) = .ok (o.raw.length, o.tlv) :=
  objectAt_eq_ok_iff.mpr ⟨o, post, rfl, hsize, rfl, rfl⟩

/-- `parse` is that step without the size. -/
theorem parse_eq_objectAt (oc : OverflowChecks) (data : Bytes) :
    parse oc data = (objectAt oc "TLV value is truncated" data).map Prod.snd := by
  unfold parse objectAt
  cases parseHeader data with
  | error e => rfl
  | ok header =>
    cases hstop : header.totalLen oc with
    | error e => simp [bind, Except.bind, hstop, Except.map]
    | ok stop =>
      cases hvalue : orMalformed "TLV value is truncated" (slice data header.headerLen stop) with
      | error e => simp [bind, Except.bind, hstop, hvalue, Except.map]
      | ok value => simp [bind, Except.bind, hstop, hvalue, Except.map, pure, Except.pure]

/-- **`parse` reads one object off the front and ignores the rest.** -/
theorem parse_eq_ok_iff {oc : OverflowChecks} {data : Bytes} {t : Tlv} :
    parse oc data = .ok t ↔
      ∃ (o : Obj) (post : Bytes), data = o.raw ++ post ∧ o.raw.length < usizeSize ∧ t = o.tlv := by
  rw [parse_eq_objectAt]
  constructor
  · intro h
    cases hnext : objectAt oc "TLV value is truncated" data with
    | error e => simp [hnext, Except.map] at h
    | ok r =>
      obtain ⟨n, t'⟩ := r
      simp only [hnext, Except.map, Except.ok.injEq] at h
      obtain ⟨o, post, hdata, hsize, -, ht⟩ := objectAt_eq_ok_iff.mp hnext
      exact ⟨o, post, hdata, hsize, h ▸ ht⟩
  · rintro ⟨o, post, hdata, hsize, ht⟩
    rw [objectAt_eq_ok_iff.mpr ⟨o, post, hdata, hsize, rfl, ht⟩]
    rfl

theorem parse_raw_append (oc : OverflowChecks) (o : Obj) (hsize : o.raw.length < usizeSize)
    (post : Bytes) : parse oc (o.raw ++ post) = .ok o.tlv :=
  parse_eq_ok_iff.mpr ⟨o, post, rfl, hsize, rfl⟩

/-! ### Runs of objects in front of filler -/

/-- Nothing, or bytes that begin with filler: where a walk over objects stops. -/
def StartsFiller (x : Bytes) : Prop := ∀ b, x.head? = some b → isFiller b = true

/-- The object's first byte is not a filler byte, so a walk does not stop at it. -/
def Obj.NotFiller (o : Obj) : Prop := ∀ b, o.raw.head? = some b → isFiller b = false

theorem startsFiller_nil : StartsFiller [] := fun _ h => nomatch h

theorem Obj.exists_raw_eq_cons (o : Obj) : ∃ b bs, o.raw = b :: bs :=
  List.exists_cons_of_ne_nil o.raw_ne_nil

/-- A walk does not stop in front of an object, and does stop in front of filler. -/
theorem Obj.NotFiller.not_startsFiller {o : Obj} (h : o.NotFiller) (post : Bytes) :
    ¬ StartsFiller (o.raw ++ post) := by
  intro hfill
  obtain ⟨b, bs, hraw⟩ := o.exists_raw_eq_cons
  have h1 := h b (by rw [hraw]; rfl)
  have h2 := hfill b (by rw [hraw]; rfl)
  rw [h1] at h2
  cases h2

/-- The objects in front of filler, and the filler, are determined. -/
theorem concat_append_inj {xs ys : List Obj} {x y : Bytes} (hxs : ∀ o ∈ xs, o.NotFiller)
    (hys : ∀ o ∈ ys, o.NotFiller) (hx : StartsFiller x) (hy : StartsFiller y)
    (h : concat xs ++ x = concat ys ++ y) : xs = ys ∧ x = y := by
  induction xs generalizing ys with
  | nil =>
    cases ys with
    | nil => exact ⟨rfl, h⟩
    | cons o ys =>
      rw [concat_nil, List.nil_append, concat_cons, List.append_assoc] at h
      exact absurd (h ▸ hx) ((hys o List.mem_cons_self).not_startsFiller _)
  | cons o xs ih =>
    cases ys with
    | nil =>
      rw [concat_nil, List.nil_append, concat_cons, List.append_assoc] at h
      exact absurd (h ▸ hy) ((hxs o List.mem_cons_self).not_startsFiller _)
    | cons o' ys =>
      simp only [concat_cons, List.append_assoc] at h
      obtain ⟨hraw, hrest⟩ :=
        objects_prefixFree.append_inj (raw_mem_objects o) (raw_mem_objects o') h
      obtain ⟨rfl, hxy⟩ := ih (fun p hp => hxs p (List.mem_cons_of_mem _ hp))
        (fun p hp => hys p (List.mem_cons_of_mem _ hp)) hrest
      exact ⟨by rw [Obj.raw_injective hraw], hxy⟩

theorem length_le_concat {o : Obj} {objs : List Obj} (h : o ∈ objs) :
    o.raw.length ≤ (concat objs).length := by
  obtain ⟨xs, ys, rfl⟩ := List.append_of_mem h
  simp only [concat_append, concat_cons, List.length_append]
  omega

theorem iter_startsFiller (oc : OverflowChecks) {x : Bytes} (h : StartsFiller x) :
    iter oc x = [] := by
  have hnext : next oc x = (none, x) := by
    cases x with
    | nil => rfl
    | cons b bs => simp [next, h b rfl]
  rw [iter, hnext]

theorem iter_raw_append (oc : OverflowChecks) {o : Obj} (hplain : o.NotFiller)
    (hsize : o.raw.length < usizeSize) (post : Bytes) :
    iter oc (o.raw ++ post) = .ok o.tlv :: iter oc post := by
  have hnext : next oc (o.raw ++ post) = (some (.ok o.tlv), post) := by
    obtain ⟨b, bs, hraw⟩ := o.exists_raw_eq_cons
    have hb := hplain b (by rw [hraw]; rfl)
    have hobj := objectAt_raw_append oc "TLV value is truncated" o hsize post
    have hdrop : (o.raw ++ post).drop o.raw.length = post := List.drop_left
    rw [hraw] at hobj hdrop ⊢
    simp only [List.cons_append] at hobj hdrop ⊢
    simp only [next, hb, Bool.false_eq_true, if_false, hobj, hdrop]
  rw [iter, hnext]

/-- The iterator yields the objects at the front, in order, and goes on behind them. -/
theorem iter_concat_append (oc : OverflowChecks) {objs : List Obj}
    (hobjs : ∀ o ∈ objs, o.NotFiller ∧ o.raw.length < usizeSize) (post : Bytes) :
    iter oc (concat objs ++ post) = (objs.map fun o => .ok o.tlv) ++ iter oc post := by
  induction objs with
  | nil => rfl
  | cons o objs ih =>
    obtain ⟨hplain, hsize⟩ := hobjs o List.mem_cons_self
    rw [concat_cons, List.append_assoc, iter_raw_append oc hplain hsize,
      ih fun p hp => hobjs p (List.mem_cons_of_mem _ hp)]
    rfl

/-- The iterator yields the objects in front of filler, in order, and stops. -/
theorem iter_concat (oc : OverflowChecks) {objs : List Obj} {tail : Bytes}
    (hplain : ∀ o ∈ objs, o.NotFiller) (hsize : (concat objs).length < usizeSize)
    (htail : StartsFiller tail) :
    iter oc (concat objs ++ tail) = objs.map fun o => .ok o.tlv := by
  have hobjs : ∀ o ∈ objs, o.NotFiller ∧ o.raw.length < usizeSize := by
    intro o ho
    exact ⟨hplain o ho, lt_of_le_of_lt (length_le_concat ho) hsize⟩
  rw [iter_concat_append oc hobjs, iter_startsFiller oc htail, List.append_nil]

/-! ### Making an object -/

/-- A tag of one byte and a length of one byte. -/
theorem isHeader_short (tag : UInt8) (htag : tag &&& 0x1F ≠ 0x1F) {n : ℕ} (hn : n < 0x80) :
    IsHeader [tag, UInt8.ofNat n] ⟨tag.toNat, n, 2⟩ := by
  have hbyte : (UInt8.ofNat n).toNat = n := by
    rw [UInt8.toNat_ofNat']
    omega
  have hl := LengthField.short (UInt8.ofNat n) (by rw [UInt8.lt_iff_toNat_lt, hbyte]; exact hn)
  rw [hbyte] at hl
  exact ⟨[tag], [UInt8.ofNat n], rfl, .single tag htag, hl, (bigEndian_singleton tag).symm, rfl⟩

/-- The object with a one byte tag and a one byte length that holds `value`. -/
def Obj.short (tag : UInt8) (value : Bytes) (htag : tag &&& 0x1F ≠ 0x1F)
    (hlen : value.length < 0x80) : Obj :=
  ⟨[tag, UInt8.ofNat value.length], tag.toNat, value, isHeader_short tag htag hlen⟩

/-- The object with a two byte tag and an eight byte length that holds `value`. -/
def Obj.mk2 (hi lo : UInt8) (value : Bytes) (hhi : hi &&& 0x1F = 0x1F) (hlo : lo &&& 0x80 = 0)
    (hlen : value.length < usizeSize) : Obj where
  hdr := [hi, lo] ++ (0x88 :: beBytes 8 value.length)
  tag := bigEndian [hi, lo]
  value := value
  wf := by
    refine ⟨[hi, lo], 0x88 :: beBytes 8 value.length, rfl,
      .multi hi [lo] hhi (.last lo hlo) (by simp), ?_, rfl, by simp⟩
    have h := LengthField.long 0x88 (beBytes 8 value.length)
      (by rw [beBytes_length]; rfl) (by simp) (by simp)
    rw [bigEndian_beBytes (by unfold usizeSize at hlen; omega)] at h
    exact h

theorem Obj.mk2_raw_length {hi lo : UInt8} {value : Bytes} (hhi : hi &&& 0x1F = 0x1F)
    (hlo : lo &&& 0x80 = 0) (hlen : value.length < usizeSize) :
    (Obj.mk2 hi lo value hhi hlo hlen).raw.length = 11 + value.length := by
  rw [Obj.raw_length]
  simp [Obj.mk2]

end MynaCard.Ber
