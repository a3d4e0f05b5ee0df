import MynaCard.Ap.Text
import MynaCard.SessionExchange

/-!
# Sums of lengths that do not fit `usize`

Every reader of a BER-TLV object adds the size of its header to the length it declares. A declared
length can be as large as `2^64 - 1`, so the sum can miss `usize`: a build with overflow checks
panics, and one without goes on with the sum reduced modulo `2^64`.

`Overlong` is the shape of the bytes this happens on: the eight byte length form, seven `FF` and a
last byte within a header's size of 256. For each reader there is a lemma that says on which inputs
it comes to add such a sum, and `noOverflow_iff_not_overlong` puts them together.
-/

namespace MynaCard

open Ber

/-! ### Overflow of a computation -/

section Overflow

variable {α β : Type}

/-- The computation panicked on a sum of lengths. -/
def Overflows (x : Run α) : Prop := x = .error (.panic .usizeOverflow)

/-- No sum of lengths overflows: a checked build does not panic on one, and an unchecked build
computes what the checked one does. -/
def NoOverflow (x : OverflowChecks → Run α) : Prop := ¬ Overflows (x .on) ∧ x .off = x .on

/-- The builds differ at most where the checked one panics on a sum of lengths. -/
def OnlyPanics (x : OverflowChecks → Run α) : Prop := Overflows (x .on) ∨ x .off = x .on

theorem OnlyPanics.noOverflow_iff {x : OverflowChecks → Run α} (h : OnlyPanics x) :
    NoOverflow x ↔ ¬ Overflows (x .on) :=
  ⟨fun hno => hno.1, fun hno => ⟨hno, h.resolve_left hno⟩⟩

theorem onlyPanics_const (x : Run α) : OnlyPanics fun _ => x := .inr rfl

theorem OnlyPanics.bind {x : OverflowChecks → Run α} {f : OverflowChecks → α → Run β}
    (hx : OnlyPanics x) (hf : ∀ a, OnlyPanics fun oc => f oc a) :
    OnlyPanics fun oc => x oc >>= f oc := by
  rcases hx with hx | hx
  · left
    show x .on >>= f .on = _
    rw [show x .on = _ from hx]
    rfl
  · show Overflows (x .on >>= f .on) ∨ x .off >>= f .off = x .on >>= f .on
    rw [hx]
    cases hon : x .on with
    | error e => exact .inr rfl
    | ok a => exact hf a

theorem onlyPanics_totalLen (h : Header) : OnlyPanics fun oc => h.totalLen oc := by
  by_cases hlt : h.headerLen + h.length < usizeSize
  · right
    show usizeAdd _ _ _ = usizeAdd _ _ _
    rw [usizeAdd_of_lt _ hlt, usizeAdd_of_lt _ hlt]
  · left
    show usizeAdd _ _ _ = _
    rw [usizeAdd, if_neg hlt]

theorem overflows_bind {x : Run α} {f : α → Run β} :
    Overflows (x >>= f) ↔ Overflows x ∨ ∃ a, x = .ok a ∧ Overflows (f a) := by
  unfold Overflows
  cases x with
  | error e => simp [bind, Except.bind]
  | ok a => simp [bind, Except.bind]

@[simp] theorem not_overflows_ok (a : α) : ¬ Overflows (.ok a : Run α) := fun h => nomatch h

@[simp] theorem not_overflows_malformed (what : String) : ¬ Overflows (malformed what : Run α) :=
  fun h => nomatch h

@[simp] theorem not_overflows_orMalformed (what : String) (o : Option α) :
    ¬ Overflows (orMalformed what o) := by
  cases o with
  | none => exact not_overflows_malformed what
  | some a => exact not_overflows_ok a

/-- A sequence of parts that do not stop in this way does not stop in this way. -/
theorem bind_ne_error {x : Run α} {f : α → Run β} {stop : Stop} (hx : x ≠ .error stop)
    (hf : ∀ a, x = .ok a → f a ≠ .error stop) : x >>= f ≠ .error stop := by
  cases x with
  | error stop' =>
    intro h
    exact hx (congrArg Except.error (Except.error.inj h))
  | ok a => exact hf a rfl

theorem not_overflows_bind {x : Run α} {f : α → Run β} (hx : ¬ Overflows x)
    (hf : ∀ a, x = .ok a → ¬ Overflows (f a)) : ¬ Overflows (x >>= f) :=
  bind_ne_error hx hf

end Overflow

/-! ### Computations that return -/

section Returns

variable {α β : Type}

theorem returned_malformed (what : String) : Returned (malformed what : Run α) := returned_err _

theorem returned_orMalformed (what : String) (o : Option α) : Returned (orMalformed what o) := by
  cases o with
  | none => exact returned_malformed what
  | some a => exact returned_ok a

theorem Returned.bind {x : Run α} {f : α → Run β} (hx : Returned x) (hf : ∀ a, Returned (f a)) :
    Returned (x >>= f) := by
  cases x with
  | error stop =>
    intro stop' h
    exact hx stop' (congrArg Except.error (Except.error.inj h))
  | ok a => exact hf a

theorem Returned.not_overflows {x : Run α} (h : Returned x) : ¬ Overflows x := by
  intro hover
  obtain ⟨e, he⟩ := h _ hover
  cases he

end Returns

/-! ### The header -/

theorem returned_tagLoop (data : Bytes) (pos tag : ℕ) : Returned (tagLoop data pos tag) := by
  induction pos, tag using tagLoop.induct data with
  | case1 pos tag hnone =>
    rw [tagLoop, hnone]
    exact returned_malformed _
  | case2 pos tag byte hbyte hlong =>
    rw [tagLoop, hbyte]
    show Returned (if pos + 1 > 4 then _ else _)
    rw [if_pos hlong]
    exact returned_malformed _
  | case3 pos tag byte hbyte hshort hlast =>
    rw [tagLoop, hbyte]
    show Returned (if pos + 1 > 4 then _ else _)
    rw [if_neg hshort, if_pos hlast]
    exact returned_ok _
  | case4 pos tag byte hbyte hshort hmore ih =>
    rw [tagLoop, hbyte]
    show Returned (if pos + 1 > 4 then _ else _)
    rw [if_neg hshort, if_neg hmore]
    exact ih

theorem returned_lengthField (data : Bytes) (pos : ℕ) : Returned (lengthField data pos) := by
  refine (returned_orMalformed _ _).bind fun firstLen => ?_
  split
  · exact returned_ok _
  · simp only
    split
    · exact returned_malformed _
    · split
      · exact returned_malformed _
      · exact (returned_orMalformed _ _).bind fun _ => returned_ok _

/-- Reading a header comes back, with the header or an error. -/
theorem returned_parseHeader (data : Bytes) : Returned (parseHeader data) := by
  refine Returned.bind ?_ fun x => ?_
  · refine (returned_orMalformed _ _).bind fun first => ?_
    split
    · exact returned_tagLoop _ _ _
    · exact returned_ok _
  · exact (returned_lengthField _ _).bind fun _ => returned_ok _

@[simp] theorem not_overflows_parseHeader (data : Bytes) : ¬ Overflows (parseHeader data) :=
  (returned_parseHeader data).not_overflows

/-- The bytes begin with a header whose declared length is within the header's size of `2^64`: a
tag, the eight byte length form, seven `FF`, and a last byte within the header's size of 256. -/
def Overlong (data : Bytes) : Prop :=
  ∃ t last post, TagField t ∧ data = t ++ (0x88 :: List.replicate 7 0xFF ++ [last]) ++ post ∧
    256 ≤ t.length + 9 + last.toNat

/-- The largest number of seven bytes. -/
theorem bigEndian_replicate_FF : bigEndian (List.replicate 7 0xFF) = 2 ^ 56 - 1 := by decide

/-- A length that does not leave room for its header is written in eight bytes, seven of them
`FF`. -/
theorem LengthField.eq_of_overlong {l : Bytes} {n k : ℕ} (h : LengthField l n) (hk : k ≤ 13)
    (hsum : 2 ^ 64 ≤ k + n) : ∃ last, l = 0x88 :: List.replicate 7 0xFF ++ [last] ∧
      n = (2 ^ 56 - 1) * 256 + last.toNat := by
  cases h with
  | short b h =>
    have := b.toNat_lt
    omega
  | long b bs h hpos hle =>
    have hlen : bs.length = 8 := by
      by_contra hne
      have hlt := bigEndian_lt bs
      have hpow : (256 : ℕ) ^ bs.length ≤ 256 ^ 7 :=
        Nat.pow_le_pow_right (by norm_num) (by omega)
      omega
    obtain ⟨first, last, rfl⟩ : ∃ first last, bs = first ++ [last] :=
      ⟨bs.dropLast, bs.getLast (by rintro rfl; simp at hlen), (List.dropLast_append_getLast _).symm⟩
    have hfirst : first.length = 7 := by simpa using hlen
    rw [bigEndian_snoc] at hsum ⊢
    have hlast := last.toNat_lt
    have hlt := bigEndian_lt first
    rw [hfirst] at hlt
    have hval : bigEndian first = 2 ^ 56 - 1 := by omega
    have hff : first = List.replicate 7 0xFF :=
      bigEndian_inj (by simp [hfirst]) (hval.trans bigEndian_replicate_FF.symm)
    have hb : b = 0x88 := by
      apply UInt8.toNat_inj.mp
      rw [h, hlen]
      rfl
    refine ⟨last, ?_, by rw [hval]⟩
    rw [hff, hb]
    rfl

/-- **A header's sum overflows exactly on an overlong header.** -/
theorem overlong_iff {data : Bytes} :
    Overlong data ↔ ∃ h, parseHeader data = .ok h ∧ usizeSize ≤ h.headerLen + h.length := by
  unfold usizeSize
  constructor
  · intro hover
    obtain ⟨t, last, post, ht, rfl, hsum⟩ := hover
    have hl := LengthField.long 0x88 (List.replicate 7 0xFF ++ [last]) (by simp) (by simp) (by simp)
    rw [bigEndian_snoc, bigEndian_replicate_FF] at hl
    have hh : IsHeader (t ++ (0x88 :: List.replicate 7 0xFF ++ [last]))
        ⟨bigEndian t, (2 ^ 56 - 1) * 256 + last.toNat, t.length + 9⟩ :=
      ⟨t, _, rfl, ht, hl, rfl, by simp⟩
    refine ⟨_, hh.parseHeader_append post, ?_⟩
    show 2 ^ 64 ≤ t.length + 9 + ((2 ^ 56 - 1) * 256 + last.toNat)
    omega
  · intro hheader
    obtain ⟨h, hparse, hsum⟩ := hheader
    have hle := (parseHeader_headerLen hparse).2
    obtain ⟨hdr, post, rfl, t, l, rfl, ht, hl, -, hlen⟩ := parseHeader_eq_ok_iff.mp hparse
    obtain ⟨last, rfl, hn⟩ := LengthField.eq_of_overlong hl hle hsum
    refine ⟨t, last, post, ht, rfl, ?_⟩
    rw [List.length_append] at hlen
    simp only [List.cons_append, List.length_cons, List.length_append, List.length_replicate,
      List.length_nil] at hlen
    omega

theorem overflows_totalLen_iff {data : Bytes} {h : Header} (hparse : parseHeader data = .ok h) :
    Overflows (h.totalLen .on) ↔ Overlong data := by
  have hsum : Overflows (h.totalLen .on) ↔ usizeSize ≤ h.headerLen + h.length := by
    unfold Overflows Header.totalLen usizeAdd
    split
    · simp
      omega
    · simp
      omega
  rw [hsum, overlong_iff]
  constructor
  · intro hle
    exact ⟨h, hparse, hle⟩
  · intro hover
    obtain ⟨h', hparse', hle⟩ := hover
    rw [hparse] at hparse'
    exact Except.ok.inj hparse' ▸ hle

/-! ### Objects -/

theorem onlyPanics_objectAt (what : String) (rest : Bytes) :
    OnlyPanics fun oc => objectAt oc what rest :=
  (onlyPanics_const _).bind fun header => (onlyPanics_totalLen header).bind fun _ =>
    onlyPanics_const _

/-- Reading an object overflows exactly on an overlong header. -/
theorem overflows_objectAt_iff (what : String) {rest : Bytes} :
    Overflows (objectAt .on what rest) ↔ Overlong rest := by
  rw [objectAt, overflows_bind]
  constructor
  · intro h
    rcases h with h | ⟨header, hparse, h⟩
    · exact absurd h (not_overflows_parseHeader rest)
    rcases overflows_bind.mp h with h | ⟨stop, -, h⟩
    · exact (overflows_totalLen_iff hparse).mp h
    · exact absurd h (not_overflows_bind (not_overflows_orMalformed _ _)
        fun _ _ => not_overflows_ok _)
  · intro hover
    obtain ⟨header, hparse, -⟩ := overlong_iff.mp hover
    exact .inr ⟨header, hparse, overflows_bind.mpr
      (.inl ((overflows_totalLen_iff hparse).mpr hover))⟩

theorem onlyPanics_parse (data : Bytes) : OnlyPanics fun oc => Ber.parse oc data :=
  (onlyPanics_const _).bind fun header => (onlyPanics_totalLen header).bind fun _ =>
    onlyPanics_const _

theorem overflows_parse_iff {data : Bytes} : Overflows (Ber.parse .on data) ↔ Overlong data := by
  rw [parse_eq_objectAt, ← overflows_objectAt_iff "TLV value is truncated"]
  unfold Overflows
  cases objectAt .on "TLV value is truncated" data <;> simp [Except.map]

/-! ### Walks over objects -/

/-- A walk over objects comes to an overlong header: objects, and then the header. -/
def OverlongIn (data : Bytes) : Prop :=
  ∃ objs rest, data = concat objs ++ rest ∧
    (∀ o ∈ objs, o.NotFiller ∧ o.raw.length < usizeSize) ∧ ¬ StartsFiller rest ∧ Overlong rest

theorem not_overlongIn_of_startsFiller {data : Bytes} (h : StartsFiller data) :
    ¬ OverlongIn data := by
  intro hover
  obtain ⟨objs, rest, rfl, hobjs, hrest, -⟩ := hover
  cases objs with
  | nil => exact hrest h
  | cons o objs =>
    rw [concat_cons, List.append_assoc] at h
    exact (hobjs o List.mem_cons_self).1.not_startsFiller _ h

/-- What is not read as an object leads a walk to an overlong header only by being one. -/
theorem overlongIn_iff_of_error {oc : OverflowChecks} {what : String} {data : Bytes} {e : Stop}
    (hplain : ¬ StartsFiller data) (h : objectAt oc what data = .error e) :
    OverlongIn data ↔ Overlong data := by
  constructor
  · intro hover
    obtain ⟨objs, rest, rfl, hobjs, -, hrest⟩ := hover
    cases objs with
    | nil => exact hrest
    | cons o objs =>
      rw [concat_cons, List.append_assoc,
        objectAt_raw_append oc what o (hobjs o List.mem_cons_self).2] at h
      cases h
  · intro hover
    exact ⟨[], data, rfl, by simp, hplain, hover⟩

/-- What follows an object leads a walk to an overlong header if it does itself. -/
theorem overlongIn_raw_append {o : Obj} (hplain : o.NotFiller) (hsize : o.raw.length < usizeSize)
    (post : Bytes) : OverlongIn (o.raw ++ post) ↔ OverlongIn post := by
  constructor
  · intro hover
    obtain ⟨objs, rest, hcat, hobjs, hrest, hover⟩ := hover
    cases objs with
    | nil =>
      rw [concat_nil, List.nil_append] at hcat
      rw [← hcat, ← overflows_objectAt_iff ""] at hover
      rw [objectAt_raw_append .on "" o hsize] at hover
      exact absurd hover (not_overflows_ok _)
    | cons o' objs =>
      rw [concat_cons, List.append_assoc] at hcat
      obtain ⟨-, hpost⟩ := objects_prefixFree.append_inj (raw_mem_objects o) (raw_mem_objects o') hcat
      exact ⟨objs, rest, hpost, fun p hp => hobjs p (List.mem_cons_of_mem _ hp), hrest, hover⟩
  · intro hover
    obtain ⟨objs, rest, rfl, hobjs, hrest, hover⟩ := hover
    refine ⟨o :: objs, rest, by rw [concat_cons, List.append_assoc], ?_, hrest, hover⟩
    intro p hp
    rcases List.mem_cons.mp hp with rfl | hp
    · exact ⟨hplain, hsize⟩
    · exact hobjs p hp

/-- A byte string a walk does not stop at, and that begins with an object, begins with one that is
not filler. -/
theorem notFiller_of_not_startsFiller {o : Obj} {post : Bytes} (h : ¬ StartsFiller (o.raw ++ post)) :
    o.NotFiller := by
  intro b hb
  by_contra hf
  apply h
  intro b' hb'
  obtain ⟨c, cs, hraw⟩ := o.exists_raw_eq_cons
  rw [hraw] at hb hb'
  obtain rfl : b = b' := Option.some.inj (hb.symm.trans hb')
  simpa using hf

theorem onlyPanics_walk (offsetTable : Option ℕ) (w : Walk) :
    OnlyPanics fun oc => walk oc offsetTable w := by
  by_cases hfill : StartsFiller w.rest
  · right
    show walk .off offsetTable w = walk .on offsetTable w
    rw [walk_startsFiller _ _ hfill, walk_startsFiller _ _ hfill]
  · show Overflows (walk .on offsetTable w) ∨ walk .off offsetTable w = walk .on offsetTable w
    rw [walk_step .on _ hfill, walk_step .off _ hfill]
    rcases onlyPanics_objectAt fieldTooLong w.rest with hpanic | heq
    · left
      rw [show objectAt .on fieldTooLong w.rest = _ from hpanic]
      rfl
    · rw [show objectAt .off fieldTooLong w.rest = objectAt .on fieldTooLong w.rest from heq]
      cases hobj : objectAt .on fieldTooLong w.rest with
      | error e => exact .inr rfl
      | ok r =>
        have := objectAt_le hobj
        exact onlyPanics_walk offsetTable (w.push offsetTable r.1 r.2)
termination_by w.rest.length
decreasing_by
  rw [Walk.push_rest, List.length_drop]
  omega

/-- The walk of the file parsers overflows exactly when it comes to an overlong header. -/
theorem overflows_walk_iff {offsetTable : Option ℕ} {w : Walk} :
    Overflows (walk .on offsetTable w) ↔ OverlongIn w.rest := by
  by_cases hfill : StartsFiller w.rest
  · rw [walk_startsFiller _ _ hfill]
    exact iff_of_false (not_overflows_ok w) (not_overlongIn_of_startsFiller hfill)
  · rw [walk_step _ _ hfill]
    cases hobj : objectAt .on fieldTooLong w.rest with
    | error e =>
      rw [overlongIn_iff_of_error hfill hobj, ← overflows_objectAt_iff fieldTooLong, hobj]
      unfold Overflows
      simp
    | ok r =>
      obtain ⟨n, t⟩ := r
      have hle := objectAt_le hobj
      have ih : Overflows (walk .on offsetTable (w.push offsetTable n t)) ↔ _ := overflows_walk_iff
      obtain ⟨o, post, hrest, hsize, rfl, rfl⟩ := objectAt_eq_ok_iff.mp hobj
      have hplain : o.NotFiller := notFiller_of_not_startsFiller (hrest ▸ hfill)
      rw [ih, Walk.push_rest, hrest, List.drop_left, overlongIn_raw_append hplain hsize]
termination_by w.rest.length
decreasing_by
  rw [Walk.push_rest, List.length_drop]
  omega

/-- An item of the iterator overflowed. -/
def ItemOverflows (items : List (Run Tlv)) : Prop := ∃ item ∈ items, Overflows item

theorem iter_step (oc : OverflowChecks) {rest : Bytes} (h : ¬ StartsFiller rest) :
    iter oc rest =
      match objectAt oc "TLV value is truncated" rest with
      | .error e => [.error e]
      | .ok (n, t) => .ok t :: iter oc (rest.drop n) := by
  obtain ⟨first, tail, rfl⟩ : ∃ first tail, rest = first :: tail := by
    cases rest with
    | nil => exact absurd startsFiller_nil h
    | cons first tail => exact ⟨first, tail, rfl⟩
  have hfirst : isFiller first = false := by
    by_contra hf
    apply h
    intro b hb
    obtain rfl : first = b := Option.some.inj hb
    simpa using hf
  cases hobj : objectAt oc "TLV value is truncated" (first :: tail) with
  | error e =>
    have hnext : next oc (first :: tail) = (some (.error e), []) := by
      simp only [next, hfirst, Bool.false_eq_true, if_false, hobj]
    rw [iter, hnext]
    simp only [iter_startsFiller oc startsFiller_nil]
  | ok r =>
    have hnext : next oc (first :: tail) = (some (.ok r.2), (first :: tail).drop r.1) := by
      simp only [next, hfirst, Bool.false_eq_true, if_false, hobj]
    rw [iter, hnext]

/-- The iterator overflows exactly when it comes to an overlong header, and otherwise yields the
same items in both builds. -/
theorem iter_overflow (data : Bytes) :
    (ItemOverflows (iter .on data) ↔ OverlongIn data) ∧
      (¬ OverlongIn data → iter .off data = iter .on data) := by
  by_cases hfill : StartsFiller data
  · rw [iter_startsFiller _ hfill, iter_startsFiller _ hfill]
    exact ⟨iff_of_false (by simp [ItemOverflows]) (not_overlongIn_of_startsFiller hfill), fun _ => rfl⟩
  · rw [iter_step .on hfill, iter_step .off hfill]
    have hbuilds := onlyPanics_objectAt "TLV value is truncated" data
    cases hobj : objectAt .on "TLV value is truncated" data with
    | error e =>
      have hover := @overflows_objectAt_iff "TLV value is truncated" data
      rw [overlongIn_iff_of_error hfill hobj, ← hover, hobj]
      refine ⟨by simp [ItemOverflows, Overflows], ?_⟩
      intro hno
      rcases hbuilds with hpanic | heq
      · exact absurd (hobj ▸ hpanic) hno
      · rw [show objectAt .off "TLV value is truncated" data = .error e from heq.trans hobj]
    | ok r =>
      obtain ⟨n, t⟩ := r
      have hle := objectAt_le hobj
      obtain ⟨ih, hsame⟩ := iter_overflow (data.drop n)
      obtain ⟨o, post, hdata, hsize, rfl, rfl⟩ := objectAt_eq_ok_iff.mp hobj
      have hplain : o.NotFiller := notFiller_of_not_startsFiller (hdata ▸ hfill)
      have hoff := objectAt_raw_append .off "TLV value is truncated" o hsize post
      rw [hdata] at ih hsame ⊢
      rw [List.drop_left] at ih hsame
      rw [overlongIn_raw_append hplain hsize, hoff, ← ih]
      simp only [List.drop_left]
      refine ⟨by simp [ItemOverflows], ?_⟩
      intro hno
      rw [hsame (fun hover => hno (ih.mpr hover))]
termination_by data.length
decreasing_by
  rw [List.length_drop]
  omega

/-! ### The file parsers -/

/-- A file of one outer object whose contents a walk comes to grief on, or whose own header is
overlong. -/
def OverlongFile (tag : ℕ) (raw : Bytes) : Prop :=
  Overlong raw ∨ ∃ (o : Obj) (post : Bytes), raw = o.raw ++ post ∧ o.raw.length < usizeSize ∧
    o.tag = tag ∧ OverlongIn o.value

theorem not_overflows_checkEntries (i : ℕ) (table : Bytes) (starts : List ℕ) :
    ¬ Overflows (checkEntries i table starts) := by
  induction i, table, starts using checkEntries.induct with
  | case1 i hi lo table start starts declared hne =>
    rw [checkEntries]
    simp [declared, hne]
  | case2 i hi lo table start starts declared heq ih =>
    rw [checkEntries]
    simpa [declared, heq] using ih
  | case3 => simp [checkEntries]

theorem not_overflows_checkTable (w : Walk) : ¬ Overflows (TlvFields.checkTable w) := by
  unfold TlvFields.checkTable
  split
  · unfold checkOffsets
    split
    · exact not_overflows_malformed _
    · exact not_overflows_checkEntries _ _ _
  · exact not_overflows_ok _

/-- The part the file parsers share: the outer object, and its tag. -/
theorem overflows_outer_iff {β : Type} (P : Bytes → Prop) {tag : ℕ} {raw : Bytes}
    {what : Tlv → String} {f : Tlv → Run β}
    (hf : ∀ outer, Ber.parse .on raw = .ok outer → (Overflows (f outer) ↔ P outer.value)) :
    Overflows (Ber.parse .on raw >>= fun outer =>
      if outer.tag ≠ tag then malformed (what outer) else f outer) ↔
      Overlong raw ∨ ∃ (o : Obj) (post : Bytes), raw = o.raw ++ post ∧ o.raw.length < usizeSize ∧
        o.tag = tag ∧ P o.value := by
  rw [overflows_bind, overflows_parse_iff]
  refine or_congr_right ?_
  constructor
  · intro h
    obtain ⟨outer, houter, h⟩ := h
    split at h
    · exact absurd h (not_overflows_malformed _)
    rename_i htag
    obtain ⟨o, post, hraw, hsize, rfl⟩ := parse_eq_ok_iff.mp houter
    exact ⟨o, post, hraw, hsize, not_not.mp htag, (hf _ houter).mp h⟩
  · intro h
    obtain ⟨o, post, rfl, hsize, rfl, hover⟩ := h
    have houter := parse_raw_append .on o hsize post
    refine ⟨o.tlv, houter, ?_⟩
    rw [if_neg (by simp [Obj.tlv])]
    exact (hf _ houter).mpr hover

theorem overflows_file_iff {β : Type} {tag : ℕ} {raw : Bytes} {what : Tlv → String}
    {f : Tlv → Run β} (hf : ∀ outer, Ber.parse .on raw = .ok outer →
      (Overflows (f outer) ↔ OverlongIn outer.value)) :
    Overflows (Ber.parse .on raw >>= fun outer =>
      if outer.tag ≠ tag then malformed (what outer) else f outer) ↔ OverlongFile tag raw :=
  overflows_outer_iff OverlongIn hf

/-- A walk and what is made of it. -/
theorem overflows_walk_bind_iff {β : Type} {table : Option ℕ} {w : Walk} {g : Walk → Run β}
    (hg : ∀ w, ¬ Overflows (g w)) :
    Overflows (walk .on table w >>= g) ↔ OverlongIn w.rest := by
  rw [overflows_bind, overflows_walk_iff]
  constructor
  · intro h
    exact h.resolve_right fun ⟨w', _, hw'⟩ => hg w' hw'
  · exact .inl

theorem noOverflow_tlvFields_iff (raw : Bytes) (tag : ℕ) (table : Option ℕ) :
    NoOverflow (fun oc => TlvFields.parse oc raw tag table) ↔ ¬ OverlongFile tag raw := by
  have hbuilds : OnlyPanics fun oc => TlvFields.parse oc raw tag table := by
    refine (onlyPanics_parse raw).bind fun outer => ?_
    split
    · exact onlyPanics_const _
    · exact (onlyPanics_const _).bind fun header =>
        (onlyPanics_walk table _).bind fun _ => onlyPanics_const _
  rw [hbuilds.noOverflow_iff, TlvFields.parse, overflows_file_iff]
  intro outer houter
  obtain ⟨o, post, rfl, hsize, rfl⟩ := parse_eq_ok_iff.mp houter
  rw [o.parseHeader_raw_append]
  exact overflows_walk_bind_iff fun w =>
    not_overflows_bind (not_overflows_checkTable w) fun _ _ => not_overflows_ok _

theorem not_overflows_dateParse (bytes : Bytes) : ¬ Overflows (Date.parse bytes) := by
  unfold Date.parse
  split
  · simp only
    split
    · exact not_overflows_malformed _
    · exact not_overflows_ok _
  · exact not_overflows_malformed _

/-- What `Attributes::parse` makes of its walk. -/
theorem not_overflows_attributes (w : Walk) :
    ¬ Overflows (do
      let fields : TlvFields := ⟨w.items⟩
      let name ← fields.get 0xDF22
      let address ← fields.get 0xDF23
      let birthDate ← fields.get 0xDF24
      let sex ← fields.get 0xDF25
      TlvFields.checkTable w
      let name ← Text.Attributes.decodeText name "氏名"
      let address ← Text.Attributes.decodeText address "住所"
      let birthDate ← Date.parse birthDate
      let sex ← orMalformed "性別 is empty" sex.head?
      pure (⟨name, address, birthDate, .fromByte sex⟩ : Text.Attributes)) := by
  refine not_overflows_bind (not_overflows_orMalformed _ _) fun name _ => ?_
  refine not_overflows_bind (not_overflows_orMalformed _ _) fun address _ => ?_
  refine not_overflows_bind (not_overflows_orMalformed _ _) fun birthDate _ => ?_
  refine not_overflows_bind (not_overflows_orMalformed _ _) fun sex _ => ?_
  refine not_overflows_bind (not_overflows_checkTable w) fun _ _ => ?_
  refine not_overflows_bind (not_overflows_orMalformed _ _) fun name _ => ?_
  refine not_overflows_bind (not_overflows_orMalformed _ _) fun address _ => ?_
  refine not_overflows_bind (not_overflows_dateParse birthDate) fun birthDate _ => ?_
  exact not_overflows_bind (not_overflows_orMalformed _ _) fun _ _ => not_overflows_ok _

theorem noOverflow_attributes_iff (raw : Bytes) :
    NoOverflow (fun oc => Text.Attributes.parse oc raw) ↔ ¬ OverlongFile 0xFF20 raw := by
  have hbuilds : OnlyPanics fun oc => Text.Attributes.parse oc raw := by
    refine (onlyPanics_parse raw).bind fun outer => ?_
    split
    · exact onlyPanics_const _
    · exact (onlyPanics_walk _ _).bind fun _ => onlyPanics_const _
  rw [hbuilds.noOverflow_iff, Text.Attributes.parse, overflows_file_iff]
  intro outer houter
  exact overflows_walk_bind_iff not_overflows_attributes

/-- A file whose own header is overlong, or the header of the offset table in front of its
fields. -/
def OverlongTable (raw : Bytes) : Prop :=
  Overlong raw ∨ ∃ (o : Obj) (post : Bytes) (table : Header), raw = o.raw ++ post ∧
    o.raw.length < usizeSize ∧ o.tag = 0xFF20 ∧ parseHeader o.value = .ok table ∧
    table.tag = 0xDF21 ∧ Overlong o.value

/-- The contents begin with the header of an offset table, and it is overlong. -/
def OverlongTableHeader (contents : Bytes) : Prop :=
  ∃ table, parseHeader contents = .ok table ∧ table.tag = 0xDF21 ∧ Overlong contents

theorem overflows_table_iff (contents : Bytes) :
    Overflows (parseHeader contents >>= fun table =>
      if table.tag ≠ 0xDF21 then malformed "the offset table is not the first object" else do
        let total ← table.totalLen .on
        orMalformed "nothing follows the offset table" (slice contents total contents.length)) ↔
      OverlongTableHeader contents := by
  rw [overflows_bind, OverlongTableHeader]
  constructor
  · intro h
    rcases h with h | ⟨table, htable, h⟩
    · exact absurd h (not_overflows_parseHeader _)
    split at h
    · exact absurd h (not_overflows_malformed _)
    rename_i htag
    rcases overflows_bind.mp h with h | ⟨total, -, h⟩
    · exact ⟨table, htable, not_not.mp htag, (overflows_totalLen_iff htable).mp h⟩
    · exact absurd h (not_overflows_orMalformed _ _)
  · intro h
    obtain ⟨table, htable, htag, hover⟩ := h
    refine .inr ⟨table, htable, ?_⟩
    rw [if_neg (not_not.mpr htag)]
    exact overflows_bind.mpr (.inl ((overflows_totalLen_iff htable).mpr hover))

theorem noOverflow_digestSource_iff (raw : Bytes) :
    NoOverflow (fun oc => Text.Attributes.digestSource oc raw) ↔ ¬ OverlongTable raw := by
  have hbuilds : OnlyPanics fun oc => Text.Attributes.digestSource oc raw := by
    refine (onlyPanics_parse raw).bind fun outer => ?_
    split
    · exact onlyPanics_const _
    · refine (onlyPanics_const _).bind fun table => ?_
      split
      · exact onlyPanics_const _
      · exact (onlyPanics_totalLen table).bind fun _ => onlyPanics_const _
  rw [hbuilds.noOverflow_iff, Text.Attributes.digestSource, not_iff_not, OverlongTable,
    overflows_outer_iff OverlongTableHeader fun outer _ => overflows_table_iff outer.value]
  simp only [OverlongTableHeader, exists_and_left]

end MynaCard
