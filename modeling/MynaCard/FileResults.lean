import MynaCard.FileReads

/-!
# What the readers of a file give

The three readers of `Card` on the cards of `FileReads`: the two that go by offsets give exactly the
file (`chunkedReads_exact`), the one that stops at the end of the object gives the same cut to the
object's size, up to its failures near the end of the addresses (`readBinaryAll_trims_iff`), and a
card that warns at the end of the file is only read in full where the end falls on the end of a
chunk (`warningReads_iff`).
-/

namespace MynaCard

open Dialogue

variable {τ : Type} {answer : Bytes → τ → Answer × τ} {I : τ → Prop} {file : Bytes}

/-! ### A card for any convention -/

/-- A card that answers READ BINARY by its offset and `Le`, and takes every command for one. -/
def serve (respond : ℕ → ℕ → Response) (apdu : Bytes) (σ : Unit) : Answer × Unit :=
  match isoDecode apdu with
  | some (_, c) =>
    (.ok (respond (u16OfBytes c.p1 c.p2).toNat (c.le.elim 0 UInt32.toNat)).toBytes, σ)
  | none => (.ok (Response.toBytes ⟨[], ⟨0x6700⟩⟩), σ)

theorem serve_readsBy {allowed : ℕ → ℕ → Response → Prop} {respond : ℕ → ℕ → Response}
    (h : ∀ offset n, 0 < n → allowed offset n (respond offset n)) :
    ReadsBy allowed (serve respond) fun _ => True := by
  intro apdu σ form c le _ hdecode _ _ _ hle hpos _
  refine ⟨_, σ, ?_, trivial, h _ _ hpos⟩
  rw [serve, hdecode]
  dsimp only
  rw [hle]
  rfl

/-! ### Reads by offset -/

/-- **Reads by offset give exactly the file.** The physical read gives all of it that can be
addressed; a read of a range that can be addressed gives what there is of it, also when the card may
cut any answer short. -/
theorem chunkedReads_exact (pf : Platform) (answer : Bytes → τ → Answer × τ) (I : τ → Prop)
    (file : Bytes) (fuel : ℕ) (σ : τ) (hσ : I σ) :
    (ReadsBy (InFull file) answer I →
      ((Card.readBinaryPhysical fuel).run.run answer σ).1 = .ok (file.take 0x8000)) ∧
    (ReadsBy (InFull file) answer I ∨ ReadsBy (InPart file) answer I →
      ∀ offset length, offset + length ≤ 0x8000 →
        ((Card.readBinary pf fuel offset length).run.run answer σ).1 =
          .ok ((file.drop offset).take length)) := by
  constructor
  · intro h
    obtain ⟨σ', -, hread⟩ := h.readBinaryPhysical_full fuel σ hσ
    rw [hread]
  · intro h offset length hrange
    have hpart : ReadsBy (InPart file) answer I := h.elim ReadsBy.inPart_of_inFull id
    have hlimit := pf.le_allocLimit
    obtain ⟨σ', -, hread⟩ := hpart.readBinary_part fuel pf offset length σ hσ (.inl hrange)
    rw [pf.withCapacity_of_le (by omega), if_pos (.inl hrange)] at hread
    rw [hread]
    rfl

/-- The answers of `InFull`. -/
def fullRead (file : Bytes) (offset n : ℕ) : Response :=
  if offset < file.length then ⟨(file.drop offset).take n, .success⟩ else ⟨[], ⟨0x6B00⟩⟩

theorem fullRead_inFull (file : Bytes) (offset n : ℕ) :
    InFull file offset n (fullRead file offset n) := by
  unfold fullRead
  split
  · rename_i hwithin
    exact .within hwithin
  · rename_i hpast
    exact .past (by omega)

theorem serve_fullRead (file : Bytes) :
    ReadsBy (InFull file) (serve (fullRead file)) fun _ => True := by
  apply serve_readsBy
  intro offset n _
  exact fullRead_inFull file offset n

/-- Answers of `InPart`: never more than `cut + 1` bytes. -/
def partRead (cut : ℕ) (file : Bytes) (offset n : ℕ) : Response :=
  if offset < file.length then ⟨(file.drop offset).take (min n (cut + 1)), .success⟩
  else ⟨[], ⟨0x6B00⟩⟩

theorem serve_partRead (cut : ℕ) (file : Bytes) :
    ReadsBy (InPart file) (serve (partRead cut file)) fun _ => True := by
  apply serve_readsBy
  intro offset n hpos
  unfold partRead
  split
  · rename_i hwithin
    refine .within ?_ ?_
    · apply List.ne_nil_of_length_pos
      rw [List.length_take, List.length_drop]
      omega
    · exact List.take_prefix_take_left (by omega)
  · rename_i hpast
    exact .past (by omega)

/-- A file of 300 bytes, longer than one chunk. -/
def bytes300 : Bytes := List.replicate 256 0xAB ++ List.replicate 44 0xCD

/-- Read physically, and in part off a card that gives at most seven bytes at a time. -/
theorem chunkedReads_exact_300 :
    ((Card.readBinaryPhysical 0).run.run (serve (fullRead bytes300)) ()).1 =
      .ok (bytes300.take 0x8000) ∧
    ((Card.readBinary .checked 0 200 200).run.run (serve (partRead 6 bytes300)) ()).1 =
      .ok ((bytes300.drop 200).take 200) :=
  ⟨(chunkedReads_exact .checked (serve (fullRead bytes300)) (fun _ => True) bytes300 0 ()
      trivial).1 (serve_fullRead bytes300),
    (chunkedReads_exact .checked (serve (partRead 6 bytes300)) (fun _ => True) bytes300 0 ()
      trivial).2 (.inr (serve_partRead 6 bytes300)) 200 200 (by decide)⟩

/-! ### The read of an object -/

/-- The file, cut to the size the object at its front declares. -/
def trimmed (file : Bytes) : Bytes :=
  match Ber.parseHeader file with
  | .ok header => file.take (header.headerLen + header.length)
  | .error _ => file

/-- The sizes of an object `read_binary_all` gets by with: it ends within the file, or the end of
the file can be found out and the room for the rest can be had. -/
def Readable (pf : Platform) (file : Bytes) (total : ℕ) : Prop :=
  total ≤ file.length ∨ file.length < 0x8000 ∧ total ≤ pf.allocLimit + min 256 file.length

theorem trimmed_of_header {header : Ber.Header} (hparse : Ber.parseHeader file = .ok header) :
    trimmed file = file.take (header.headerLen + header.length) := by
  rw [trimmed, hparse]

/-- A file whose first chunk begins with no header begins with none. -/
theorem trimmed_of_no_header {stop : Stop} (hfirst : Ber.parseHeader (file.take 256) = .error stop) :
    trimmed file = file ∧ ∀ header, Ber.parseHeader file ≠ .ok header := by
  have hnone : ∀ header, Ber.parseHeader file ≠ .ok header := by
    intro header hparse
    have hbounds := Ber.parseHeader_headerLen hparse
    have htake := Ber.parseHeader_take (n := 256) hparse (by omega)
    rw [hfirst] at htake
    cases htake
  refine ⟨?_, hnone⟩
  unfold trimmed
  cases hparse : Ber.parseHeader file with
  | error stop' => rfl
  | ok header => exact absurd hparse (hnone header)

/-- An object whose total fits is given cut to it, if it is readable. -/
theorem plainResult_eq_take_iff {header : Ber.Header} (pf : Platform) (hnil : file ≠ [])
    (hfirst : Ber.parseHeader (file.take 256) = .ok header)
    (hfits : header.headerLen + header.length < usizeSize) :
    FileCard.plainResult pf file = .ok (file.take (header.headerLen + header.length)) ↔
      Readable pf file (header.headerLen + header.length) := by
  have hchunk : (file.take 256).length = min 256 file.length := List.length_take
  rw [FileCard.plainResult_of_total hnil hfirst (usizeAdd_of_lt _ hfits)]
  generalize header.headerLen + header.length = total at hfits
  unfold Readable
  by_cases hthere : total ≤ file.length
  · rw [if_pos hthere]
    exact iff_of_true rfl (.inl hthere)
  rw [if_neg hthere, List.take_of_length_le (by omega : file.length ≤ total), Run.seq_eq_ok,
    Platform.withCapacity_eq_ok_iff, hchunk]
  by_cases hroom : file.length < 0x8000
  · rw [if_pos hroom]
    simp only [and_true]
    omega
  · rw [if_neg hroom]
    exact iff_of_false (by intro h; cases h.2) (by omega)

/-- One whose total does not fit is not given. -/
theorem plainResult_ne_of_overlong {header : Ber.Header} (pf : Platform) (hnil : file ≠ [])
    (hsize : file.length ≤ 0x8000) (hfirst : Ber.parseHeader (file.take 256) = .ok header)
    (hover : usizeSize ≤ header.headerLen + header.length) :
    FileCard.plainResult pf file ≠ .ok (file.take (header.headerLen + header.length)) := by
  have hparse := Ber.parseHeader_of_prefix (List.take_prefix 256 file) hfirst
  obtain ⟨hheader, hlength⟩ := Ber.parseHeader_headerLen_le hparse
  obtain htotal | htotal : header.totalLen pf = _ ∨ header.totalLen pf = _ :=
    usizeAdd_of_overflow pf hover
  · rw [FileCard.plainResult, if_neg hnil, hfirst]
    dsimp only
    rw [htotal]
    intro h
    cases h
  · -- the wrapped total lies within the header, so the object is cut short
    have hwrapped : (header.headerLen + header.length) % usizeSize < file.length := by
      unfold usizeSize at *
      omega
    have hall : file.take (header.headerLen + header.length) = file := by
      apply List.take_of_length_le
      unfold usizeSize at *
      omega
    rw [FileCard.plainResult_of_total hnil hfirst htotal, if_pos hwrapped.le, hall]
    intro h
    have hcut := congrArg List.length (Except.ok.inj h)
    rw [List.length_take] at hcut
    omega

theorem plainResult_eq_trimmed_iff (pf : Platform) (hsize : file.length ≤ 0x8000) :
    FileCard.plainResult pf file = .ok (trimmed file) ↔ ∀ header,
      Ber.parseHeader file = .ok header → Readable pf file (header.headerLen + header.length) := by
  by_cases hnil : file = []
  · subst hnil
    refine iff_of_true rfl ?_
    intro header hparse
    have hbounds := Ber.parseHeader_headerLen hparse
    have hlen := (Ber.parseHeader_headerLen_le hparse).1
    rw [List.length_nil] at hlen
    omega
  cases hfirst : Ber.parseHeader (file.take 256) with
  | error stop =>
    obtain ⟨htrimmed, hnone⟩ := trimmed_of_no_header hfirst
    rw [htrimmed, FileCard.plainResult, if_neg hnil, hfirst]
    exact iff_of_true rfl fun header hparse => absurd hparse (hnone header)
  | ok header =>
    have hparse := Ber.parseHeader_of_prefix (List.take_prefix 256 file) hfirst
    have hcondition : (∀ header', Ber.parseHeader file = .ok header' →
        Readable pf file (header'.headerLen + header'.length)) ↔
        Readable pf file (header.headerLen + header.length) := by
      rw [hparse]
      constructor
      · intro h
        exact h header rfl
      · intro h header' heq
        obtain rfl := Except.ok.inj heq
        exact h
    rw [hcondition, trimmed_of_header hparse]
    by_cases hfits : header.headerLen + header.length < usizeSize
    · exact plainResult_eq_take_iff pf hnil hfirst hfits
    · refine iff_of_false (plainResult_ne_of_overlong pf hnil hsize hfirst (by omega)) ?_
      have hmax := pf.allocLimit_le
      unfold Readable
      unfold usizeSize at hfits
      unfold isizeMax at hmax
      omega

/-- **When the read of an object is the physical read, trimmed.** The physical read gives the file;
the read that stops at the end of the object gives it cut to the object's size exactly when there
is no object at its front or one of a size it gets by with. -/
theorem readBinaryAll_trims_iff (pf : Platform) (answer : Bytes → τ → Answer × τ)
    (I : τ → Prop) (file : Bytes) (hsize : file.length ≤ 0x8000)
    (h : ReadsBy (InFull file) answer I) (fuel : ℕ) (σ : τ) (hσ : I σ) :
    ((Card.readBinaryPhysical fuel).run.run answer σ).1 = .ok file ∧
    (((Card.readBinaryAll pf fuel).run.run answer σ).1 = .ok (trimmed file) ↔
      ∀ header, Ber.parseHeader file = .ok header →
        Readable pf file (header.headerLen + header.length)) := by
  obtain ⟨σ', -, hphysical⟩ := h.readBinaryPhysical_full fuel σ hσ
  obtain ⟨σ'', -, hall⟩ := h.readBinaryAll_full fuel pf σ hσ hsize
  rw [hphysical, hall, List.take_of_length_le hsize]
  exact ⟨rfl, plainResult_eq_trimmed_iff pf hsize⟩

/-- An object of four bytes with its filler. -/
theorem readBinaryAll_trims_iff_padded :
    ((Card.readBinaryPhysical 0).run.run (serve (fullRead [0x30, 0x02, 0x41, 0x42, 0xFF])) ()).1 =
      .ok [0x30, 0x02, 0x41, 0x42, 0xFF] ∧
    (((Card.readBinaryAll .checked 0).run.run (serve (fullRead [0x30, 0x02, 0x41, 0x42, 0xFF])) ()).1 =
        .ok (trimmed [0x30, 0x02, 0x41, 0x42, 0xFF]) ↔
      ∀ header, Ber.parseHeader [0x30, 0x02, 0x41, 0x42, 0xFF] = .ok header →
        Readable .checked [0x30, 0x02, 0x41, 0x42, 0xFF] (header.headerLen + header.length)) :=
  readBinaryAll_trims_iff .checked (serve (fullRead [0x30, 0x02, 0x41, 0x42, 0xFF])) (fun _ => True)
    [0x30, 0x02, 0x41, 0x42, 0xFF] (by decide) (serve_fullRead _) 0 () trivial

/-- A file as long as can be addressed, whose object claims four bytes more. -/
def overrun : Bytes := [0x30, 0x82, 0x80, 0x00] ++ List.replicate 32764 0x00

/-- All of it is read, and then an error is returned for the offset after it. -/
theorem readBinaryAll_overrun :
    overrun.length = 0x8000 ∧
    ((Card.readBinaryPhysical 0).run.run (serve (fullRead overrun)) ()).1 = .ok overrun ∧
    ((Card.readBinaryAll .checked 0).run.run (serve (fullRead overrun)) ()).1 =
      .error (.err (.offsetOutOfRange 0x8000)) ∧
    ((Card.readBinaryAll .checked 0).run.run (serve (fullRead overrun)) ()).1 ≠
      .ok (trimmed overrun) := by
  have hlen : overrun.length = 0x8000 := by
    rw [overrun, List.length_append, List.length_replicate]
    rfl
  have hnil : overrun ≠ [] := List.ne_nil_of_length_pos (by omega)
  have hparse : Ber.parseHeader (overrun.take 256) = .ok ⟨0x30, 0x8000, 4⟩ := by
    have hfront : [0x30, 0x82, 0x80, 0x00] <+: overrun.take 256 := by
      rw [overrun, List.take_append]
      exact List.prefix_append _ _
    exact Ber.parseHeader_of_prefix hfront rfl
  have hchunk : (overrun.take 256).length = 256 := by
    rw [List.length_take, hlen]
    rfl
  obtain ⟨_, -, hphysical⟩ :=
    (serve_fullRead overrun).readBinaryPhysical_full 0 () trivial
  obtain ⟨_, -, hall⟩ :=
    (serve_fullRead overrun).readBinaryAll_full 0 .checked () trivial hlen.le
  have herror : FileCard.plainResult .checked overrun = .error (.err (.offsetOutOfRange 0x8000)) := by
    have htotal : Ber.Header.totalLen Platform.checked ⟨0x30, 0x8000, 4⟩ = .ok 0x8004 := rfl
    rw [FileCard.plainResult_of_total hnil hparse htotal, hlen, hchunk]
    rfl
  rw [hphysical, hall, herror, List.take_of_length_le hlen.le]
  exact ⟨hlen, rfl, rfl, fun h => nomatch h⟩

/-! ### A card that warns -/

/-- A list of whole chunks from the front of another is all of it when that is whole chunks. -/
theorem take_chunks_eq_iff {xs : Bytes} :
    xs.take (256 * (xs.length / 256)) = xs ↔ 256 ∣ xs.length := by
  constructor
  · intro h
    have hlen := congrArg List.length h
    rw [List.length_take] at hlen
    omega
  · intro h
    rw [Nat.mul_div_cancel' h, List.take_length]

/-- The ranges read in full off a card that warns: those with nothing in them, those the file has
none of or all of, and those where what there is comes to whole chunks. -/
def RangeRead (file : Bytes) (offset length : ℕ) : Prop :=
  length = 0 ∨ offset ≤ maxOffset ∧
    (file.length ≤ offset ∨ offset + length ≤ file.length ∨ 256 ∣ file.length - offset)

theorem take_warning_eq_iff {offset length : ℕ} (hoff : offset ≤ maxOffset) :
    (file.drop offset).take (if offset + length ≤ file.length then length
        else 256 * ((file.length - offset) / 256)) = (file.drop offset).take length ↔
      RangeRead file offset length := by
  have hlen : (file.drop offset).length = file.length - offset := List.length_drop
  unfold RangeRead
  rw [and_iff_right hoff]
  by_cases hthere : offset + length ≤ file.length
  · rw [if_pos hthere]
    exact iff_of_true rfl (.inr (.inr (.inl hthere)))
  · rw [if_neg hthere, ← hlen, List.take_of_length_le (by omega : _ ≤ length), take_chunks_eq_iff,
      hlen]
    constructor
    · intro h
      exact .inr (.inr (.inr h))
    · intro h
      omega

/-- **A card that warns is read in full exactly where the end of the file is the end of a chunk.** -/
theorem warningReads_iff (pf : Platform) (answer : Bytes → τ → Answer × τ) (I : τ → Prop)
    (file : Bytes) (hsize : file.length ≤ maxOffset) (h : ReadsBy (WithWarning file) answer I) (fuel : ℕ) (σ : τ)
    (hσ : I σ) :
    (((Card.readBinaryPhysical fuel).run.run answer σ).1 = .ok file ↔ 256 ∣ file.length) ∧
    ∀ offset length, ((Card.readBinary pf fuel offset length).run.run answer σ).1 =
        .ok ((file.drop offset).take length) ↔
      length ≤ pf.allocLimit ∧ RangeRead file offset length := by
  constructor
  · obtain ⟨σ', -, hread⟩ := h.readBinaryPhysical_warning fuel σ hσ hsize
    rw [hread, ← take_chunks_eq_iff]
    exact ⟨Except.ok.inj, congrArg Except.ok⟩
  · intro offset length
    rw [Card.readBinary, run_lift_bind_eq_ok_iff]
    simp only [Platform.withCapacity_eq_ok_iff, exists_const]
    refine and_congr_right fun _ => ?_
    by_cases hoff : offset ≤ maxOffset
    · obtain ⟨σ', -, hread⟩ := h.readBinaryLoop_warning fuel hσ hsize hoff List.nil_prefix
        (Nat.zero_le length) (.inl (dvd_zero 256))
      rw [hread, ← take_warning_eq_iff hoff]
      exact ⟨Except.ok.inj, congrArg Except.ok⟩
    · rw [readBinaryLoop_unaddressed fuel answer σ (by omega)]
      unfold RangeRead
      by_cases hlength : length = 0
      · rw [if_pos hlength, hlength, List.take_zero]
        exact iff_of_true rfl (.inl rfl)
      · rw [if_neg hlength]
        exact iff_of_false (by intro h; cases h) (by omega)

/-- The answers of `WithWarning`. -/
def warnedRead (file : Bytes) (offset n : ℕ) : Response :=
  if offset + n ≤ file.length then ⟨(file.drop offset).take n, .success⟩
  else ⟨file.drop offset, ⟨0x6282⟩⟩

theorem serve_warnedRead (file : Bytes) :
    ReadsBy (WithWarning file) (serve (warnedRead file)) fun _ => True := by
  apply serve_readsBy
  intro offset n _
  unfold warnedRead
  split
  · rename_i hwhole
    exact .whole hwhole
  · rename_i hend
    by_cases hwithin : offset < file.length
    · exact .cut hwithin (by omega)
    · rw [List.drop_eq_nil_of_le (by omega)]
      exact .past (by omega)

/-- A file of one chunk and a part of another. -/
theorem warningReads_iff_300 :
    (((Card.readBinaryPhysical 0).run.run (serve (warnedRead bytes300)) ()).1 = .ok bytes300 ↔
      256 ∣ bytes300.length) ∧
    ∀ offset length,
      ((Card.readBinary .checked 0 offset length).run.run (serve (warnedRead bytes300)) ()).1 =
          .ok ((bytes300.drop offset).take length) ↔
        length ≤ Platform.checked.allocLimit ∧ RangeRead bytes300 offset length :=
  warningReads_iff .checked (serve (warnedRead bytes300)) (fun _ => True) bytes300
    (by rw [bytes300, List.length_append, List.length_replicate, List.length_replicate]; decide)
    (serve_warnedRead bytes300) 0 () trivial

/-- A file of one byte: the card gives the byte with its warning, and both reads give nothing. -/
theorem warningReads_oneByte :
    ReadsBy (WithWarning [0x41]) (serve (warnedRead [0x41])) (fun _ => True) ∧
    ((Card.readBinaryPhysical 0).run.run (serve (warnedRead [0x41])) ()).1 = .ok [] ∧
    ((Card.readBinary .checked 0 0 2).run.run (serve (warnedRead [0x41])) ()).1 = .ok [] ∧
    ((Card.readBinaryPhysical 0).run.run (serve (warnedRead [0x41])) ()).1 ≠ .ok [0x41] ∧
    ((Card.readBinary .checked 0 0 2).run.run (serve (warnedRead [0x41])) ()).1 ≠
      .ok (([0x41].drop 0).take 2) := by
  have hphysical : ((Card.readBinaryPhysical 0).run.run (serve (warnedRead [0x41])) ()).1 =
      .ok [] := rfl
  have hrange : ((Card.readBinary .checked 0 0 2).run.run (serve (warnedRead [0x41])) ()).1 =
      .ok [] := rfl
  rw [hphysical, hrange]
  exact ⟨serve_warnedRead _, rfl, rfl, by decide, by decide⟩

end MynaCard
