import MynaCard.FileCard
import MynaCard.SessionCounters

/-!
# The two readers of a file

`Card::read_binary_all` and `SecureSession::read_ef` on a card that holds one file. `plainResult`
and `secureResult` say in closed form what the two loops give, and **`readEf_agrees_iff`** says when
that is the same.

The loops differ in three places. The plain one takes the end of the file for the end of the
object, the secure one returns the card's error; of a file that begins with no object the plain one
reads on to the end, the secure one gives back the first answer; and the plain one cannot address
an offset from `8000` on.
-/

namespace MynaCard

open Dialogue

/-! ### The plain reader -/

/-- SELECT FILE and then `Card::read_binary_all`. -/
def plainReadEf (pf : Platform) (fuel : ℕ) (id : UInt16) : CardM Bytes := do
  Card.selectEf fuel id
  Card.readBinaryAll pf fuel

namespace FileCard

variable (aes : Aes128) (card : FileCard)

theorem readBinaryAll_run {pf : Platform} {fuel : ℕ} (hsize : card.file.length ≤ 0x8000) :
    (Card.readBinaryAll pf fuel).run.run (transmit aes) card =
      (plainResult pf card.file, card) := by
  obtain ⟨card', rfl, hread⟩ :=
    (transmit_readsBy aes card).readBinaryAll_full fuel pf card rfl hsize
  exact hread

/-! ### The secure reader -/

theorem want_toNat (total : ℕ) (out : Bytes) :
    (SecureSession.want total out).toNat = min (total - out.length) 0xFFFF := by
  unfold SecureSession.want
  split_ifs with hfits
  · rw [UInt16.toNat_ofNat', min_eq_left hfits]
    omega
  · rw [min_eq_right (by omega)]
    rfl

/-- The loop of `SecureSession::read_ef` ends at the object's end, or past the end of the file. -/
theorem readEfLoop_runOn {oc : OverflowChecks} {fuel total : ℕ} {out : Bytes} {s : SecureSession}
    (hout : out <+: card.file) (hlen : out.length ≤ total) (hsize : card.file.length ≤ 0x8000)
    (hs : InSession s card)
    (hroom : s.counter.toNat + (card.file.length - out.length) + 1 < 2 ^ 32) :
    ∃ s' card', (SecureSession.readEfLoop aes oc fuel total out).runOn (transmit aes) s card =
      ((if total ≤ card.file.length then .ok (card.file.take total)
        else .error (.err (.status ⟨0x6B00⟩)), s'), card') := by
  induction hmeasure : card.file.length - out.length using Nat.strong_induction_on
    generalizing out s card with
  | _ n ih =>
    subst hmeasure
    have hle := hout.length_le
    by_cases hmore : out.length < total
    · have hoffset : (UInt16.ofNat out.length).toNat = out.length := by
        rw [UInt16.toNat_ofNat']
        omega
      have hwant := want_toNat total out
      rw [SecureSession.readEfLoop_step oc fuel hmore (by omega)]
      by_cases hwithin : out.length < card.file.length
      · have hread := readBinary_within aes card oc fuel (UInt16.ofNat out.length)
          (SecureSession.want total out) hs (by omega) hsize (by omega)
        rw [hoffset] at hread
        have hne := card.plaintext_ne_nil (SecureSession.want total out).toNat hwithin
        have hpos := List.length_pos_iff.mpr hne
        have hshort := card.plaintext_length_le out.length
          (show (SecureSession.want total out).toNat ≠ 0 from by omega)
        have hprefix := prefix_append_of_prefix_drop hout
          (card.plaintext_prefix out.length (SecureSession.want total out).toNat)
        have hcount : (s.advanced .success).counter.toNat = s.counter.toNat + 1 :=
          toNat_succ_counter (by omega)
        rw [runOn_bind_ok hread, if_neg hne]
        refine ih _ ?_ card.readOnce hprefix ?_ hsize (hs.readOnce rfl) ?_ rfl
        · rw [readOnce_file, List.length_append]
          omega
        · rw [List.length_append]
          omega
        · rw [readOnce_file, List.length_append]
          omega
      · have hread := readBinary_past aes card oc fuel (UInt16.ofNat out.length)
          (SecureSession.want total out) hs (by omega) (by omega)
        rw [runOn_bind_error hread, if_neg (by omega)]
        exact ⟨_, _, rfl⟩
    · have hall : out = card.file.take total := by
        rw [← show out.length = total from by omega]
        exact List.prefix_iff_eq_take.mp hout
      rw [SecureSession.readEfLoop_done oc fuel hmore, if_pos (by omega), ← hall]
      exact ⟨_, _, rfl⟩

/-- What the secure reader gives, `first` being the plaintext of the first answer. -/
def secureResult (oc : OverflowChecks) (file first : Bytes) : Run Bytes :=
  if file = [] then .error (.err (.status ⟨0x6B00⟩))
  else match Ber.parseHeader first with
    | .error _ => .ok first
    | .ok header => do
      let total ← header.totalLen oc
      if total ≤ file.length then .ok (file.take total)
      else .error (.err (.status ⟨0x6B00⟩))

theorem readEf_runOn (oc : OverflowChecks) (fuel : ℕ) (id : UInt16) {s : SecureSession}
    (hs : InSession s card) (hsize : card.file.length ≤ 0x8000)
    (hroom : s.counter.toNat + card.file.length + 2 < 2 ^ 32) :
    ∃ s' card', (SecureSession.readEf aes oc fuel id).runOn (transmit aes) s card =
      ((secureResult oc card.file (shortened (card.cuts card.reads) card.file), s'), card') := by
  have hselect := selectEf_runOn aes card oc fuel id hs (by omega)
  have hcount : (s.advanced .success).counter.toNat = s.counter.toNat + 1 :=
    toNat_succ_counter (by omega)
  have hcount' : ((s.advanced .success).advanced .success).counter.toNat = s.counter.toNat + 2 :=
    (toNat_succ_counter (by omega)).trans (by omega)
  unfold secureResult
  by_cases hnil : card.file = []
  · have hread := readBinary_past aes card.counted oc fuel 0 0 hs.counted
      (by omega) (by rw [counted_file, hnil]; simp)
    rw [SecureSession.readEf, SecureSession.readEfPhysical, if_pos hnil,
      runOn_bind_error ((runOn_bind_ok hselect).trans hread)]
    exact ⟨_, _, rfl⟩
  · have hread := readBinary_within aes card.counted oc fuel 0 0 hs.counted
      (by omega) hsize (List.length_pos_iff.mpr hnil)
    have hprefix := card.plaintext_prefix 0 0
    have hne := card.plaintext_ne_nil 0 (List.length_pos_iff.mpr hnil)
    have hpos := List.length_pos_iff.mpr hne
    rw [List.drop_zero] at hprefix
    have hle := hprefix.length_le
    rw [SecureSession.readEf, SecureSession.readEfPhysical, if_neg hnil,
      runOn_bind_ok ((runOn_bind_ok hselect).trans hread)]
    show ∃ s' card', (SecureSession.readEfOn aes oc fuel (card.plaintext 0 0)).runOn _ _ _ =
      ((match Ber.parseHeader (card.plaintext 0 0) with
        | .error _ => _
        | .ok header => _, s'), card')
    rw [SecureSession.readEfOn, if_neg hne]
    cases hparse : Ber.parseHeader (card.plaintext 0 0) with
    | error stop => exact ⟨_, _, rfl⟩
    | ok header =>
      dsimp only
      cases htotal : header.totalLen oc with
      | error stop => exact ⟨_, _, rfl⟩
      | ok total =>
        rw [runOn_bind_ok (runOn_liftRun _)]
        show ∃ s' card', _ = ((if total ≤ card.file.length then _ else _, s'), card')
        by_cases hshort : total ≤ (card.plaintext 0 0).length
        · have htake : (card.plaintext 0 0).take total = card.file.take total := by
            rw [List.prefix_iff_eq_take.mp hprefix, List.take_take, min_eq_left hshort]
          rw [if_pos hshort, if_pos (by omega), htake]
          exact ⟨_, _, rfl⟩
        · rw [if_neg hshort]
          exact readEfLoop_runOn aes card.counted.readOnce hprefix (by omega) hsize
            (hs.counted.readOnce rfl) (by rw [readOnce_file, counted_file]; omega)

/-! ### When they agree -/

/-- Two reads give the same bytes, or both return an error, or both panic. -/
def Agree : Run Bytes → Run Bytes → Prop
  | .ok data, .ok data' => data = data'
  | .error (.err _), .error (.err _) => True
  | .error (.panic _), .error (.panic _) => True
  | _, _ => False

/-- The condition on a file, and on the first answer to a secure read of it, under which the two
readers agree. The answer is the whole file where it begins with no header, unless the header is
further in and, without overflow checks, its total wraps to just the answer's length. Otherwise the
object ends within the file, or it does not and neither reader gets anywhere: because its total
does not fit `usize`, or because the end of the file is an offset the plain reader cannot address
either, where it gets the room for the rest. -/
def ReadsAlike (pf : Platform) (file first : Bytes) : Prop :=
  file ≠ [] ∧
    match Ber.parseHeader first with
    | .ok header =>
      header.headerLen + header.length ≤ file.length ∨
        usizeSize ≤ header.headerLen + header.length ∨
        (file.length = 0x8000 ∧ header.headerLen + header.length ≤ pf.allocLimit + 256)
    | .error _ =>
      first = file ∨
        ∃ header, Ber.parseHeader (file.take 256) = .ok header ∧
          header.totalLen pf = .ok first.length

section

variable {pf : Platform} {file first : Bytes} {header : Ber.Header} {total : ℕ}

theorem secureResult_of_total {oc : OverflowChecks} (hne : file ≠ [])
    (hparse : Ber.parseHeader first = .ok header) (htotal : header.totalLen oc = .ok total) :
    secureResult oc file first =
      if total ≤ file.length then .ok (file.take total) else .error (.err (.status ⟨0x6B00⟩)) := by
  rw [secureResult, if_neg hne, hparse]
  dsimp only
  rw [htotal]
  rfl

/-- Where the first answer begins with a header whose total fits. -/
theorem agree_of_header (hne : file ≠ []) (hsize : file.length ≤ 0x8000) (hpre : first <+: file)
    (hparse : Ber.parseHeader first = .ok header)
    (hfits : header.headerLen + header.length < usizeSize) :
    Agree (secureResult pf file first) (plainResult pf file) ↔ ReadsAlike pf file first := by
  have hbounds := Ber.parseHeader_headerLen hparse
  have hplain := Ber.parseHeader_take (n := 256) (Ber.parseHeader_of_prefix hpre hparse) (by omega)
  have htotal : header.totalLen pf = _ := usizeAdd_of_lt _ hfits
  rw [secureResult_of_total hne hparse htotal, plainResult_of_total hne hplain htotal, ReadsAlike,
    hparse]
  dsimp only
  generalize header.headerLen + header.length = total at hfits
  by_cases hthere : total ≤ file.length
  · rw [if_pos hthere, if_pos hthere]
    simp [Agree, hne, hthere]
  · rw [if_neg hthere, if_neg hthere]
    have hlen : (file.take 256).length = min 256 file.length := List.length_take
    by_cases hcapacity : total - (file.take 256).length ≤ pf.allocLimit
    · rw [pf.withCapacity_of_le hcapacity]
      show Agree _ (if file.length < 0x8000 then _ else _) ↔ _
      split_ifs with hshort
      · simp only [Agree, false_iff]
        intro h
        omega
      · simp only [Agree, true_iff]
        exact ⟨hne, .inr (.inr (by omega))⟩
    · -- the plain reader does not even return
      refine iff_of_false ?_ (by omega)
      obtain hstop | hstop := pf.withCapacity_of_lt (lt_of_not_ge hcapacity)
      all_goals
        rw [hstop]
        exact id

/-- Where its total does not fit. -/
theorem agree_of_overlong (pf : Platform) (hne : file ≠ []) (hpre : first <+: file)
    (hparse : Ber.parseHeader first = .ok header)
    (hover : usizeSize ≤ header.headerLen + header.length) :
    Agree (secureResult pf file first) (plainResult pf file) ∧ ReadsAlike pf file first := by
  have hbounds := Ber.parseHeader_headerLen hparse
  have hfits := Ber.parseHeader_headerLen_le hparse
  have hle := hpre.length_le
  have hplain := Ber.parseHeader_take (n := 256) (Ber.parseHeader_of_prefix hpre hparse) (by omega)
  refine ⟨?_, hne, by rw [hparse]; exact .inr (.inl hover)⟩
  obtain htotal | htotal : header.totalLen pf = _ ∨ header.totalLen pf = _ :=
    usizeAdd_of_overflow pf hover
  · rw [secureResult, plainResult, if_neg hne, if_neg hne, hparse, hplain]
    dsimp only
    rw [htotal]
    exact trivial
  · -- the wrapped total lies within the header
    have hwrapped : (header.headerLen + header.length) % usizeSize ≤ file.length := by
      unfold usizeSize at *
      omega
    rw [secureResult_of_total hne hparse htotal, plainResult_of_total hne hplain htotal,
      if_pos hwrapped, if_pos hwrapped]
    exact rfl

/-- Where the first answer begins with no header, but the file does: what the secure reader gives is
cut where the answer is. -/
theorem agree_part_iff {header : Ber.Header} {total : ℕ} (hne : file ≠ []) (hpre : first <+: file)
    (hpart : first ≠ file) (hfile : Ber.parseHeader (file.take 256) = .ok header)
    (htotal : header.totalLen pf = .ok total) :
    Agree (.ok first) (plainResult pf file) ↔ total = first.length := by
  have hle := hpre.length_le
  rw [plainResult_of_total hne hfile htotal]
  by_cases hthere : total ≤ file.length
  · rw [if_pos hthere]
    show first = file.take total ↔ _
    constructor
    · intro h
      rw [h, List.length_take, min_eq_left hthere]
    · intro h
      rw [h]
      exact List.prefix_iff_eq_take.mp hpre
  · rw [if_neg hthere]
    refine iff_of_false ?_ (by omega)
    cases pf.withCapacity (total - (file.take 256).length) with
    | error stop => exact id
    | ok _ =>
      show ¬ Agree _ (if file.length < 0x8000 then _ else _)
      split_ifs
      · exact hpart
      · exact id

/-- Where the first answer begins with no header. -/
theorem agree_of_no_header {stop : Stop} (hne : file ≠ []) (hpre : first <+: file)
    (hparse : Ber.parseHeader first = .error stop) :
    Agree (secureResult pf file first) (plainResult pf file) ↔ ReadsAlike pf file first := by
  have hsecure : secureResult pf file first = .ok first := by
    rw [secureResult, if_neg hne, hparse]
  rw [hsecure, ReadsAlike, hparse]
  dsimp only
  cases hfile : Ber.parseHeader (file.take 256) with
  | error stop' =>
    have hplain : plainResult pf file = .ok file := by
      rw [plainResult, if_neg hne, hfile]
    rw [hplain]
    simp [Agree, hne]
  | ok header =>
    have hpart : first ≠ file := by
      intro hwhole
      have hparse' := Ber.parseHeader_of_prefix (List.take_prefix 256 file) hfile
      rw [← hwhole, hparse] at hparse'
      cases hparse'
    cases htotal : header.totalLen pf with
    | error stop' =>
      have hplain : plainResult pf file = .error stop' := by
        rw [plainResult, if_neg hne, hfile]
        dsimp only
        rw [htotal]
        rfl
      rw [hplain]
      simp [Agree, hpart, htotal]
    | ok total =>
      have hcondition : (∃ header', Except.ok header = (Except.ok header' : Run Ber.Header) ∧
          header'.totalLen pf = .ok first.length) ↔ total = first.length := by
        constructor
        · intro h
          obtain ⟨header', hheader, hlen⟩ := h
          obtain rfl := Except.ok.inj hheader
          exact Except.ok.inj (htotal.symm.trans hlen)
        · intro h
          exact ⟨header, rfl, h ▸ htotal⟩
      rw [agree_part_iff hne hpre hpart hfile htotal, hcondition]
      exact ⟨fun h => ⟨hne, .inr h⟩, fun h => h.2.resolve_left hpart⟩

end

/-- **The two readers agree exactly under the condition.** -/
theorem readEf_agrees_iff (pf : Platform) (fuel : ℕ) (id : UInt16) (s : SecureSession)
    (hs : InSession s card) (hsize : card.file.length ≤ 0x8000)
    (hroom : s.counter.toNat + card.file.length + 2 < 2 ^ 32) :
    Agree ((SecureSession.readEf aes pf fuel id).runOn (transmit aes) s card).1.1
        ((plainReadEf pf fuel id).run.run (transmit aes) card).1 ↔
      ReadsAlike pf card.file (shortened (card.cuts card.reads) card.file) := by
  obtain ⟨s', card', hsecure⟩ := readEf_runOn aes card pf fuel id hs hsize hroom
  have hplain : (plainReadEf pf fuel id).run.run (transmit aes) card =
      (plainResult pf card.file, card) := by
    rw [plainReadEf, run_bind_ok (selectEf_run aes card id)]
    exact readBinaryAll_run aes card hsize
  rw [hsecure, hplain]
  show Agree (secureResult pf card.file _) (plainResult pf card.file) ↔ _
  have hpre : shortened (card.cuts card.reads) card.file <+: card.file := List.take_prefix _ _
  by_cases hnil : card.file = []
  · rw [secureResult, plainResult, if_pos hnil, if_pos hnil, ReadsAlike]
    simp [Agree, hnil]
  cases hparse : Ber.parseHeader (shortened (card.cuts card.reads) card.file) with
  | error stop => exact agree_of_no_header hnil hpre hparse
  | ok header =>
    by_cases hfits : header.headerLen + header.length < usizeSize
    · exact agree_of_header hnil hsize hpre hparse hfits
    · have hboth := agree_of_overlong pf hnil hpre hparse (by omega)
      exact ⟨fun _ => hboth.2, fun _ => hboth.1⟩

/-- An object with its filler, given out two bytes at a time. -/
theorem readEf_agrees_padded :
    Agree ((SecureSession.readEf aes128 .on 0 0x0001).runOn (transmit aes128) (.opened Block.zero)
          ⟨[0x30, 0x01, 0x05, 0xFF, 0xFF], Block.zero, 1, fun _ => 2, 0⟩).1.1
        ((plainReadEf .checked 0 0x0001).run.run (transmit aes128)
          ⟨[0x30, 0x01, 0x05, 0xFF, 0xFF], Block.zero, 1, fun _ => 2, 0⟩).1 ↔
      ReadsAlike .checked [0x30, 0x01, 0x05, 0xFF, 0xFF]
        (shortened 2 [0x30, 0x01, 0x05, 0xFF, 0xFF]) :=
  readEf_agrees_iff aes128 ⟨[0x30, 0x01, 0x05, 0xFF, 0xFF], Block.zero, 1, fun _ => 2, 0⟩ .checked 0
    0x0001 (.opened Block.zero) ⟨rfl, rfl, rfl⟩ (by decide) (by decide)

/-- A card whose file ends before its object does. -/
def cutShort : FileCard := ⟨[0x30, 0x05, 0x01], Block.zero, 1, fun _ => 256, 0⟩

/-- The plain reader gives what there is, the secure one the card's `6B00`. -/
theorem readEf_disagrees_cutShort :
    ¬ Agree ((SecureSession.readEf aes128 .on 0 0x0001).runOn (transmit aes128)
          (.opened Block.zero) cutShort).1.1
        ((plainReadEf .checked 0 0x0001).run.run (transmit aes128) cutShort).1 ∧
      ((SecureSession.readEf aes128 .on 0 0x0001).runOn (transmit aes128)
          (.opened Block.zero) cutShort).1.1 = .error (.err (.status ⟨0x6B00⟩)) ∧
      ((plainReadEf .checked 0 0x0001).run.run (transmit aes128) cutShort).1 =
        .ok [0x30, 0x05, 0x01] := by
  have hsecure : ((SecureSession.readEf aes128 .on 0 0x0001).runOn (transmit aes128)
      (.opened Block.zero) cutShort).1.1 = .error (.err (.status ⟨0x6B00⟩)) := by decide +kernel
  have hplain : ((plainReadEf .checked 0 0x0001).run.run (transmit aes128) cutShort).1 =
      .ok [0x30, 0x05, 0x01] := by decide +kernel
  refine ⟨?_, hsecure, hplain⟩
  rw [hsecure, hplain]
  exact id

end FileCard

end MynaCard
