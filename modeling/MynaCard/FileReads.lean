import MynaCard.BerGrammar
import MynaCard.CardExchange

/-!
# Reading a file off any card

A party that answers each plain READ BINARY with a response some convention allows for its offset
and `Le`, whatever else it does and keeps (`ReadsBy`). Three conventions: the bytes asked for and
`6B00` past the end (`InFull`), the same with any answer cut shorter (`InPart`), and the warning of
ISO/IEC 7816-4 when the file ends within what was asked for (`WithWarning`).

What the loops of `Card` give follows from the convention alone. A card that cuts its answers short
still has a range read in full, as far as offsets can be addressed; one that warns does not, since
the data that comes with the warning is dropped.
-/

namespace MynaCard

open Dialogue

variable {τ α β : Type}

/-! ### Runs against a party -/

/-- One call that is answered by a response with nothing to follow up. -/
theorem Card.call_run_final {answer : Bytes → τ → Answer × τ} (fuel : ℕ) {c : Command}
    (hv : c.Valid) {r : Response} {σ σ' : τ} (ha : answer c.encoding σ = (.ok r.toBytes, σ'))
    (hle : r.status.correctLe = none) (hmore : r.status.moreDataAvailable = none) :
    (Card.call fuel c).run.run answer σ = (.ok r, σ') := by
  rw [Card.call_run fuel hv, run_ask, ha]
  simp only [Card.answered_toBytes, orElseDone_ok, Card.afterFirst, hle, Card.collect_done _ hmore]
  rfl

theorem run_bind_ok {answer : Bytes → τ → Answer × τ} {x : CardM α} {f : α → CardM β} {a : α}
    {σ σ' : τ} (h : x.run.run answer σ = (.ok a, σ')) :
    (x >>= f).run.run answer σ = (f a).run.run answer σ' := by
  rw [run_exceptT_bind, h]
  rfl

theorem run_bind_error {answer : Bytes → τ → Answer × τ} {x : CardM α} {f : α → CardM β}
    {stop : Stop} {σ σ' : τ} (h : x.run.run answer σ = (.error stop, σ')) :
    (x >>= f).run.run answer σ = (.error stop, σ') := by
  rw [run_exceptT_bind, h]
  rfl

/-- What is made of the value of a run. -/
theorem run_bind_lift {answer : Bytes → τ → Answer × τ} {x : CardM α} {parse : α → Run β} {r : Run α}
    {σ : τ} (h : (x.run.run answer σ).1 = r) :
    ((x >>= fun a => (parse a : CardM β)).run.run answer σ).1 = r >>= parse := by
  have hrun : x.run.run answer σ = (r, (x.run.run answer σ).2) := Prod.ext h rfl
  cases r with
  | ok a => rw [run_bind_ok hrun]; rfl
  | error stop => rw [run_bind_error hrun]; rfl

/-- A run gives a value if its first part does and the rest does from there. -/
theorem run_bind_eq_ok_iff {answer : Bytes → τ → Answer × τ} {x : CardM α} {f : α → CardM β} {σ : τ}
    {b : β} : ((x >>= f).run.run answer σ).1 = .ok b ↔
      ∃ a σ', x.run.run answer σ = (.ok a, σ') ∧ ((f a).run.run answer σ').1 = .ok b := by
  generalize hx : x.run.run answer σ = p
  obtain ⟨r, σ'⟩ := p
  cases r with
  | ok a =>
    rw [run_bind_ok hx]
    refine ⟨fun h => ⟨a, σ', rfl, h⟩, ?_⟩
    rintro ⟨a', σ'', heq, h⟩
    cases heq
    exact h
  | error stop =>
    rw [run_bind_error hx]
    refine iff_of_false (fun h => by cases h) ?_
    rintro ⟨a, σ'', heq, -⟩
    cases heq

theorem run_lift_bind_eq_ok_iff {answer : Bytes → τ → Answer × τ} {r : Run α} {f : α → CardM β} {σ : τ}
    {b : β} : (((r : CardM α) >>= f).run.run answer σ).1 = .ok b ↔
      ∃ a, r = .ok a ∧ ((f a).run.run answer σ).1 = .ok b := by
  cases r with
  | ok a =>
    refine ⟨fun h => ⟨a, rfl, h⟩, ?_⟩
    rintro ⟨a', heq, h⟩
    cases heq
    exact h
  | error stop =>
    refine iff_of_false (fun h => by cases h) ?_
    rintro ⟨a, heq, -⟩
    cases heq

theorem run_attempt_ok {answer : Bytes → τ → Answer × τ} {x : CardM α} {a : α} {σ σ' : τ}
    (h : x.run.run answer σ = (.ok a, σ')) :
    (attempt x).run.run answer σ = (.ok (.ok a), σ') := by
  show (x.run.bind _).run answer σ = _
  rw [run_bind, h]
  rfl

theorem run_attempt_err {answer : Bytes → τ → Answer × τ} {x : CardM α} {e : Error} {σ σ' : τ}
    (h : x.run.run answer σ = (.error (.err e), σ')) :
    (attempt x).run.run answer σ = (.ok (.error e), σ') := by
  show (x.run.bind _).run answer σ = _
  rw [run_bind, h]
  rfl

theorem Card.callOk_run_final {answer : Bytes → τ → Answer × τ} (fuel : ℕ) {c : Command}
    (hv : c.Valid) {r : Response} {σ σ' : τ} (ha : answer c.encoding σ = (.ok r.toBytes, σ'))
    (hle : r.status.correctLe = none) (hmore : r.status.moreDataAvailable = none) :
    (Card.callOk fuel c).run.run answer σ = (r.intoData, σ') := by
  rw [Card.callOk, run_bind_ok (Card.call_run_final fuel hv ha hle hmore)]
  rfl

/-! ### Conventions -/

/-- The bytes asked for, or `6B00` past the end of the file. -/
inductive InFull (file : Bytes) : ℕ → ℕ → Response → Prop
  | within {offset n : ℕ} (h : offset < file.length) :
      InFull file offset n ⟨(file.drop offset).take n, .success⟩
  | past {offset n : ℕ} (h : file.length ≤ offset) : InFull file offset n ⟨[], ⟨0x6B00⟩⟩

/-- Some of the bytes asked for, from the front, or `6B00` past the end of the file. -/
inductive InPart (file : Bytes) : ℕ → ℕ → Response → Prop
  | within {offset n : ℕ} {part : Bytes} (hne : part ≠ [])
      (hpre : part <+: (file.drop offset).take n) : InPart file offset n ⟨part, .success⟩
  | past {offset n : ℕ} (h : file.length ≤ offset) : InPart file offset n ⟨[], ⟨0x6B00⟩⟩

/-- The bytes asked for, or what there is of them together with `6282`. -/
inductive WithWarning (file : Bytes) : ℕ → ℕ → Response → Prop
  | whole {offset n : ℕ} (h : offset + n ≤ file.length) :
      WithWarning file offset n ⟨(file.drop offset).take n, .success⟩
  | cut {offset n : ℕ} (h : offset < file.length) (hend : file.length < offset + n) :
      WithWarning file offset n ⟨file.drop offset, ⟨0x6282⟩⟩
  | past {offset n : ℕ} (h : file.length ≤ offset) : WithWarning file offset n ⟨[], ⟨0x6282⟩⟩

/-- In the states of `I` the party answers a plain READ BINARY as the convention allows, and stays
in them. -/
def ReadsBy (allowed : ℕ → ℕ → Response → Prop) (answer : Bytes → τ → Answer × τ)
    (I : τ → Prop) : Prop :=
  ∀ apdu σ form (c : Command) le, I σ → isoDecode apdu = some (form, c) → c.cla = Cla.user →
    c.ins = Ins.readBinary → c.data = [] → c.le = some le → 0 < le.toNat →
    (u16OfBytes c.p1 c.p2).toNat ≤ maxOffset →
      ∃ r σ', answer apdu σ = (.ok r.toBytes, σ') ∧ I σ' ∧
        allowed (u16OfBytes c.p1 c.p2).toNat le.toNat r

/-- A card that gives the bytes asked for is one that may cut its answers short. -/
theorem InFull.inPart {file : Bytes} {offset n : ℕ} {r : Response} (h : InFull file offset n r)
    (hn : 0 < n) : InPart file offset n r := by
  cases h with
  | within hwithin =>
    refine .within ?_ (List.prefix_refl _)
    apply List.ne_nil_of_length_pos
    rw [List.length_take, List.length_drop]
    omega
  | past hpast => exact .past hpast

variable {allowed allowed' : ℕ → ℕ → Response → Prop} {answer : Bytes → τ → Answer × τ}
  {I : τ → Prop} {σ : τ} (fuel : ℕ)

theorem ReadsBy.mono (h : ReadsBy allowed answer I)
    (hsub : ∀ offset n r, 0 < n → allowed offset n r → allowed' offset n r) :
    ReadsBy allowed' answer I := by
  intro apdu σ form c le hσ hdecode hcla hins hdata hle hpos hoff
  obtain ⟨r, σ', hanswer, hσ', hr⟩ := h apdu σ form c le hσ hdecode hcla hins hdata hle hpos hoff
  exact ⟨r, σ', hanswer, hσ', hsub _ _ _ hpos hr⟩

/-! ### One chunk -/

/-- The statuses of the conventions: success, and the two ways to report the end of the file. -/
def Final (allowed : ℕ → ℕ → Response → Prop) : Prop :=
  ∀ offset n r, allowed offset n r →
    r.status = .success ∨ r.status = ⟨0x6B00⟩ ∨ r.status = ⟨0x6282⟩

theorem inPart_final (file : Bytes) : Final (InPart file) := by
  intro offset n r h
  cases h with
  | within => exact .inl rfl
  | past => exact .inr (.inl rfl)

theorem inFull_final (file : Bytes) : Final (InFull file) := by
  intro offset n r h
  cases h with
  | within => exact .inl rfl
  | past => exact .inr (.inl rfl)

theorem withWarning_final (file : Bytes) : Final (WithWarning file) := by
  intro offset n r h
  cases h with
  | whole => exact .inl rfl
  | cut => exact .inr (.inr rfl)
  | past => exact .inr (.inr rfl)

/-- Nothing follows up on such a response. -/
theorem Final.nothing_more (h : Final allowed) {offset n : ℕ} {r : Response}
    (hr : allowed offset n r) :
    r.status.correctLe = none ∧ r.status.moreDataAvailable = none := by
  obtain hstatus | hstatus | hstatus := h _ _ _ hr
  all_goals
    rw [hstatus]
    exact ⟨rfl, rfl⟩

/-- A chunk at an offset the command can address, off a party that lets nothing follow. -/
theorem ReadsBy.chunk_settled (h : ReadsBy allowed answer I)
    (hsettled : ∀ offset n r, allowed offset n r →
      r.status.correctLe = none ∧ r.status.moreDataAvailable = none) (hσ : I σ)
    (offset : ℕ) (le : UInt32) (hoff : offset ≤ maxOffset) (hpos : 0 < le.toNat)
    (hle : le.toNat ≤ 65536) :
    ∃ r σ', I σ' ∧ allowed offset le.toNat r ∧
      (Card.readBinaryChunk fuel offset le).run.run answer σ = (r.intoData, σ') := by
  let c := Command.withLe Cla.user Ins.readBinary (UInt16.ofNat offset >>> 8).toUInt8
    (UInt16.ofNat offset).toUInt8 le
  have hv : c.Valid := by
    refine ⟨by simp [c, Command.withLe], ?_⟩
    intro le' hle'
    obtain rfl := Option.some.inj hle'
    exact ⟨hpos, hle⟩
  have haddress : (u16OfBytes c.p1 c.p2).toNat = offset := by
    show (u16OfBytes (UInt16.ofNat offset >>> 8).toUInt8 (UInt16.ofNat offset).toUInt8).toNat = _
    unfold maxOffset at hoff
    rw [u16OfBytes_u16Bytes, UInt16.toNat_ofNat']
    omega
  obtain ⟨r, σ', hanswer, hσ', hr⟩ := h c.encoding σ _ c le hσ (Command.isoDecode_encoding hv) rfl
    rfl rfl rfl hpos (by rwa [haddress])
  rw [haddress] at hr
  obtain ⟨hcorrect, hmore⟩ := hsettled _ _ r hr
  refine ⟨r, σ', hσ', hr, ?_⟩
  rw [Card.readBinaryChunk, if_neg (by omega)]
  exact Card.callOk_run_final fuel hv hanswer hcorrect hmore

/-- A chunk of a file. -/
theorem ReadsBy.chunk (h : ReadsBy allowed answer I) (hfinal : Final allowed) (hσ : I σ)
    (offset : ℕ) (le : UInt32) (hoff : offset ≤ maxOffset) (hpos : 0 < le.toNat)
    (hle : le.toNat ≤ 65536) :
    ∃ r σ', I σ' ∧ allowed offset le.toNat r ∧
      (Card.readBinaryChunk fuel offset le).run.run answer σ = (r.intoData, σ') :=
  h.chunk_settled fuel (fun _ _ _ hr => hfinal.nothing_more hr) hσ offset le hoff hpos hle

/-- A chunk past the addresses of the command is refused without a transmission. -/
theorem attempt_chunk_unaddressed (answer : Bytes → τ → Answer × τ) (σ : τ) (fuel : ℕ) {offset : ℕ}
    (le : UInt32) (hoff : maxOffset < offset) :
    (attempt (Card.readBinaryChunk fuel offset le)).run.run answer σ =
      (.ok (.error (.offsetOutOfRange offset)), σ) := by
  apply run_attempt_err
  rw [Card.readBinaryChunk, if_pos hoff]
  rfl

section

variable {file : Bytes} (offset : ℕ) (le : UInt32)

theorem ReadsBy.attempt_part (h : ReadsBy (InPart file) answer I) (hσ : I σ)
    (hoff : offset ≤ maxOffset) (hpos : 0 < le.toNat) (hle : le.toNat ≤ 65536) :
    (∃ part σ', I σ' ∧ part ≠ [] ∧ part <+: (file.drop offset).take le.toNat ∧
      (attempt (Card.readBinaryChunk fuel offset le)).run.run answer σ = (.ok (.ok part), σ')) ∨
    (∃ σ', I σ' ∧ file.length ≤ offset ∧
      (attempt (Card.readBinaryChunk fuel offset le)).run.run answer σ =
        (.ok (.error (.status ⟨0x6B00⟩)), σ')) := by
  obtain ⟨r, σ', hσ', hr, hrun⟩ := h.chunk fuel (inPart_final file) hσ offset le hoff hpos hle
  cases hr with
  | within hne hpre => exact .inl ⟨_, σ', hσ', hne, hpre, run_attempt_ok hrun⟩
  | past hpast => exact .inr ⟨σ', hσ', hpast, run_attempt_err hrun⟩

theorem ReadsBy.attempt_full (h : ReadsBy (InFull file) answer I) (hσ : I σ)
    (hoff : offset ≤ maxOffset) (hpos : 0 < le.toNat) (hle : le.toNat ≤ 65536) :
    (∃ σ', I σ' ∧ offset < file.length ∧
      (attempt (Card.readBinaryChunk fuel offset le)).run.run answer σ =
        (.ok (.ok ((file.drop offset).take le.toNat)), σ')) ∨
    (∃ σ', I σ' ∧ file.length ≤ offset ∧
      (attempt (Card.readBinaryChunk fuel offset le)).run.run answer σ =
        (.ok (.error (.status ⟨0x6B00⟩)), σ')) := by
  obtain ⟨r, σ', hσ', hr, hrun⟩ := h.chunk fuel (inFull_final file) hσ offset le hoff hpos hle
  cases hr with
  | within hwithin => exact .inl ⟨σ', hσ', hwithin, run_attempt_ok hrun⟩
  | past hpast => exact .inr ⟨σ', hσ', hpast, run_attempt_err hrun⟩

/-- A warning is an error to the caller, and its data is dropped. -/
theorem intoData_warning (data : Bytes) :
    (Response.mk data ⟨0x6282⟩).intoData = .error (.err (.status ⟨0x6282⟩)) := by
  have hstatus : Error.fromStatus ⟨0x6282⟩ = .status ⟨0x6282⟩ := by decide
  rw [Response.intoData, if_neg (by show ¬ StatusWord.isSuccess ⟨0x6282⟩ = true; decide), hstatus]

theorem ReadsBy.attempt_warning (h : ReadsBy (WithWarning file) answer I) (hσ : I σ)
    (hoff : offset ≤ maxOffset) (hpos : 0 < le.toNat) (hle : le.toNat ≤ 65536) :
    (∃ σ', I σ' ∧ offset + le.toNat ≤ file.length ∧
      (attempt (Card.readBinaryChunk fuel offset le)).run.run answer σ =
        (.ok (.ok ((file.drop offset).take le.toNat)), σ')) ∨
    (∃ σ', I σ' ∧ file.length < offset + le.toNat ∧
      (attempt (Card.readBinaryChunk fuel offset le)).run.run answer σ =
        (.ok (.error (.status ⟨0x6282⟩)), σ')) := by
  obtain ⟨r, σ', hσ', hr, hrun⟩ := h.chunk fuel (withWarning_final file) hσ offset le hoff hpos hle
  cases hr with
  | whole hwhole => exact .inl ⟨σ', hσ', hwhole, run_attempt_ok hrun⟩
  | cut hwithin hend =>
    rw [intoData_warning] at hrun
    exact .inr ⟨σ', hσ', hend, run_attempt_err hrun⟩
  | past hpast =>
    rw [intoData_warning] at hrun
    exact .inr ⟨σ', hσ', by omega, run_attempt_err hrun⟩

end

/-! ### The loop of `read_binary` -/

/-- Adding the next bytes of a file to bytes from its front. -/
theorem prefix_append_of_prefix_drop {out chunk file : Bytes} (hout : out <+: file)
    (hchunk : chunk <+: file.drop out.length) : out ++ chunk <+: file := by
  obtain ⟨rest, rfl⟩ := hout
  rw [List.drop_left] at hchunk
  exact (List.prefix_append_right_inj out).mpr hchunk

/-- What one turn of the loop asks for. -/
theorem want_bounds {length got : ℕ} (hmore : got < length) :
    (UInt32.ofNat (min (length - got) maxChunk)).toNat = min (length - got) 256 ∧
      1 ≤ min (length - got) 256 := by
  unfold maxChunk
  rw [UInt32.toNat_ofNat']
  omega

section

variable {file out : Bytes} {offset length : ℕ}

/-- One turn of the loop, when the chunk comes. -/
theorem readBinaryLoop_chunk {chunk : Bytes} {σ' : τ} (hmore : out.length < length)
    (hne : chunk ≠ [])
    (hread : (attempt (Card.readBinaryChunk fuel (offset + out.length)
      (UInt32.ofNat (min (length - out.length) maxChunk)))).run.run answer σ =
        (.ok (.ok chunk), σ')) :
    (Card.readBinaryLoop fuel offset length out).run.run answer σ =
      (Card.readBinaryLoop fuel offset length (out ++ chunk)).run.run answer σ' := by
  rw [Card.readBinaryLoop_more fuel offset hmore, run_bind_ok hread]
  dsimp only
  rw [if_neg hne]

/-- One turn of the loop, when the chunk is an error: it ends the range or the read. -/
theorem readBinaryLoop_error {e : Error} {σ' : τ} (hmore : out.length < length)
    (hread : (attempt (Card.readBinaryChunk fuel (offset + out.length)
      (UInt32.ofNat (min (length - out.length) maxChunk)))).run.run answer σ =
        (.ok (.error e), σ')) :
    (Card.readBinaryLoop fuel offset length out).run.run answer σ =
      (bif e.isEndOfFile then .ok out else .error (.err e), σ') := by
  rw [Card.readBinaryLoop_more fuel offset hmore, run_bind_ok hread]
  dsimp only
  cases e.isEndOfFile with
  | true => rfl
  | false => rfl

theorem readBinaryLoop_complete (hlen : out.length ≤ length) (hmore : ¬ out.length < length)
    (hout : out <+: file.drop offset) :
    (Card.readBinaryLoop fuel offset length out).run.run answer σ =
      (.ok ((file.drop offset).take length), σ) := by
  have hall : out = (file.drop offset).take length := by
    rw [← show out.length = length from by omega]
    exact List.prefix_iff_eq_take.mp hout
  rw [Card.readBinaryLoop_done fuel offset hmore, ← hall]
  rfl

/-- The loop of `read_binary` gives what is there, or comes to an offset it cannot address. -/
theorem ReadsBy.readBinaryLoop_part (h : ReadsBy (InPart file) answer I) (hσ : I σ)
    (hout : out <+: file.drop offset) (hlen : out.length ≤ length)
    (hrange : offset + length ≤ 0x8000 ∨ offset ≤ file.length ∧ file.length ≤ 0x8000) :
    ∃ σ', I σ' ∧ (Card.readBinaryLoop fuel offset length out).run.run answer σ =
      (if offset + length ≤ 0x8000 ∨ file.length < 0x8000 then
        .ok ((file.drop offset).take length)
      else .error (.err (.offsetOutOfRange 0x8000)), σ') := by
  induction hmeasure : length - out.length using Nat.strong_induction_on generalizing out σ with
  | _ n ih =>
    subst hmeasure
    have hle := hout.length_le
    rw [List.length_drop] at hle
    by_cases hmore : out.length < length
    · obtain ⟨hwant, hwant_pos⟩ := want_bounds hmore
      by_cases haddressed : offset + out.length ≤ maxOffset
      · obtain ⟨part, σ', hσ', hne, hpre, hread⟩ | ⟨σ', hσ', hpast, hread⟩ :=
          h.attempt_part fuel (offset + out.length) (UInt32.ofNat (min (length - out.length) maxChunk))
            hσ haddressed (by omega) (by omega)
        · have hpart := hpre.length_le
          have hpos := List.length_pos_iff.mpr hne
          rw [hwant, List.length_take] at hpart
          rw [← List.drop_drop] at hpre
          rw [readBinaryLoop_chunk fuel hmore hne hread]
          refine ih _ ?_ hσ' (prefix_append_of_prefix_drop hout
            (hpre.trans (List.take_prefix _ _))) ?_ rfl
          · rw [List.length_append]
            omega
          · rw [List.length_append]
            omega
        · -- everything up to the end of the file has been read
          have hall : out = file.drop offset := by
            apply hout.eq_of_length
            rw [List.length_drop]
            omega
          have htake : (file.drop offset).take length = out := by
            rw [← hall, List.take_of_length_le hlen]
          unfold maxOffset at haddressed
          rw [readBinaryLoop_error fuel hmore hread, if_pos (by omega), htake]
          exact ⟨σ', hσ', rfl⟩
      · unfold maxOffset at haddressed
        have hread := attempt_chunk_unaddressed answer σ fuel
          (UInt32.ofNat (min (length - out.length) maxChunk))
          (by unfold maxOffset; omega : maxOffset < offset + out.length)
        rw [readBinaryLoop_error fuel hmore hread, if_neg (by omega),
          show offset + out.length = 0x8000 from by omega]
        exact ⟨σ, hσ, rfl⟩
    · rw [readBinaryLoop_complete fuel hlen hmore hout, if_pos (by omega)]
      exact ⟨σ, hσ, rfl⟩

theorem ReadsBy.readBinary_part (h : ReadsBy (InPart file) answer I) (pf : Platform)
    (offset length : ℕ) (σ : τ) (hσ : I σ)
    (hrange : offset + length ≤ 0x8000 ∨ offset ≤ file.length ∧ file.length ≤ 0x8000) :
    ∃ σ', I σ' ∧ (Card.readBinary pf fuel offset length).run.run answer σ =
      (pf.withCapacity length >>= fun _ =>
        if offset + length ≤ 0x8000 ∨ file.length < 0x8000 then
          .ok ((file.drop offset).take length)
        else .error (.err (.offsetOutOfRange 0x8000)), σ') := by
  rw [Card.readBinary]
  cases hcapacity : pf.withCapacity length with
  | error stop => exact ⟨σ, hσ, run_bind_error rfl⟩
  | ok _ =>
    rw [run_bind_ok (show _ = (Except.ok (), σ) from rfl)]
    exact h.readBinaryLoop_part fuel hσ List.nil_prefix (Nat.zero_le _) hrange

/-- A range that begins past the addresses is refused, unless nothing is asked for. -/
theorem readBinaryLoop_unaddressed (answer : Bytes → τ → Answer × τ) (σ : τ)
    (hoff : maxOffset < offset) :
    (Card.readBinaryLoop fuel offset length []).run.run answer σ =
      (if length = 0 then .ok [] else .error (.err (.offsetOutOfRange offset)), σ) := by
  cases length with
  | zero =>
    rw [Card.readBinaryLoop_done fuel offset (lt_irrefl 0)]
    rfl
  | succ length =>
    have hmore : ([] : Bytes).length < length + 1 := Nat.succ_pos length
    have hread := attempt_chunk_unaddressed answer σ fuel
      (UInt32.ofNat (min (length + 1 - ([] : Bytes).length) maxChunk))
      (by rw [List.length_nil]; exact hoff : maxOffset < offset + ([] : Bytes).length)
    rw [readBinaryLoop_error fuel hmore hread, if_neg (Nat.succ_ne_zero length)]
    rfl

/-- Off a card that warns, the loop gives the range if it is all there, and otherwise the whole
chunks of what there is. -/
theorem ReadsBy.readBinaryLoop_warning (h : ReadsBy (WithWarning file) answer I) (hσ : I σ)
    (hsize : file.length ≤ maxOffset) (hoff : offset ≤ maxOffset) (hout : out <+: file.drop offset)
    (hlen : out.length ≤ length) (hchunks : 256 ∣ out.length ∨ out.length = length) :
    ∃ σ', I σ' ∧ (Card.readBinaryLoop fuel offset length out).run.run answer σ =
      (.ok ((file.drop offset).take
        (if offset + length ≤ file.length then length
        else 256 * ((file.length - offset) / 256))), σ') := by
  induction hmeasure : length - out.length using Nat.strong_induction_on generalizing out σ with
  | _ n ih =>
    subst hmeasure
    have hle := hout.length_le
    rw [List.length_drop] at hle
    by_cases hmore : out.length < length
    · obtain ⟨hwant, hwant_pos⟩ := want_bounds hmore
      obtain ⟨σ', hσ', hwhole, hread⟩ | ⟨σ', hσ', hend, hread⟩ :=
        h.attempt_warning fuel (offset + out.length)
          (UInt32.ofNat (min (length - out.length) maxChunk)) hσ (by omega) (by omega) (by omega)
      · rw [hwant, ← List.drop_drop] at hread
        rw [hwant] at hwhole
        have hchunk : (((file.drop offset).drop out.length).take
            (min (length - out.length) 256)).length = min (length - out.length) 256 := by
          rw [List.length_take, List.length_drop, List.length_drop]
          omega
        rw [readBinaryLoop_chunk fuel hmore (List.ne_nil_of_length_pos (by omega)) hread]
        refine ih _ ?_ hσ' (prefix_append_of_prefix_drop hout (List.take_prefix _ _)) ?_ ?_ rfl
        · rw [List.length_append, hchunk]
          omega
        · rw [List.length_append, hchunk]
          omega
        · rw [List.length_append, hchunk]
          omega
      · -- what is left does not fill the chunk, and is dropped
        rw [hwant] at hend
        have hall : (file.drop offset).take (256 * ((file.length - offset) / 256)) = out := by
          rw [List.prefix_iff_eq_take.mp hout]
          congr 1
          omega
        rw [readBinaryLoop_error fuel hmore hread, if_neg (by omega), hall]
        exact ⟨σ', hσ', rfl⟩
    · have htake : (file.drop offset).take (if offset + length ≤ file.length then length
          else 256 * ((file.length - offset) / 256)) = (file.drop offset).take length := by
        split_ifs with hthere
        · rfl
        · -- the file ends before the range, so the range is empty
          have hnil : file.drop offset = [] := List.drop_eq_nil_of_le (by omega)
          rw [hnil, List.take_nil, List.take_nil]
      rw [readBinaryLoop_complete fuel hlen hmore hout, htake]
      exact ⟨σ, hσ, rfl⟩

end

/-! ### The loop of `read_binary_physical` -/

section

variable {file out : Bytes}

/-- One turn of the loop, when the chunk is a whole one. -/
theorem readToEnd_chunk {chunk : Bytes} {σ' : τ} (hmore : out.length ≤ maxOffset)
    (hlong : ¬ chunk.length < maxChunk)
    (hread : (attempt (Card.readBinaryChunk fuel out.length 256)).run.run answer σ =
      (.ok (.ok chunk), σ')) :
    (Card.readToEnd fuel out).run.run answer σ =
      (Card.readToEnd fuel (out ++ chunk)).run.run answer σ' := by
  have hne : chunk ≠ [] := by
    intro hnil
    exact hlong (hnil ▸ (by decide))
  rw [Card.readToEnd_more fuel hmore, run_bind_ok hread]
  dsimp only
  rw [if_neg hne, if_neg hlong]

/-- One turn of the loop, when the chunk is the last, incomplete one. -/
theorem readToEnd_short {chunk : Bytes} {σ' : τ} (hmore : out.length ≤ maxOffset)
    (hne : chunk ≠ []) (hshort : chunk.length < maxChunk)
    (hread : (attempt (Card.readBinaryChunk fuel out.length 256)).run.run answer σ =
      (.ok (.ok chunk), σ')) :
    (Card.readToEnd fuel out).run.run answer σ = (.ok (out ++ chunk), σ') := by
  rw [Card.readToEnd_more fuel hmore, run_bind_ok hread]
  dsimp only
  rw [if_neg hne, if_pos hshort]
  rfl

/-- One turn of the loop, when the chunk is an error: it ends the file or the read. -/
theorem readToEnd_error {e : Error} {σ' : τ} (hmore : out.length ≤ maxOffset)
    (hread : (attempt (Card.readBinaryChunk fuel out.length 256)).run.run answer σ =
      (.ok (.error e), σ')) :
    (Card.readToEnd fuel out).run.run answer σ =
      (bif e.isEndOfFile then .ok out else .error (.err e), σ') := by
  rw [Card.readToEnd_more fuel hmore, run_bind_ok hread]
  dsimp only
  cases e.isEndOfFile with
  | true => rfl
  | false => rfl

/-- Reading on until the card stops giving bytes gives what of the file can be addressed. What there
is so far is whole chunks, or the whole file. -/
theorem ReadsBy.readToEnd_full (h : ReadsBy (InFull file) answer I) (hσ : I σ)
    (hout : out <+: file.take 0x8000) (hchunks : 256 ∣ out.length ∨ out = file) :
    ∃ σ', I σ' ∧
      (Card.readToEnd fuel out).run.run answer σ = (.ok (file.take 0x8000), σ') := by
  induction hmeasure : 0x8000 - out.length using Nat.strong_induction_on generalizing out σ with
  | _ n ih =>
    subst hmeasure
    have hle := hout.length_le
    have hfile := hout.trans (List.take_prefix _ _)
    rw [List.length_take] at hle
    by_cases hmore : out.length ≤ maxOffset
    · have haddressed := hmore
      unfold maxOffset at haddressed
      obtain ⟨σ', hσ', hwithin, hread⟩ | ⟨σ', hσ', hpast, hread⟩ :=
        h.attempt_full fuel out.length 256 hσ hmore (by decide) (by decide)
      · rw [show (256 : UInt32).toNat = 256 from rfl] at hread
        have hdvd : 256 ∣ out.length := by
          obtain hdvd | rfl := hchunks
          · exact hdvd
          · exact absurd hwithin (lt_irrefl _)
        have hfront := prefix_append_of_prefix_drop hfile
          (List.take_prefix 256 (file.drop out.length))
        have hchunk : ((file.drop out.length).take 256).length =
            min 256 (file.length - out.length) := by
          rw [List.length_take, List.length_drop]
        have hne : (file.drop out.length).take 256 ≠ [] := by
          intro hnil
          rw [hnil, List.length_nil] at hchunk
          omega
        by_cases hshort : ((file.drop out.length).take 256).length < maxChunk
        · rw [readToEnd_short fuel hmore hne hshort hread]
          unfold maxChunk at hshort
          have hall : out ++ (file.drop out.length).take 256 = file := by
            apply hfront.eq_of_length
            rw [List.length_append, hchunk]
            omega
          rw [hall, List.take_of_length_le (by omega)]
          exact ⟨σ', hσ', rfl⟩
        · rw [readToEnd_chunk fuel hmore hshort hread]
          unfold maxChunk at hshort
          refine ih _ ?_ hσ' ?_ (.inl ?_) rfl
          · rw [List.length_append, hchunk]
            omega
          · rw [List.prefix_take_iff, List.length_append, hchunk]
            exact ⟨hfront, by omega⟩
          · rw [List.length_append, hchunk]
            omega
      · have hall : out = file := hfile.eq_of_length (by have := hfile.length_le; omega)
        rw [readToEnd_error fuel hmore hread, List.take_of_length_le (by rw [← hall]; omega), ← hall]
        exact ⟨σ', hσ', rfl⟩
    · have hall : out = file.take 0x8000 := by
        apply hout.eq_of_length
        unfold maxOffset at hmore
        rw [List.length_take]
        omega
      rw [Card.readToEnd_done fuel hmore, ← hall]
      exact ⟨σ, hσ, rfl⟩

theorem ReadsBy.readBinaryPhysical_full (h : ReadsBy (InFull file) answer I) (σ : τ) (hσ : I σ) :
    ∃ σ', I σ' ∧ (Card.readBinaryPhysical fuel).run.run answer σ =
      (.ok (file.take 0x8000), σ') :=
  h.readToEnd_full fuel hσ List.nil_prefix (.inl (dvd_zero 256))

/-- Off a card that warns, the loop gives the whole chunks of the file. -/
theorem ReadsBy.readToEnd_warning (h : ReadsBy (WithWarning file) answer I) (hσ : I σ)
    (hsize : file.length ≤ maxOffset) (hout : out <+: file) (hchunks : 256 ∣ out.length) :
    ∃ σ', I σ' ∧ (Card.readToEnd fuel out).run.run answer σ =
      (.ok (file.take (256 * (file.length / 256))), σ') := by
  induction hmeasure : file.length - out.length using Nat.strong_induction_on
    generalizing out σ with
  | _ n ih =>
    subst hmeasure
    have hle := hout.length_le
    have hmore : out.length ≤ maxOffset := by omega
    obtain ⟨σ', hσ', hwhole, hread⟩ | ⟨σ', hσ', hend, hread⟩ :=
      h.attempt_warning fuel out.length 256 hσ (by omega) (by decide) (by decide)
    · rw [show (256 : UInt32).toNat = 256 from rfl] at hread hwhole
      have hchunk : ((file.drop out.length).take 256).length = 256 := by
        rw [List.length_take, List.length_drop]
        omega
      rw [readToEnd_chunk fuel hmore (by unfold maxChunk; omega) hread]
      refine ih _ ?_ hσ' (prefix_append_of_prefix_drop hout (List.take_prefix _ _)) ?_ rfl
      · rw [List.length_append, hchunk]
        omega
      · rw [List.length_append, hchunk]
        omega
    · -- less than a chunk is left, and it is dropped
      rw [show (256 : UInt32).toNat = 256 from rfl] at hend
      have hall : file.take (256 * (file.length / 256)) = out := by
        rw [List.prefix_iff_eq_take.mp hout]
        congr 1
        omega
      rw [readToEnd_error fuel hmore hread, hall]
      exact ⟨σ', hσ', rfl⟩

theorem ReadsBy.readBinaryPhysical_warning (h : ReadsBy (WithWarning file) answer I) (σ : τ) (hσ : I σ)
    (hsize : file.length ≤ maxOffset) :
    ∃ σ', I σ' ∧ (Card.readBinaryPhysical fuel).run.run answer σ =
      (.ok (file.take (256 * (file.length / 256))), σ') :=
  h.readToEnd_warning fuel hσ hsize List.nil_prefix (dvd_zero 256)

end

/-! ### `read_binary_all` -/

/-- What `read_binary_all` gives off a card that holds `file`. -/
def FileCard.plainResult (pf : Platform) (file : Bytes) : Run Bytes :=
  if file = [] then .ok []
  else match Ber.parseHeader (file.take 256) with
    | .error _ => .ok file
    | .ok header => do
      let total ← header.totalLen pf
      if total ≤ file.length then .ok (file.take total)
      else do
        pf.withCapacity (total - (file.take 256).length)
        if file.length < 0x8000 then .ok file
        else .error (.err (.offsetOutOfRange 0x8000))

theorem FileCard.plainResult_of_total {pf : Platform} {file : Bytes} {header : Ber.Header}
    {total : ℕ} (hne : file ≠ [])
    (hparse : Ber.parseHeader (file.take 256) = .ok header)
    (htotal : header.totalLen pf = .ok total) :
    plainResult pf file =
      if total ≤ file.length then .ok (file.take total)
      else pf.withCapacity (total - (file.take 256).length) >>= fun _ =>
        if file.length < 0x8000 then .ok file
        else .error (.err (.offsetOutOfRange 0x8000)) := by
  rw [plainResult, if_neg hne, hparse]
  dsimp only
  rw [htotal]
  rfl

section

variable {file : Bytes}

theorem ReadsBy.inPart_of_inFull (h : ReadsBy (InFull file) answer I) :
    ReadsBy (InPart file) answer I :=
  h.mono fun _ _ _ hn hr => hr.inPart hn

/-- What `readOn` does with an object that goes on past the first chunk. -/
theorem ReadsBy.readBinary_rest (h : ReadsBy (InPart file) answer I) (hσ : I σ) (pf : Platform)
    {total : ℕ} {first : Bytes} (hfirst : first <+: file) (hlong : first.length < total)
    (hsize : file.length ≤ 0x8000) :
    ∃ σ', I σ' ∧ (Card.readBinary pf fuel first.length (total - first.length) >>= fun rest =>
        (pure (first ++ rest) : CardM Bytes)).run.run answer σ =
      (pf.withCapacity (total - first.length) >>= fun _ =>
        if total ≤ 0x8000 ∨ file.length < 0x8000 then .ok (file.take total)
        else .error (.err (.offsetOutOfRange 0x8000)), σ') := by
  obtain ⟨σ', hσ', hread⟩ := h.readBinary_part fuel pf first.length (total - first.length) σ hσ
    (.inr ⟨hfirst.length_le, hsize⟩)
  rw [Nat.add_sub_cancel' hlong.le] at hread
  refine ⟨σ', hσ', ?_⟩
  cases hcapacity : pf.withCapacity (total - first.length) with
  | error stop =>
    rw [hcapacity] at hread
    rw [run_bind_error hread]
    rfl
  | ok _ =>
    rw [hcapacity] at hread
    show _ = (if total ≤ 0x8000 ∨ file.length < 0x8000 then _ else _, σ')
    by_cases hthere : total ≤ 0x8000 ∨ file.length < 0x8000
    · have hall : first ++ (file.drop first.length).take (total - first.length) =
          file.take total := by
        have hadd := List.take_add (l := file) (i := first.length) (j := total - first.length)
        rw [Nat.add_sub_cancel' hlong.le, ← List.prefix_iff_eq_take.mp hfirst] at hadd
        exact hadd.symm
      rw [if_pos hthere] at hread
      rw [run_bind_ok hread, if_pos hthere, hall]
      rfl
    · rw [if_neg hthere] at hread
      rw [run_bind_error hread, if_neg hthere]

theorem ReadsBy.readOn_full (h : ReadsBy (InFull file) answer I) (hσ : I σ) {pf : Platform}
    (hne : file ≠ []) (hsize : file.length ≤ 0x8000) :
    ∃ σ', I σ' ∧ (Card.readOn pf fuel (file.take 256)).run.run answer σ =
      (FileCard.plainResult pf file, σ') := by
  have hfirst : (file.take 256).length = min 256 file.length := List.length_take
  have hpos := List.length_pos_iff.mpr hne
  rw [Card.readOn, if_neg (by rw [List.isEmpty_iff_length_eq_zero]; omega), FileCard.plainResult,
    if_neg hne]
  cases hparse : Ber.parseHeader (file.take 256) with
  | error stop =>
    have hchunks : 256 ∣ (file.take 256).length ∨ file.take 256 = file := by
      by_cases hlong : 256 ≤ file.length
      · exact .inl (by rw [hfirst, min_eq_left hlong])
      · exact .inr (List.take_of_length_le (by omega))
    have hread := h.readToEnd_full fuel hσ
      (by rw [List.take_of_length_le hsize]; exact List.take_prefix 256 file) hchunks
    rwa [List.take_of_length_le hsize] at hread
  | ok header =>
    dsimp only
    cases htotal : header.totalLen pf with
    | error stop => exact ⟨σ, hσ, run_bind_error rfl⟩
    | ok total =>
      rw [run_bind_ok (show _ = (Except.ok total, σ) from rfl)]
      show ∃ σ', I σ' ∧ _ = (if total ≤ file.length then _ else _, σ')
      by_cases hshort : total ≤ (file.take 256).length
      · rw [if_pos hshort, if_pos (by omega), List.take_take, min_eq_left (by omega)]
        exact ⟨σ, hσ, rfl⟩
      obtain ⟨σ', hσ', hread⟩ := h.inPart_of_inFull.readBinary_rest fuel hσ pf
        (List.take_prefix 256 file) (by omega : (file.take 256).length < total) hsize
      rw [if_neg hshort, hread]
      refine ⟨σ', hσ', ?_⟩
      by_cases hwhole : total ≤ file.length
      · -- an object that is all there can be allocated
        have hlimit := pf.le_allocLimit
        rw [pf.withCapacity_of_le (by omega), if_pos hwhole]
        show (if total ≤ 0x8000 ∨ file.length < 0x8000 then _ else _, σ') = _
        rw [if_pos (.inl (by omega))]
      · have hall : file.take total = file := List.take_of_length_le (by omega)
        have hroom : total ≤ 0x8000 ∨ file.length < 0x8000 ↔ file.length < 0x8000 := by omega
        rw [if_neg hwhole, hall]
        simp only [hroom]

theorem ReadsBy.readBinaryAll_full (h : ReadsBy (InFull file) answer I) (pf : Platform)
    (σ : τ) (hσ : I σ) (hsize : file.length ≤ 0x8000) :
    ∃ σ', I σ' ∧ (Card.readBinaryAll pf fuel).run.run answer σ =
      (FileCard.plainResult pf file, σ') := by
  rw [Card.readBinaryAll]
  obtain ⟨σ', hσ', hwithin, hread⟩ | ⟨σ', hσ', hpast, hread⟩ :=
    h.attempt_full fuel 0 256 hσ (Nat.zero_le _) (by decide) (by decide)
  · rw [show (256 : UInt32).toNat = 256 from rfl, List.drop_zero] at hread
    rw [run_bind_ok hread]
    exact h.readOn_full fuel hσ' (List.length_pos_iff.mp hwithin) hsize
  · have hnil : file = [] := List.length_eq_zero_iff.mp (by omega)
    rw [run_bind_ok hread, FileCard.plainResult, if_pos hnil]
    exact ⟨σ', hσ', rfl⟩

end

end MynaCard
