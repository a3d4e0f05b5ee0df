import MynaCard.CardPrograms
import MynaCard.Overflow

/-!
# Sums of lengths in the two file readers

`Card::read_binary_all` adds up the header its first chunk begins with, and `SecureSession::read_ef`
that of the file and that of every response object it decrypts. Nothing else they do adds lengths
that could overflow, so each panics, in a build with overflow checks, exactly on an overlong header
in one of these places, and otherwise runs alike in both builds.

`no_overflow_iff` is the whole of it, for the readers of byte strings and the two readers of files.
-/

namespace MynaCard

open Ber Dialogue

/-! ### Operations on a card -/

namespace Card

/-- No run of the operation ends in the overflow of a sum of lengths. -/
def NeverOverflows {α : Type} (x : CardM α) : Prop :=
  ∀ tr out, Path x.run tr out → ¬ Overflows out

section Rules

variable {α β : Type}

theorem NeverOverflows.of_run {x : Run α} (h : ¬ Overflows x) :
    NeverOverflows (liftM x : CardM α) := by
  intro tr out hpath
  obtain ⟨-, rfl⟩ := path_done.mp hpath
  exact h

theorem NeverOverflows.pure (a : α) : NeverOverflows (pure a : CardM α) :=
  .of_run (not_overflows_ok a)

theorem NeverOverflows.throw {stop : Stop} (h : stop ≠ .panic .usizeOverflow) :
    NeverOverflows (throw stop : CardM α) := by
  intro tr out hpath
  obtain ⟨-, rfl⟩ := path_done.mp hpath
  exact fun hover => h (Except.error.inj hover)

theorem NeverOverflows.bind {x : CardM α} {f : α → CardM β} (hx : NeverOverflows x)
    (hf : ∀ a, NeverOverflows (f a)) : NeverOverflows (x >>= f) := by
  intro tr out hpath hover
  rcases path_exceptT_bind.mp hpath with ⟨stop, rfl, hstop⟩ | ⟨tr₁, a, tr₂, -, -, h₂⟩
  · exact hx tr _ hstop (congrArg Except.error (Except.error.inj hover))
  · exact hf a tr₂ out h₂ hover

theorem NeverOverflows.attempt {x : CardM α} (hx : NeverOverflows x) :
    NeverOverflows (attempt x) := by
  intro tr out hpath hover
  rcases path_attempt.mp hpath with ⟨a, rfl, -⟩ | ⟨e, rfl, -⟩ | ⟨stop, -, rfl, h⟩
  · cases hover
  · cases hover
  · exact hx tr _ h (congrArg Except.error (Except.error.inj hover))

end Rules

theorem not_overflows_toBytes (c : Command) : ¬ Overflows c.toBytes := by
  intro hover
  by_cases hv : c.Valid
  · rw [Command.toBytes_of_valid hv] at hover
    cases hover
  · obtain ⟨e, he⟩ := Command.toBytes_of_not_valid hv
    rw [he] at hover
    cases hover

theorem returned_intoData (r : Response) : Returned r.intoData := by
  unfold Response.intoData
  split
  · exact returned_ok _
  · exact returned_err _

theorem not_overflows_intoData (r : Response) : ¬ Overflows r.intoData :=
  (returned_intoData r).not_overflows

theorem not_overflows_responseParse (raw : Bytes) : ¬ Overflows (Response.parse raw) := by
  intro hover
  obtain ⟨e, he⟩ := answered_eq_error (a := .ok raw) hover
  cases he

theorem neverOverflows_transmit (apdu : Bytes) : NeverOverflows (transmit apdu) := by
  intro tr out hpath hover
  have hask : Path (ask apdu _) tr out := hpath
  obtain ⟨a, tr', rfl, h⟩ := path_ask.mp hask
  cases a with
  | ok raw =>
    obtain ⟨-, rfl⟩ := path_done.mp h
    cases hover
  | error e =>
    obtain ⟨-, rfl⟩ := path_done.mp h
    cases hover

theorem neverOverflows_transmitOnce (c : Command) : NeverOverflows (transmitOnce c) :=
  (NeverOverflows.of_run (not_overflows_toBytes c)).bind fun apdu =>
    (neverOverflows_transmit apdu).bind fun raw => .of_run (not_overflows_responseParse raw)

theorem neverOverflows_collect (fuel : ℕ) (r : Response) : NeverOverflows (collect fuel r) := by
  induction fuel generalizing r with
  | zero =>
    cases hmore : r.status.moreDataAvailable with
    | none =>
      rw [collect_done 0 hmore]
      exact .pure r
    | some n =>
      rw [collect_zero hmore]
      exact .throw (by simp)
  | succ fuel ih =>
    cases hmore : r.status.moreDataAvailable with
    | none =>
      rw [collect_done _ hmore]
      exact .pure r
    | some n =>
      rw [collect_succ fuel hmore]
      exact (neverOverflows_transmitOnce _).bind fun next => ih _

theorem neverOverflows_call (fuel : ℕ) (c : Command) : NeverOverflows (call fuel c) := by
  refine (neverOverflows_transmitOnce c).bind fun response => ?_
  split
  · exact (neverOverflows_transmitOnce _).bind fun r => neverOverflows_collect fuel r
  · exact neverOverflows_collect fuel response

theorem neverOverflows_readBinaryChunk (fuel offset : ℕ) (le : UInt32) :
    NeverOverflows (readBinaryChunk fuel offset le) := by
  unfold readBinaryChunk
  split
  · exact (NeverOverflows.throw (by simp)).bind fun _ =>
      (neverOverflows_call fuel _).bind fun r => .of_run (not_overflows_intoData r)
  · exact (neverOverflows_call fuel _).bind fun r => .of_run (not_overflows_intoData r)

theorem neverOverflows_closed : Closed fun _ x => NeverOverflows x where
  pure := .pure
  throw := .throw
  bind := .bind
  attempt := .attempt

/-- Going on from a first chunk that is not overlong. -/
theorem readOn_of_not_overlong (pf : Platform) (fuel : ℕ) {chunk : Bytes} (h : ¬ Overlong chunk) :
    readOn (pf.withChecks .off) fuel chunk = readOn (pf.withChecks .on) fuel chunk ∧
      NeverOverflows (readOn (pf.withChecks .on) fuel chunk) := by
  unfold readOn
  split
  · exact ⟨rfl, .pure chunk⟩
  · cases hparse : parseHeader chunk with
    | error e =>
      exact ⟨rfl, neverOverflows_closed.readToEnd (neverOverflows_readBinaryChunk fuel) chunk⟩
    | ok header =>
      have hlt : header.headerLen + header.length < usizeSize := by
        by_contra hge
        exact h (overlong_iff.mpr ⟨header, hparse, by omega⟩)
      simp only [Header.totalLen, usizeAdd_of_lt _ hlt]
      refine ⟨rfl, (NeverOverflows.of_run (not_overflows_ok _)).bind fun total => ?_⟩
      split
      · exact .pure _
      · exact (neverOverflows_closed.readBinary (neverOverflows_readBinaryChunk fuel) _ _ _).bind
          fun _ => .pure _

/-- Going on from a first chunk that is. -/
theorem readOn_of_overlong (pf : Platform) (fuel : ℕ) {chunk : Bytes} (h : Overlong chunk) :
    (readOn (pf.withChecks .on) fuel chunk).run = done (.error (.panic .usizeOverflow)) := by
  obtain ⟨header, hparse, -⟩ := overlong_iff.mp h
  have hover : header.totalLen .on = .error (.panic .usizeOverflow) :=
    (overflows_totalLen_iff hparse).mpr h
  have hne : chunk.isEmpty = false := by
    cases chunk with
    | nil => cases hparse
    | cons b bs => rfl
  unfold readOn
  simp only [hne, hparse, Platform.withChecks_overflowChecks, hover, Bool.false_eq_true, if_false]
  rfl

/-- The first chunk `Card::read_binary_all` is given is overlong. -/
def FirstChunkOverlong (fuel : ℕ) (tr : Trace Bytes Answer) : Prop :=
  ∃ tr₁ tr₂ chunk, tr = tr₁ ++ tr₂ ∧ Path (readBinaryChunk fuel 0 256).run tr₁ (.ok chunk) ∧
    Overlong chunk

/-- An overlong first chunk can only be the one the run is given. -/
theorem FirstChunkOverlong.of_attempt {fuel : ℕ} {tr tr₁ : Trace Bytes Answer}
    {r : Run (Except Error Bytes)} (h : FirstChunkOverlong fuel tr)
    (hr : Path (attempt (readBinaryChunk fuel 0 256)).run tr₁ r) (hpre : tr₁ <+: tr) :
    ∃ chunk, r = .ok (.ok chunk) ∧ Overlong chunk := by
  obtain ⟨tr₂, tr₃, chunk, rfl, hchunk, hoverlong⟩ := h
  have hok := path_attempt.mpr (.inl ⟨chunk, rfl, hchunk⟩)
  exact ⟨chunk, (path_prefix_unique hr hok hpre (List.prefix_append _ _)).2, hoverlong⟩

/-- What a reader does with an error. -/
theorem neverOverflows_ended (e : Error) :
    NeverOverflows (if e.isEndOfFile then pure [] else throw (.err e) : CardM Bytes) := by
  split
  · exact .pure []
  · exact .throw (by simp)

/-- Reading a file overflows exactly when its first chunk is overlong, and a run that does not
overflow is a run of either build. -/
theorem readBinaryAll_overflow {pf : Platform} {fuel : ℕ} {tr : Trace Bytes Answer}
    {out : Run Bytes} (h : Path (readBinaryAll (pf.withChecks .on) fuel).run tr out) :
    (Overflows out ↔ FirstChunkOverlong fuel tr) ∧
      (¬ Overflows out → Path (readBinaryAll (pf.withChecks .off) fuel).run tr out) := by
  rcases path_exceptT_bind.mp h with ⟨stop, rfl, hstop⟩ | ⟨tr₁, r, tr₂, rfl, h₁, h₂⟩
  · have hno : ¬ Overflows (.error stop : Run Bytes) := by
      intro hover
      exact (neverOverflows_readBinaryChunk fuel 0 256).attempt tr _ hstop
        (congrArg Except.error (Except.error.inj hover))
    refine ⟨iff_of_false hno ?_, fun _ => path_exceptT_bind.mpr (.inl ⟨stop, rfl, hstop⟩)⟩
    intro hover
    obtain ⟨chunk, hchunk, -⟩ := hover.of_attempt hstop (List.prefix_refl tr)
    cases hchunk
  · cases r with
    | error e =>
      refine ⟨iff_of_false (neverOverflows_ended e tr₂ out h₂) ?_,
        fun _ => path_exceptT_bind.mpr (.inr ⟨tr₁, _, tr₂, rfl, h₁, h₂⟩)⟩
      intro hover
      obtain ⟨chunk, hchunk, -⟩ := hover.of_attempt h₁ (List.prefix_append _ _)
      cases hchunk
    | ok chunk =>
      have hchunk : Path (readBinaryChunk fuel 0 256).run tr₁ (.ok chunk) := by
        rcases path_attempt.mp h₁ with ⟨a, ha, hpath⟩ | ⟨e, he, -⟩ | ⟨stop, -, hs, -⟩
        · cases ha
          exact hpath
        · cases he
        · cases hs
      have h₂ : Path (readOn (pf.withChecks .on) fuel chunk).run tr₂ out := h₂
      by_cases hover : Overlong chunk
      · rw [readOn_of_overlong pf fuel hover] at h₂
        obtain ⟨rfl, rfl⟩ := path_done.mp h₂
        exact ⟨iff_of_true rfl ⟨tr₁, [], chunk, rfl, hchunk, hover⟩, fun hno => absurd rfl hno⟩
      · obtain ⟨hsame, hnever⟩ := readOn_of_not_overlong pf fuel hover
        refine ⟨iff_of_false (hnever tr₂ out h₂) ?_, fun _ => ?_⟩
        · intro hfirst
          obtain ⟨chunk', hchunk', hover'⟩ := hfirst.of_attempt h₁ (List.prefix_append _ _)
          cases hchunk'
          exact hover hover'
        · refine path_exceptT_bind.mpr (.inr ⟨tr₁, .ok chunk, tr₂, rfl, h₁, ?_⟩)
          show Path (readOn (pf.withChecks .off) fuel chunk).run tr₂ out
          rw [hsame]
          exact h₂

end Card

/-! ### Operations on a session -/

namespace SecureSession

/-- A run of the checked build that does not end in a panic is a run of the unchecked one. -/
def SameUnlessPanic {α : Type} (x : OverflowChecks → SessionM α) : Prop :=
  ∀ s tr out s', Steps (x .on) s tr out s' → (∀ why, out ≠ .error (.panic why)) →
    Steps (x .off) s tr out s'

section Rules

variable {α β : Type}

theorem SameUnlessPanic.const (x : SessionM α) : SameUnlessPanic fun _ => x :=
  fun _ _ _ _ h _ => h

theorem SameUnlessPanic.liftRun {x : OverflowChecks → Run α} (h : OnlyPanics x) :
    SameUnlessPanic fun oc => liftRun (x oc) := by
  intro s tr out s' hsteps hno
  obtain ⟨rfl, rfl, rfl⟩ := steps_liftRun.mp hsteps
  rcases h with hpanic | hsame
  · exact absurd hpanic (hno .usizeOverflow)
  · exact steps_liftRun.mpr ⟨rfl, hsame.symm, rfl⟩

theorem SameUnlessPanic.bind {x : OverflowChecks → SessionM α} {f : OverflowChecks → α → SessionM β}
    (hx : SameUnlessPanic x) (hf : ∀ a, SameUnlessPanic fun oc => f oc a) :
    SameUnlessPanic fun oc => x oc >>= f oc := by
  intro s tr out s' hsteps hno
  rcases steps_bind.mp hsteps with ⟨stop, rfl, h⟩ | ⟨tr₁, a, s₁, tr₂, rfl, h₁, h₂⟩
  · refine steps_bind.mpr (.inl ⟨stop, rfl, hx s tr _ s' h ?_⟩)
    intro why hwhy
    exact hno why (congrArg Except.error (Except.error.inj hwhy))
  · exact steps_bind.mpr (.inr ⟨tr₁, a, s₁, tr₂, rfl, hx s tr₁ _ s₁ h₁ (by simp),
      hf a s₁ tr₂ out s' h₂ hno⟩)

end Rules

theorem sameUnlessPanic_advance (sw : StatusWord) : SameUnlessPanic fun oc => advance oc sw := by
  intro s tr out s' hsteps hno
  rcases counterSucc_eq .on s.counter with ⟨-, -, hpanic⟩ | ⟨hlt, -⟩
  · obtain ⟨-, ⟨stop, hstop, rfl, -⟩ | ⟨n, hn, -⟩⟩ := steps_advance_iff.mp hsteps
    · rw [hpanic] at hstop
      obtain rfl := Except.error.inj hstop
      exact absurd rfl (hno .counterOverflow)
    · rw [hpanic] at hn
      cases hn
  · have hoff : counterSucc .off s.counter = counterSucc .on s.counter := by
      have hlt := hlt.resolve_left (by simp)
      rw [counterSucc, counterSucc, if_pos (by omega), if_pos (by omega)]
    rw [steps_advance_iff, hoff]
    exact steps_advance_iff.mp hsteps

theorem sameUnlessPanic_call (fuel : ℕ) (c : Command) :
    SameUnlessPanic fun oc => call oc fuel c := by
  refine SameUnlessPanic.bind (.const get) fun s => ?_
  split
  · exact .const _
  · refine SameUnlessPanic.bind (.const _) fun response => ?_
    exact (sameUnlessPanic_advance _).bind fun _ => .const _

/-- No secure call ends in the overflow of a sum of lengths. -/
theorem not_overflows_call {oc : OverflowChecks} {fuel : ℕ} {c : Command} {s s' : SecureSession}
    {tr : Trace Sent Answer} {out : Run Bytes} (h : Steps (call oc fuel c) s tr out s') :
    ¬ Overflows out := by
  intro hover
  rcases call_steps h with ⟨-, -, rfl, -⟩ | ⟨-, tr', r, -, hpath, hr⟩
  · cases hover
  · rcases hr with ⟨stop, rfl, rfl, -⟩ | ⟨response, -, ⟨rfl, -⟩ | ⟨-, rfl, -⟩⟩
    · exact Card.neverOverflows_call fuel c tr' _ hpath (congrArg Except.error (Except.error.inj hover))
    · cases hover
    · exact Card.not_overflows_intoData response hover

/-! ### One secure READ BINARY -/

theorem onlyPanics_parseCryptogram (response : Bytes) :
    OnlyPanics fun oc => parseCryptogram oc response :=
  (onlyPanics_parse response).bind fun _ => onlyPanics_const _

theorem overflows_parseCryptogram_iff {response : Bytes} :
    Overflows (parseCryptogram .on response) ↔ Overlong response := by
  rw [parseCryptogram, overflows_bind, overflows_parse_iff]
  refine ⟨fun h => h.resolve_right ?_, .inl⟩
  rintro ⟨tlv, -, h⟩
  split at h
  · exact absurd h (not_overflows_malformed _)
  · split at h
    · exact absurd h (not_overflows_malformed _)
    · split at h
      · exact absurd h (not_overflows_ok _)
      · exact absurd h (not_overflows_malformed _)

theorem returned_decrypt (aes : Aes128) (key : Block) (n : UInt32) (cryptogram : Bytes) :
    Returned (aes.decrypt key n cryptogram) := by
  unfold Aes128.decrypt
  split
  · exact returned_malformed _
  · exact returned_orMalformed _ _

variable {aes : Aes128} {fuel : ℕ} {s s' : SecureSession} {tr : Trace Sent Answer}

theorem sameUnlessPanic_readBinary (aes : Aes128) (fuel : ℕ) (offset length : UInt16) :
    SameUnlessPanic fun oc => readBinary aes oc fuel offset length := by
  refine (sameUnlessPanic_call fuel _).bind fun response => ?_
  refine SameUnlessPanic.bind (.const get) fun s => ?_
  exact .liftRun ((onlyPanics_parseCryptogram response).bind fun _ => onlyPanics_const _)

/-- A secure READ BINARY is answered with an overlong response object. -/
def ResponseOverlong (fuel : ℕ) (offset length : UInt16) (s : SecureSession)
    (tr : Trace Sent Answer) (s' : SecureSession) : Prop :=
  ∃ response, Steps (call .on fuel (readBinaryCommand offset length)) s tr (.ok response) s' ∧
    Overlong response

theorem readBinary_overflow {offset length : UInt16} {out : Run Bytes}
    (h : Steps (readBinary aes .on fuel offset length) s tr out s') :
    Overflows out ↔ ResponseOverlong fuel offset length s tr s' := by
  rcases steps_bind.mp h with ⟨stop, rfl, hstop⟩ | ⟨tr₁, response, s₁, tr₂, rfl, h₁, h₂⟩
  · refine iff_of_false ?_ ?_
    · intro hover
      exact not_overflows_call hstop (congrArg Except.error (Except.error.inj hover))
    · intro hover
      obtain ⟨response, hresponse, -⟩ := hover
      cases (steps_unique hstop hresponse).1
  · obtain ⟨rfl, rfl, rfl⟩ := steps_liftRun.mp (steps_get_bind.mp h₂)
    rw [List.append_nil, overflows_bind, overflows_parseCryptogram_iff]
    constructor
    · intro hover
      rcases hover with hover | ⟨cryptogram, -, hover⟩
      · exact ⟨response, h₁, hover⟩
      · exact absurd hover (returned_decrypt aes _ _ cryptogram).not_overflows
    · intro hover
      obtain ⟨response', hresponse, hover⟩ := hover
      cases (steps_unique h₁ hresponse).1
      exact .inl hover

theorem readBinary_of_responseOverlong {offset length : UInt16}
    (h : ResponseOverlong fuel offset length s tr s') :
    Steps (readBinary aes .on fuel offset length) s tr (.error (.panic .usizeOverflow)) s' := by
  obtain ⟨response, hcall, hover⟩ := h
  have hpanic : parseCryptogram .on response = .error (.panic .usizeOverflow) :=
    overflows_parseCryptogram_iff.mpr hover
  refine steps_bind.mpr (.inr ⟨tr, response, s', [], (List.append_nil tr).symm, hcall, ?_⟩)
  refine steps_get_bind.mpr (steps_liftRun.mpr ⟨rfl, ?_, rfl⟩)
  rw [hpanic]
  rfl

/-! ### The reader of a file -/

theorem not_overflows_selectEf {id : UInt16} {out : Run Unit}
    (h : Steps (selectEf aes .on fuel id) s tr out s') : ¬ Overflows out := by
  intro hover
  rcases steps_bind.mp (steps_get_bind.mp h) with ⟨stop, rfl, hstop⟩ | ⟨tr₁, d, s₁, tr₂, -, -, h₂⟩
  · exact not_overflows_call hstop (congrArg Except.error (Except.error.inj hover))
  · obtain ⟨-, rfl, -⟩ := steps_pure.mp h₂
    cases hover

/-- The loop of `read_ef` for an object of `total` bytes, from the session `s` with `out` read,
comes to read on with `out'` read, in the session `s'`. -/
inductive LoopReaches (aes : Aes128) (fuel total : ℕ) :
    SecureSession → Bytes → Trace Sent Answer → SecureSession → Bytes → Prop
  | here (s : SecureSession) (out : Bytes) (hmore : out.length < total)
      (hoffset : out.length ≤ 0xFFFF) : LoopReaches aes fuel total s out [] s out
  | more {s s₁ s' : SecureSession} {out chunk out' : Bytes} {tr₁ tr₂ : Trace Sent Answer}
      (hmore : out.length < total) (hoffset : out.length ≤ 0xFFFF)
      (hread : Steps (readBinary aes .on fuel (UInt16.ofNat out.length) (want total out)) s tr₁
        (.ok chunk) s₁)
      (hchunk : chunk ≠ []) (hrest : LoopReaches aes fuel total s₁ (out ++ chunk) tr₂ s' out') :
      LoopReaches aes fuel total s out (tr₁ ++ tr₂) s' out'

theorem LoopReaches.lt {total : ℕ} {out out' : Bytes}
    (h : LoopReaches aes fuel total s out tr s' out') : out.length < total := by
  cases h <;> assumption

/-- The loop comes to read on, and is answered with an overlong response object. -/
def LoopOverlong (aes : Aes128) (fuel total : ℕ) (s : SecureSession) (out : Bytes)
    (tr : Trace Sent Answer) (s' : SecureSession) : Prop :=
  ∃ tr₁ tr₂ s₁ out', tr = tr₁ ++ tr₂ ∧ LoopReaches aes fuel total s out tr₁ s₁ out' ∧
    ResponseOverlong fuel (UInt16.ofNat out'.length) (want total out') s₁ tr₂ s'

theorem readEfLoop_overflow {total : ℕ} {s s' : SecureSession} {tr : Trace Sent Answer}
    {out : Bytes} {res : Run Bytes} (h : Steps (readEfLoop aes .on fuel total out) s tr res s')
    (hover : Overflows res) :
    LoopOverlong aes fuel total s out tr s' := by
  by_cases hmore : out.length < total
  · by_cases hoffset : out.length ≤ 0xFFFF
    · rw [readEfLoop_step .on fuel hmore hoffset] at h
      rcases steps_bind.mp h with ⟨stop, rfl, hstop⟩ | ⟨tr₁, chunk, s₁, tr₂, rfl, h₁, h₂⟩
      · have hread := (readBinary_overflow hstop).mp (congrArg Except.error (Except.error.inj hover))
        exact ⟨[], tr, s, out, rfl, .here s out hmore hoffset, hread⟩
      · split at h₂
        · obtain ⟨-, rfl, -⟩ := steps_pure.mp h₂
          cases hover
        · rename_i hchunk
          obtain ⟨tr₃, tr₄, s₂, out', rfl, hreach, hresponse⟩ := readEfLoop_overflow h₂ hover
          exact ⟨tr₁ ++ tr₃, tr₄, s₂, out', (List.append_assoc _ _ _).symm,
            .more hmore hoffset h₁ hchunk hreach, hresponse⟩
    · rw [readEfLoop_refused .on fuel hmore hoffset] at h
      obtain ⟨-, rfl, -⟩ := steps_throw.mp h
      cases hover
  · rw [readEfLoop_done .on fuel hmore] at h
    obtain ⟨-, rfl, -⟩ := steps_pure.mp h
    cases hover
termination_by total - out.length
decreasing_by
  have := List.length_pos_iff.mpr ‹¬ chunk = []›
  rw [List.length_append]
  omega

theorem readEfLoop_of_overlong {total : ℕ} {out out' : Bytes} {s₁ : SecureSession}
    {tr₁ tr₂ : Trace Sent Answer} (hreach : LoopReaches aes fuel total s out tr₁ s₁ out')
    (hresponse : ResponseOverlong fuel (UInt16.ofNat out'.length) (want total out') s₁ tr₂ s') :
    Steps (readEfLoop aes .on fuel total out) s (tr₁ ++ tr₂) (.error (.panic .usizeOverflow)) s' := by
  induction hreach with
  | here s out hmore hoffset =>
    rw [readEfLoop_step .on fuel hmore hoffset]
    exact steps_bind.mpr (.inl ⟨_, rfl, readBinary_of_responseOverlong hresponse⟩)
  | @more s s₁ s' out chunk out' tr₁ tr₂ hmore hoffset hread hchunk _ ih =>
    rw [readEfLoop_step .on fuel hmore hoffset]
    refine steps_bind.mpr (.inr ⟨tr₁, chunk, s₁, _, List.append_assoc _ _ _, hread, ?_⟩)
    rw [if_neg hchunk]
    exact ih hresponse

theorem sameUnlessPanic_readEfLoop (aes : Aes128) (fuel total : ℕ) (out : Bytes) :
    SameUnlessPanic fun oc => readEfLoop aes oc fuel total out := by
  by_cases hmore : out.length < total
  · by_cases hoffset : out.length ≤ 0xFFFF
    · simp only [readEfLoop_step _ fuel hmore hoffset]
      refine (sameUnlessPanic_readBinary aes fuel _ _).bind fun chunk => ?_
      split
      · exact .const _
      · exact sameUnlessPanic_readEfLoop aes fuel total (out ++ chunk)
    · simp only [readEfLoop_refused _ fuel hmore hoffset]
      exact .const _
  · simp only [readEfLoop_done _ fuel hmore]
    exact .const _
termination_by total - out.length
decreasing_by
  have := List.length_pos_iff.mpr ‹¬ chunk = []›
  rw [List.length_append]
  omega

/-- The run of `read_ef` comes to an overlong header: of the response to its first read, of the
file, or of the response to a read of its loop. -/
inductive ReadsOverlong (aes : Aes128) (fuel : ℕ) (id : UInt16) (s : SecureSession) :
    Trace Sent Answer → SecureSession → Prop
  | response {tr₁ tr₂ : Trace Sent Answer} {s₁ s' : SecureSession}
      (hselect : Steps (selectEf aes .on fuel id) s tr₁ (.ok ()) s₁)
      (hresponse : ResponseOverlong fuel 0 0 s₁ tr₂ s') : ReadsOverlong aes fuel id s (tr₁ ++ tr₂) s'
  | file {tr : Trace Sent Answer} {s' : SecureSession} {file : Bytes}
      (hfile : Steps (readEfPhysical aes .on fuel id) s tr (.ok file) s') (hover : Overlong file) :
      ReadsOverlong aes fuel id s tr s'
  | loop {tr₁ tr₂ : Trace Sent Answer} {s₁ s' : SecureSession} {file : Bytes} {header : Header}
      {total : ℕ} (hfile : Steps (readEfPhysical aes .on fuel id) s tr₁ (.ok file) s₁)
      (hheader : parseHeader file = .ok header) (htotal : header.totalLen .on = .ok total)
      (hloop : LoopOverlong aes fuel total s₁ file tr₂ s') : ReadsOverlong aes fuel id s (tr₁ ++ tr₂) s'

theorem readEfPhysical_overflow {id : UInt16} {out : Run Bytes}
    (h : Steps (readEfPhysical aes .on fuel id) s tr out s') (hover : Overflows out) :
    ReadsOverlong aes fuel id s tr s' := by
  rcases steps_bind.mp h with ⟨stop, rfl, hstop⟩ | ⟨tr₁, u, s₁, tr₂, rfl, h₁, h₂⟩
  · exact absurd (congrArg Except.error (Except.error.inj hover)) (not_overflows_selectEf hstop)
  · exact .response h₁ ((readBinary_overflow h₂).mp hover)

theorem readEf_of_readsOverlong {id : UInt16} (h : ReadsOverlong aes fuel id s tr s') :
    Steps (readEf aes .on fuel id) s tr (.error (.panic .usizeOverflow)) s' := by
  cases h with
  | response hselect hresponse =>
    refine steps_bind.mpr (.inl ⟨_, rfl, ?_⟩)
    exact steps_bind.mpr (.inr ⟨_, (), _, _, rfl, hselect, readBinary_of_responseOverlong hresponse⟩)
  | @file tr s' file hfile hover =>
    refine steps_bind.mpr (.inr ⟨tr, file, s', [], (List.append_nil tr).symm, hfile, ?_⟩)
    obtain ⟨header, hparse, -⟩ := overlong_iff.mp hover
    have hpanic : header.totalLen .on = .error (.panic .usizeOverflow) :=
      (overflows_totalLen_iff hparse).mpr hover
    have hne : file ≠ [] := by
      intro hnil
      rw [hnil] at hparse
      cases hparse
    rw [readEfOn, if_neg hne, hparse]
    exact steps_bind.mpr (.inl ⟨_, rfl, steps_liftRun.mpr ⟨rfl, hpanic.symm, rfl⟩⟩)
  | @loop tr₁ tr₂ s₁ s' file header total hfile hparse htotal hloop =>
    obtain ⟨tr₃, tr₄, s₂, out', rfl, hreach, hresponse⟩ := hloop
    refine steps_bind.mpr (.inr ⟨tr₁, file, s₁, tr₃ ++ tr₄, rfl, hfile, ?_⟩)
    have hne : file ≠ [] := by
      intro hnil
      rw [hnil] at hparse
      cases hparse
    have hlt := hreach.lt
    rw [readEfOn, if_neg hne, hparse]
    refine steps_bind.mpr (.inr ⟨[], total, s₁, tr₃ ++ tr₄, rfl,
      steps_liftRun.mpr ⟨rfl, htotal.symm, rfl⟩, ?_⟩)
    rw [if_neg (by omega)]
    exact readEfLoop_of_overlong hreach hresponse

theorem sameUnlessPanic_readEf (aes : Aes128) (fuel : ℕ) (id : UInt16) :
    SameUnlessPanic fun oc => readEf aes oc fuel id := by
  have hselect : SameUnlessPanic fun oc => selectEf aes oc fuel id :=
    SameUnlessPanic.bind (.const get) fun s =>
      (sameUnlessPanic_call fuel _).bind fun _ => .const _
  have hphysical : SameUnlessPanic fun oc => readEfPhysical aes oc fuel id :=
    hselect.bind fun _ => sameUnlessPanic_readBinary aes fuel 0 0
  refine hphysical.bind fun out => ?_
  unfold readEfOn
  split
  · exact .const _
  · split
    · refine (SameUnlessPanic.liftRun (onlyPanics_totalLen _)).bind fun total => ?_
      split
      · exact .const _
      · exact sameUnlessPanic_readEfLoop aes fuel total out
    · exact .const _

/-- Reading a file under secure messaging overflows exactly when it comes to an overlong header,
and a run that does not end in a panic is a run of either build. -/
theorem readEf_overflow {id : UInt16} {out : Run Bytes}
    (h : Steps (readEf aes .on fuel id) s tr out s') :
    (Overflows out ↔ ReadsOverlong aes fuel id s tr s') ∧
      ((∀ why, out ≠ .error (.panic why)) → Steps (readEf aes .off fuel id) s tr out s') := by
  refine ⟨⟨?_, ?_⟩, sameUnlessPanic_readEf aes fuel id s tr out s' h⟩
  · intro hover
    rcases steps_bind.mp h with ⟨stop, rfl, hstop⟩ | ⟨tr₁, file, s₁, tr₂, rfl, h₁, h₂⟩
    · exact readEfPhysical_overflow hstop (congrArg Except.error (Except.error.inj hover))
    · unfold readEfOn at h₂
      split at h₂
      · obtain ⟨-, rfl, -⟩ := steps_pure.mp h₂
        cases hover
      split at h₂
      · rename_i header hparse
        rcases steps_bind.mp h₂ with ⟨stop, rfl, hstop⟩ | ⟨tr₃, total, s₂, tr₄, rfl, h₃, h₄⟩
        · obtain ⟨rfl, htotal, rfl⟩ := steps_liftRun.mp hstop
          rw [List.append_nil]
          refine .file h₁ ((overflows_totalLen_iff hparse).mp ?_)
          rw [← htotal]
          exact congrArg Except.error (Except.error.inj hover)
        · obtain ⟨rfl, htotal, rfl⟩ := steps_liftRun.mp h₃
          split at h₄
          · obtain ⟨-, rfl, -⟩ := steps_pure.mp h₄
            cases hover
          · exact .loop h₁ hparse htotal.symm (readEfLoop_overflow h₄ hover)
      · obtain ⟨-, rfl, -⟩ := steps_pure.mp h₂
        cases hover
  · intro hreads
    exact (steps_unique h (readEf_of_readsOverlong hreads)).1

end SecureSession

/-! ### All the readers -/

/-- **No sum of lengths overflows exactly when no header that is added up is overlong.** For the
readers of byte strings this is about their argument; for the two readers of files it is about a run:
a run of the checked build, which is then also a run of the unchecked one. -/
theorem no_overflow_iff (data : Bytes) (fuel : ℕ) :
    ((∀ h, parseHeader data = .ok h → h.headerLen + h.length < usizeSize) ↔ ¬ Overlong data) ∧
    (∀ h, parseHeader data = .ok h →
      (NoOverflow (fun oc => h.totalLen oc) ↔ ¬ Overlong data)) ∧
    (NoOverflow (fun oc => Ber.parse oc data) ↔ ¬ Overlong data) ∧
    ((¬ ItemOverflows (iter .on data) ∧ iter .off data = iter .on data) ↔ ¬ OverlongIn data) ∧
    (∀ tag table, NoOverflow (fun oc => TlvFields.parse oc data tag table) ↔
      ¬ OverlongFile tag data) ∧
    (NoOverflow (fun oc => Text.Attributes.parse oc data) ↔ ¬ OverlongFile 0xFF20 data) ∧
    (NoOverflow (fun oc => Text.Attributes.digestSource oc data) ↔ ¬ OverlongTable data) ∧
    (∀ (pf : Platform) tr out, Path (Card.readBinaryAll (pf.withChecks .on) fuel).run tr out →
      ((¬ Overflows out ∧ Path (Card.readBinaryAll (pf.withChecks .off) fuel).run tr out) ↔
        ¬ Card.FirstChunkOverlong fuel tr)) ∧
    (∀ aes id s tr out s', Steps (SecureSession.readEf aes .on fuel id) s tr out s' →
      (¬ Overflows out ↔ ¬ SecureSession.ReadsOverlong aes fuel id s tr s') ∧
      ((∀ why, out ≠ .error (.panic why)) →
        Steps (SecureSession.readEf aes .off fuel id) s tr out s')) := by
  refine ⟨?_, ?_, ?_, ?_, noOverflow_tlvFields_iff data, noOverflow_attributes_iff data,
    noOverflow_digestSource_iff data, ?_, ?_⟩
  · rw [overlong_iff]
    push Not
    rfl
  · intro h hparse
    rw [(onlyPanics_totalLen h).noOverflow_iff, overflows_totalLen_iff hparse]
  · rw [(onlyPanics_parse data).noOverflow_iff, overflows_parse_iff]
  · obtain ⟨hiff, hsame⟩ := iter_overflow data
    constructor
    · intro h
      rw [← hiff]
      exact h.1
    · intro h
      exact ⟨mt hiff.mp h, hsame h⟩
  · intro pf tr out h
    obtain ⟨hiff, hsame⟩ := Card.readBinaryAll_overflow h
    rw [← hiff]
    exact ⟨And.left, fun hno => ⟨hno, hsame hno⟩⟩
  · intro aes id s tr out s' h
    obtain ⟨hiff, hsame⟩ := SecureSession.readEf_overflow h
    exact ⟨not_congr hiff, hsame⟩

/-- A header of ten bytes that declares `2^64 - 1` more. -/
def overlongHeader : Bytes := [0x30, 0x88, 0xFF, 0xFF, 0xFF, 0xFF, 0xFF, 0xFF, 0xFF, 0xFF]

/-- The header parser accepts it and the sum does not fit: a checked build panics when it parses
the object, and an unchecked one that reads such a file gives back its first nine bytes. -/
theorem overlongHeader_overflows :
    parseHeader overlongHeader = .ok ⟨0x30, 2 ^ 64 - 1, 10⟩ ∧
      ¬ (10 + (2 ^ 64 - 1) < usizeSize) ∧
      Overflows (Ber.parse .on overlongHeader) ∧
      (Card.readBinaryAll (Platform.checked.withChecks .off) 0).run.run MockTransport.transmit
          (.new [overlongHeader ++ [0x90, 0x00]]) =
        (.ok (overlongHeader.take 9), ⟨[], [[0x00, 0xB0, 0x00, 0x00, 0x00]]⟩) := by
  refine ⟨by decide +kernel, by decide, ?_, by rfl⟩
  rw [overflows_parse_iff]
  exact ⟨[0x30], 0xFF, [], .single 0x30 (by decide), by decide, by decide⟩

end MynaCard
