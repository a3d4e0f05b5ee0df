import MynaCard.SessionExchange

/-!
# The counters of the session and the card

The card counts the secure APDUs it receives, and the session counts its own calls. In every run of
operations the two stay in step, as long as a secure APDU is never sent twice and a call that
reached the card returns (`counters_in_step`). A `6Cxx` to a secure APDU breaks the first: the call
below sends the command once more, for a card that is one further on. A `6100` breaks the second.
-/

namespace MynaCard

open Dialogue

/-! ### What an APDU carries -/

/-- The APDU is a secure command whose data field is `plaintext`, encrypted for the counter. -/
def Carries (aes : Aes128) (key : Block) (q : Sent) (plaintext : Bytes) : Prop :=
  ∃ isoCase c, isoDecode q.apdu = some (isoCase, c) ∧ c.cla = Cla.smWithoutIntegrity ∧
    c.data = cryptogramObject (aes.encrypt key q.counter plaintext)

section Carries

variable {aes : Aes128} {key : Block}

theorem carries_encoding {c : Command} (hv : c.Valid) {n : UInt32} {plaintext : Bytes} :
    Carries aes key ⟨c.encoding, n⟩ plaintext ↔
      c.cla = Cla.smWithoutIntegrity ∧
        c.data = cryptogramObject (aes.encrypt key n plaintext) := by
  have hdecode := Command.isoDecode_encoding hv
  constructor
  · intro h
    obtain ⟨isoCase, c', hc', h⟩ := h
    rw [hdecode, Option.some.injEq, Prod.mk.injEq] at hc'
    obtain ⟨-, rfl⟩ := hc'
    exact h
  · intro h
    exact ⟨_, c, hdecode, h⟩

theorem not_carries_getResponse (available : UInt8) (n : UInt32) (m : Bytes) :
    ¬ Carries aes key ⟨(Card.getResponse available).encoding, n⟩ m := by
  intro h
  obtain ⟨isoCase, c, hc, hcla, -⟩ := h
  rw [Card.getResponse_encoding, isoDecode, Option.some.injEq, Prod.mk.injEq] at hc
  obtain ⟨-, rfl⟩ := hc
  exact absurd hcla (show ¬ (0x00 : UInt8) = Cla.smWithoutIntegrity by decide)

/-- What an APDU of a call carries is in the data field of the call's command. -/
theorem data_of_carries {c : Command} (hv : c.Valid) {apdu : Bytes} (hfrom : Card.FromCall c apdu)
    {n : UInt32} {m : Bytes} (h : Carries aes key ⟨apdu, n⟩ m) :
    c.data = cryptogramObject (aes.encrypt key n m) := by
  rcases hfrom with rfl | ⟨le, rfl⟩ | ⟨available, rfl⟩
  · exact ((carries_encoding hv).mp h).2
  · exact ((carries_encoding (Card.retry_valid hv le)).mp h).2
  · exact absurd h (not_carries_getResponse available n m)

end Carries

/-- A command of a session carries a plaintext for the session's counter, or is a READ BINARY. -/
theorem SessionCommand.encrypted_or_read {aes : Aes128} {s : SecureSession} {c : Command}
    (h : SessionCommand aes s c) :
    (c.ins ≠ Ins.readBinary ∧ ∃ m, c.data = cryptogramObject (aes.encrypt s.key s.counter m)) ∨
      (c.ins = Ins.readBinary ∧ ∀ m, c.data ≠ cryptogramObject m) := by
  cases h with
  | verify sfi value => exact .inl ⟨show Ins.verify ≠ Ins.readBinary by decide, value.bytes, rfl⟩
  | selectEf id => exact .inl ⟨show Ins.selectFile ≠ Ins.readBinary by decide, u16Bytes id, rfl⟩
  | readBinary offset length =>
    refine .inr ⟨rfl, ?_⟩
    intro m hm
    exact absurd (List.cons.inj hm).1 (by decide)

/-- Every secure APDU of a call of an encrypted command is encrypted. -/
theorem isEncrypted_of_fromCall {c : Command} (hcla : c.cla = Cla.smWithoutIntegrity)
    (hins : c.ins ≠ Ins.readBinary) {apdu : Bytes} (h : Card.FromCall c apdu) {n : UInt32}
    (hsecure : (Sent.mk apdu n).isSecure = true) : (Sent.mk apdu n).isEncrypted = true := by
  rcases h with rfl | ⟨le, rfl⟩ | ⟨available, rfl⟩
  · rw [Sent.isEncrypted_encoding]
    simp [hcla, hins]
  · rw [Sent.isEncrypted_encoding]
    simp [Card.retry, hcla, hins]
  · rw [Sent.isSecure_getResponse] at hsecure
    cases hsecure

/-- No secure APDU of a call of a READ BINARY is encrypted. -/
theorem not_isEncrypted_of_fromCall {c : Command} (hins : c.ins = Ins.readBinary) {apdu : Bytes}
    (h : Card.FromCall c apdu) (n : UInt32) : (Sent.mk apdu n).isEncrypted = false := by
  rcases h with rfl | ⟨le, rfl⟩ | ⟨available, rfl⟩
  · rw [Sent.isEncrypted_encoding]
    simp [hins]
  · rw [Sent.isEncrypted_encoding]
    simp [Card.retry, hins]
  · rw [Sent.isEncrypted, Sent.isSecure_getResponse, Bool.false_and]

/-- An encrypted APDU of a call carries what its command carries. -/
theorem carries_of_isEncrypted {aes : Aes128} {key : Block} {c : Command} (hv : c.Valid)
    (hcla : c.cla = Cla.smWithoutIntegrity) {apdu : Bytes} (h : Card.FromCall c apdu) {n : UInt32}
    {m : Bytes} (hdata : c.data = cryptogramObject (aes.encrypt key n m))
    (hencrypted : (Sent.mk apdu n).isEncrypted = true) : Carries aes key ⟨apdu, n⟩ m := by
  rcases h with rfl | ⟨le, rfl⟩ | ⟨available, rfl⟩
  · exact (carries_encoding hv).mpr ⟨hcla, hdata⟩
  · exact (carries_encoding (Card.retry_valid hv le)).mpr ⟨hcla, hdata⟩
  · rw [Sent.isEncrypted, Sent.isSecure_getResponse, Bool.false_and] at hencrypted
    cases hencrypted

/-! ### The card's counter -/

/-- The counter of a card that was at 1 and has received the APDUs of a trace. -/
def cardCounter (tr : Trace Sent Answer) : ℕ := 1 + tr.countP fun e => e.1.isSecure

theorem cardCounter_append (tr₁ tr₂ : Trace Sent Answer) :
    cardCounter (tr₁ ++ tr₂) = cardCounter tr₁ + tr₂.countP fun e => e.1.isSecure := by
  rw [cardCounter, List.countP_append, ← Nat.add_assoc, cardCounter]

/-- The session has the key, and is at the card's counter. -/
def InStep (key : Block) (s : SecureSession) (past : Trace Sent Answer) : Prop :=
  s.key = key ∧ s.counter.toNat = cardCounter past

/-- The APDU is for the counter `n`: the session is at it, and what is encrypted in the APDU is
encrypted for it. -/
def BuiltFor (aes : Aes128) (key : Block) (n : ℕ) (q : Sent) : Prop :=
  q.counter.toNat = n ∧ (q.isEncrypted = true → ∃ m, Carries aes key q m)

/-- Every secure APDU is built for the counter the card is at, if every answer can be gone on from,
no secure APDU is asked for again, and an unchecked build does not run out of counters. -/
def counterMonitor (aes : Aes128) (oc : OverflowChecks) (key : Block) :
    Monitor (Trace Sent Answer) Sent Answer :=
  .ofHistory (fun past q => q.isSecure = true → BuiltFor aes key (cardCounter past) q)
    fun past q a => Card.Workable a ∧ (q.isSecure = true → Card.correctLeOf a = none) ∧
      (oc = .off → q.isSecure = true → cardCounter past < 2 ^ 32 - 1)

/-- A counter that does not wrap. -/
theorem toNat_succ_counter {n : UInt32} (h : n.toNat < 2 ^ 32 - 1) :
    (n + 1).toNat = n.toNat + 1 := by
  rw [UInt32.toNat_add, UInt32.toNat_one]
  omega

/-- After a command that is not asked for again a call sends no secure APDU. -/
theorem call_secure_once {aes : Aes128} {fuel : ℕ} {s : SecureSession} {c : Command}
    (hc : SessionCommand aes s c) {tr : Trace Bytes Answer} {r : Run Response}
    (hpath : Path (Card.call fuel c).run tr r)
    (hresend : ∀ a rest, tr = (c.encoding, a) :: rest → Card.correctLeOf a = none) :
    ∃ a rest, tr = (c.encoding, a) :: rest ∧
      ∀ e ∈ labelled s.counter rest, e.1.isSecure = false := by
  obtain ⟨a, rest, rfl, hrest⟩ := Card.call_transmits hc.valid hpath
  refine ⟨a, rest, rfl, ?_⟩
  obtain ⟨-, hrest⟩ | ⟨le, b, rest', hle, -⟩ := hrest
  · exact labelled_not_secure hrest
  · rw [hresend a rest rfl] at hle
    cases hle

theorem cardCounter_secure_once {past rest : Trace Sent Answer} {e : Sent × Answer}
    (hsecure : e.1.isSecure = true) (hplain : ∀ f ∈ rest, f.1.isSecure = false) :
    cardCounter (past ++ e :: rest) = cardCounter past + 1 := by
  rw [cardCounter_append, List.countP_cons_of_pos (by exact hsecure),
    List.countP_eq_zero.mpr (by simpa using hplain)]

/-- The command of a session that is in step is built for the card's counter. -/
theorem SessionCommand.builtFor {aes : Aes128} {key : Block} {s : SecureSession} {c : Command}
    {past : Trace Sent Answer} (hc : SessionCommand aes s c) (hI : InStep key s past) :
    BuiltFor aes key (cardCounter past) ⟨c.encoding, s.counter⟩ := by
  refine ⟨hI.2, ?_⟩
  intro hencrypted
  rcases hc.encrypted_or_read with ⟨-, m, hdata⟩ | ⟨hread, -⟩
  · rw [hI.1] at hdata
    exact ⟨m, (carries_encoding hc.valid).mpr ⟨hc.cla_eq, hdata⟩⟩
  · rw [not_isEncrypted_of_fromCall hread (.inl rfl)] at hencrypted
    cases hencrypted

/-- Traffic with no secure APDU behind the first is safe, if the session is in step at the first. -/
theorem counterMonitor_safe {aes : Aes128} {oc : OverflowChecks} {key : Block} {s : SecureSession}
    {past : Trace Sent Answer} {e : Bytes × Answer} {rest : Trace Bytes Answer}
    (hbuilt : BuiltFor aes key (cardCounter past) ⟨e.1, s.counter⟩)
    (hplain : ∀ f ∈ labelled s.counter rest, f.1.isSecure = false) :
    (counterMonitor aes oc key).Safe past (labelled s.counter (e :: rest)) := by
  refine (Monitor.ofHistory_safe _ _).mpr ?_
  intro tr₁ q b tr₂ htr hq
  rw [labelled_cons] at htr
  cases tr₁ with
  | nil =>
    obtain ⟨heq, -⟩ := List.cons.inj htr
    obtain ⟨rfl, -⟩ := Prod.mk.inj heq
    rw [List.append_nil]
    exact hbuilt
  | cons f tr₁ =>
    have hmem : (q, b) ∈ labelled s.counter rest := by
      rw [(List.cons.inj htr).2]
      simp
    exact absurd hq (by simp [hplain _ hmem])

theorem call_inStep {aes : Aes128} {oc : OverflowChecks} {key : Block} {fuel : ℕ}
    {s : SecureSession} {c : Command} (hc : SessionCommand aes s c) :
    Keeps (counterMonitor aes oc key) (InStep key) s (SecureSession.call oc fuel c) := by
  intro past tr out s' hI hsteps hassume
  rcases call_steps hsteps with ⟨-, rfl, -, rfl⟩ | ⟨-, tr', r, rfl, hpath, hr⟩
  · exact ⟨trivial, fun _ => hI⟩
  have hassume := (Monitor.ofHistory_assumed _ _).mp hassume
  have hworkable : ∀ e ∈ tr', Card.Workable e.2 := by
    intro e he
    obtain ⟨tr₁, tr₂, rfl⟩ := List.append_of_mem he
    exact (hassume (labelled s.counter tr₁) (Sent.mk e.1 s.counter) e.2 (labelled s.counter tr₂)
      (by simp)).1
  have hfirst : ∀ a rest, tr' = (c.encoding, a) :: rest →
      ((Sent.mk c.encoding s.counter).isSecure = true → Card.correctLeOf a = none) ∧
        (oc = .off → (Sent.mk c.encoding s.counter).isSecure = true →
          cardCounter past < 2 ^ 32 - 1) := by
    intro a rest htr
    have hthis := hassume [] (Sent.mk c.encoding s.counter) a (labelled s.counter rest)
      (by rw [htr]; rfl)
    rw [List.append_nil] at hthis
    exact hthis.2
  have hsecure := hc.isSecure s.counter
  obtain ⟨a, rest, rfl, hplain⟩ := call_secure_once hc hpath fun a rest htr =>
    (hfirst a rest htr).1 hsecure
  have hfirst := hfirst a rest rfl
  refine ⟨counterMonitor_safe (hc.builtFor hI) hplain, ?_⟩
  · intro hreturned
    rw [counterMonitor, Monitor.ofHistory_after]
    rcases hr with ⟨stop, rfl, rfl, rfl⟩ | ⟨response, rfl, ⟨rfl, -⟩ | ⟨hoc, rfl, rfl⟩⟩
    · exact absurd hreturned (not_returned_of_workable hc.valid hpath hworkable)
    · exact absurd hreturned (not_returned_panic _)
    · have hlt : s.counter.toNat < 2 ^ 32 - 1 := by
        rcases hoc with hoff | hlt
        · have := hfirst.2 hoff hsecure
          have := hI.2
          omega
        · exact hlt
      refine ⟨hI.1, Eq.trans ?_ (cardCounter_secure_once hsecure hplain).symm⟩
      show (s.counter + 1).toNat = _
      rw [toNat_succ_counter hlt, hI.2]

/-- In a part of the exchange, what a READ BINARY is answered is decrypted for the counter the card
was at when it received the command. -/
def DecryptedInStep (aes : Aes128) (oc : OverflowChecks) (fuel : ℕ) (key : Block)
    (tr : Trace Sent Answer) : Prop :=
  ∀ tr₁ tr₂ tr₃ offset length s response out s₂, tr = tr₁ ++ (tr₂ ++ tr₃) → s.key = key →
    Steps (SecureSession.call oc fuel (SecureSession.readBinaryCommand offset length)) s tr₂
      (.ok response) s₂ →
    Steps (SecureSession.readBinary aes oc fuel offset length) s tr₂ out s₂ →
    out = (parseCryptogram oc response >>= aes.decrypt key (UInt32.ofNat (cardCounter tr₁)))

/-- Each secure APDU of the run reaches the card while the card is at the counter it was built for,
the answer to each READ BINARY is decrypted for that counter too, and if the run ends the session is
at the card's counter. -/
structure CountersInStep (aes : Aes128) (oc : OverflowChecks) (fuel : ℕ) (key : Block)
    (tr : Trace Sent Answer) (out : Run Unit) (s' : SecureSession) : Prop where
  built : ∀ tr₁ q a tr₂, tr = tr₁ ++ (q, a) :: tr₂ → q.isSecure = true →
    BuiltFor aes key (cardCounter tr₁) q
  decrypted : DecryptedInStep aes oc fuel key tr
  ended : out = .ok () → s'.counter.toNat = cardCounter tr

/-- A READ BINARY that is sent at the card's counter is decrypted for it. -/
theorem decryptedInStep {aes : Aes128} {oc : OverflowChecks} {fuel : ℕ} {key : Block}
    {tr : Trace Sent Answer} (hbuilt : ∀ tr₁ q a tr₂, tr = tr₁ ++ (q, a) :: tr₂ →
      q.isSecure = true → q.counter.toNat = cardCounter tr₁) :
    DecryptedInStep aes oc fuel key tr := by
  intro tr₁ tr₂ tr₃ offset length s response out s₂ htr hkey hcall hread
  have hc : SessionCommand aes s _ := .readBinary offset length
  obtain ⟨r, hcall', rfl⟩ := readBinary_steps.mp hread
  obtain ⟨rfl, -⟩ := steps_unique hcall' hcall
  rcases call_steps hcall with ⟨-, -, hout, -⟩ | ⟨-, tr', r, rfl, hpath, hr⟩
  · cases hout
  rcases hr with ⟨stop, -, hout, -⟩ | ⟨response', -, ⟨hout, -⟩ | ⟨-, -, rfl⟩⟩
  · cases hout
  · cases hout
  obtain ⟨a, rest, rfl, -⟩ := Card.call_transmits hc.valid hpath
  have hcounter : s.counter.toNat = cardCounter tr₁ :=
    hbuilt tr₁ ⟨_, s.counter⟩ a (labelled s.counter rest ++ tr₃) (by rw [htr]; rfl)
      (hc.isSecure s.counter)
  have hat : s.counter + 1 - 1 = UInt32.ofNat (cardCounter tr₁) := by
    rw [← hcounter, UInt32.ofNat_toNat, UInt32.add_sub_cancel]
  rw [← hkey, ← hat]
  rfl

/-- **The counters stay in step** in every run in which every APDU is answered by a response other
than `6100`, no secure APDU is answered `6Cxx`, and a build without overflow checks sends fewer than
`2^32 - 1` secure APDUs. A first part of a run is a run, so this is about every operation's end. -/
theorem counters_in_step (aes : Aes128) (oc : OverflowChecks) (fuel : ℕ) (key : Block)
    (ops : List SessionOperation) (tr : Trace Sent Answer) (out : Run Unit) (s' : SecureSession)
    (hrun : Steps (performAll aes oc fuel ops) (.opened key) tr out s')
    (hanswers : ∀ e ∈ tr, Card.Workable e.2)
    (hresend : ∀ e ∈ tr, e.1.isSecure = true → Card.correctLeOf e.2 = none)
    (hcount : oc = .off → (tr.countP fun e => e.1.isSecure) < 2 ^ 32 - 1) :
    CountersInStep aes oc fuel key tr out s' := by
  have hassume : (counterMonitor aes oc key).Assumed [] tr := by
    refine (Monitor.ofHistory_assumed _ _).mpr ?_
    intro tr₁ q a tr₂ htr
    have hmem : (q, a) ∈ tr := by
      rw [htr]
      simp
    refine ⟨hanswers _ hmem, hresend _ hmem, ?_⟩
    intro hoff hq
    have hlt := hcount hoff
    rw [htr, List.countP_append, List.countP_cons_of_pos (by exact hq)] at hlt
    rw [List.nil_append, cardCounter]
    omega
  obtain ⟨hsafe, hpost⟩ := performAll_keeps (fun s c hc => call_inStep hc) ops (.opened key) []
    tr out s' ⟨rfl, rfl⟩ hrun hassume
  have hbuilt := (Monitor.ofHistory_safe _ _).mp hsafe
  refine ⟨hbuilt, decryptedInStep fun tr₁ q a tr₂ htr hq => (hbuilt tr₁ q a tr₂ htr hq).1, ?_⟩
  intro hout
  have hfinal := hpost (hout ▸ returned_ok ())
  rw [counterMonitor, Monitor.ofHistory_after] at hfinal
  exact hfinal.2

/-! ### Two runs -/

/-- The PIN `1234`. -/
theorem printable_1234 : ∀ b ∈ ([0x31, 0x32, 0x33, 0x34] : Bytes), 0x20 ≤ b ∧ b < 0x7F :=
  Pin.printable_of_digits (by decide)

def pin1234 : Pin := ⟨[0x31, 0x32, 0x33, 0x34], by decide, by decide, printable_1234⟩

/-- The first VERIFY of a session under the key of zeros, with `pin1234`. -/
def firstVerify : Sent :=
  ⟨[0x08, 0x20, 0x00, 0x91, 0x13, 0x86, 0x11, 0x01, 0xE9, 0x3D, 0xF6, 0x36, 0x98, 0x5A, 0xDE, 0xB7,
    0xC8, 0xFA, 0xF4, 0x3C, 0xF6, 0xBD, 0x04, 0x95], 1⟩

/-- A READ BINARY of two bytes after it. -/
def secondRead : Sent :=
  ⟨[0x08, 0xB0, 0x00, 0x00, 0x00, 0x00, 0x05, 0x96, 0x03, 0x00, 0x00, 0x02, 0x00, 0x00], 2⟩

/-- The bytes `12`, encrypted for the counter 2. -/
def secondAnswer : Bytes :=
  [0x86, 0x11, 0x01, 0x9B, 0xDD, 0xBF, 0x80, 0x5C, 0x9A, 0x17, 0x18, 0x99, 0x5E, 0x5C, 0xFF, 0x7B,
    0xD9, 0x6F, 0x17, 0x90, 0x00]

/-- A VERIFY and a READ BINARY, each answered with `9000`. -/
def verifyThenRead : Trace Sent Answer :=
  [(firstVerify, .ok [0x90, 0x00]), (secondRead, .ok secondAnswer)]

theorem counters_in_step_verifyThenRead :
    Steps (performAll aes128 .on 0 [.verify 0x0011 pin1234, .readBinary 0 2]) (.opened Block.zero)
        verifyThenRead (.ok ()) ⟨Block.zero, 3, false⟩ ∧
      CountersInStep aes128 .on 0 Block.zero verifyThenRead (.ok ()) ⟨Block.zero, 3, false⟩ := by
  have hrun : Steps (performAll aes128 .on 0 [.verify 0x0011 pin1234, .readBinary 0 2])
      (.opened Block.zero) verifyThenRead (.ok ()) ⟨Block.zero, 3, false⟩ :=
    path_of_replay [.ok [0x90, 0x00], .ok secondAnswer] (by decide +kernel)
  refine ⟨hrun, counters_in_step aes128 .on 0 Block.zero [.verify 0x0011 pin1234, .readBinary 0 2]
    _ _ _ hrun ?_ ?_ (by simp)⟩
  · intro e he
    rcases List.mem_pair.mp he with rfl | rfl
    · exact ⟨⟨[], .success⟩, rfl, by decide⟩
    · exact ⟨⟨secondAnswer.take 19, .success⟩, rfl, by decide⟩
  · intro e he _
    rcases List.mem_pair.mp he with rfl | rfl
    · rfl
    · rfl

/-- The bytes read are those the card encrypted. -/
example : parseCryptogram .on (secondAnswer.take 19) >>=
    aes128.decrypt Block.zero (UInt32.ofNat (cardCounter (verifyThenRead.take 1))) =
      .ok [0x31, 0x32] := by
  decide +kernel

/-- The run in which the VERIFY is answered `6C05` and, sent again, `9000`. -/
def resentVerify : Trace Sent Answer :=
  [(firstVerify, .ok [0x6C, 0x05]), (⟨firstVerify.apdu ++ [0x05], 1⟩, .ok [0x90, 0x00])]

/-- The APDU sent again reaches a card that is at 2, and after the operation the session is at 2
and the card at 3. -/
theorem resentVerify_out_of_step :
    Steps (performAll aes128 .on 0 [.verify 0x0011 pin1234]) (.opened Block.zero) resentVerify
        (.ok ()) ⟨Block.zero, 2, false⟩ ∧
      (∀ e ∈ resentVerify, ∃ r : Response, e.2 = .ok r.toBytes ∧
        isSecureMessagingError r.status = false) ∧
      cardCounter resentVerify = 3 ∧
      ¬ CountersInStep aes128 .on 0 Block.zero resentVerify (.ok ()) ⟨Block.zero, 2, false⟩ := by
  refine ⟨path_of_replay [.ok [0x6C, 0x05], .ok [0x90, 0x00]] (by decide +kernel), ?_, by decide,
    ?_⟩
  · intro e he
    rcases List.mem_cons.mp he with rfl | he
    · exact ⟨⟨[], ⟨0x6C05⟩⟩, rfl, by decide⟩
    · obtain rfl := List.mem_singleton.mp he
      exact ⟨⟨[], .success⟩, rfl, by decide⟩
  · intro h
    have hequal : (2 : UInt32).toNat = cardCounter resentVerify := h.ended rfl
    exact absurd hequal (by decide)

end MynaCard
