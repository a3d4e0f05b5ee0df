import MynaCard.SessionCounters

/-!
# A broken session

What a caller's operations send is the traffic of the secure calls they come to, one after the
other, each from the session the one before it has left: the `Exchange`s of the run. An exchange
that ends in a secure messaging error is the last there is. Every operation after it fails without a
word and leaves the session as it is. Up to it the counter counts the exchanges the card has
answered (`session_latch`).
-/

namespace MynaCard

open Dialogue

/-! ### Exchanges -/

/-- One secure call: the command, the session before and after it, what the card's call of the
command sent and was answered, and what that call returned. -/
structure Exchange where
  command : Command
  before : SecureSession
  trace : Trace Bytes Answer
  result : Run Response
  after : SecureSession

namespace Exchange

/-- The exchange as the session's traffic. -/
def traffic (e : Exchange) : Trace Sent Answer := labelled e.before.counter e.trace

/-- The exchange is one the code makes. -/
structure Made (aes : Aes128) (oc : OverflowChecks) (fuel : ℕ) (e : Exchange) : Prop where
  command : SessionCommand aes e.before e.command
  unbroken : e.before.broken = false
  path : Path (Card.call fuel e.command).run e.trace e.result
  steps : ∃ out, Steps (SecureSession.call oc fuel e.command) e.before e.traffic out e.after

/-- The card's call returned a response with a status that ends the session. -/
def Latches (e : Exchange) : Prop :=
  ∃ response, e.result = .ok response ∧ isSecureMessagingError response.status = true

/-- The counter was at least 1, a response advanced it by one, and an error left the session as it
was. -/
structure Counted (e : Exchange) : Prop where
  one_le : 1 ≤ e.before.counter.toNat
  ok : ∀ response, e.result = .ok response → e.after.counter.toNat = e.before.counter.toNat + 1
  err : ∀ error, e.result = .error (.err error) → e.after = e.before

end Exchange

/-- The exchanges lead from one session to another. -/
def Chained (aes : Aes128) (oc : OverflowChecks) (fuel : ℕ) :
    SecureSession → List Exchange → SecureSession → Prop
  | s, [], s' => s' = s
  | s, e :: es, s' => e.before = s ∧ e.Made aes oc fuel ∧ Chained aes oc fuel e.after es s'

section Chained

variable {aes : Aes128} {oc : OverflowChecks} {fuel : ℕ} {s s' : SecureSession}

theorem chained_append {es₁ es₂ : List Exchange} :
    Chained aes oc fuel s (es₁ ++ es₂) s' ↔
      ∃ s₁, Chained aes oc fuel s es₁ s₁ ∧ Chained aes oc fuel s₁ es₂ s' := by
  induction es₁ generalizing s with
  | nil =>
    constructor
    · intro h
      exact ⟨s, rfl, h⟩
    · intro h
      obtain ⟨s₁, hs₁, h⟩ := h
      exact (show s₁ = s from hs₁) ▸ h
  | cons e es₁ ih =>
    show e.before = s ∧ e.Made aes oc fuel ∧ Chained aes oc fuel e.after (es₁ ++ es₂) s' ↔ _
    rw [ih]
    constructor
    · intro h
      obtain ⟨hbefore, hmade, s₁, h₁, h₂⟩ := h
      exact ⟨s₁, ⟨hbefore, hmade, h₁⟩, h₂⟩
    · intro h
      obtain ⟨s₁, ⟨hbefore, hmade, h₁⟩, h₂⟩ := h
      exact ⟨hbefore, hmade, s₁, h₁, h₂⟩

/-- The operation comes to a list of exchanges. -/
def Exchanges (aes : Aes128) (oc : OverflowChecks) (fuel : ℕ) {α : Type} (s : SecureSession)
    (x : SessionM α) : Prop :=
  ∀ tr out s', Steps x s tr out s' → ∃ es, Chained aes oc fuel s es s' ∧
    tr = (es.map Exchange.traffic).flatten

theorem exchanges_liftRun {α : Type} (s : SecureSession) (x : Run α) :
    Exchanges aes oc fuel s (liftRun x) := by
  intro tr out s' h
  obtain ⟨rfl, -, rfl⟩ := steps_liftRun.mp h
  exact ⟨[], rfl, rfl⟩

theorem exchanges_bind {α β : Type} {x : SessionM α} {f : α → SessionM β}
    (hx : Exchanges aes oc fuel s x) (hf : ∀ a s₁, Exchanges aes oc fuel s₁ (f a)) :
    Exchanges aes oc fuel s (x >>= f) := by
  intro tr out s' h
  obtain ⟨stop, -, h⟩ | ⟨tr₁, a, s₁, tr₂, rfl, h₁, h₂⟩ := steps_bind.mp h
  · exact hx tr _ s' h
  · obtain ⟨es₁, hchained₁, rfl⟩ := hx tr₁ _ s₁ h₁
    obtain ⟨es₂, hchained₂, rfl⟩ := hf a s₁ tr₂ out s' h₂
    exact ⟨es₁ ++ es₂, chained_append.mpr ⟨s₁, hchained₁, hchained₂⟩, by simp⟩

theorem exchanges_ignoreErr {x : SessionM Unit} (hx : Exchanges aes oc fuel s x) :
    Exchanges aes oc fuel s x.ignoreErr := by
  intro tr out s' h
  obtain ⟨error, -, h⟩ | ⟨h, -⟩ := steps_ignoreErr.mp h
  · exact hx tr _ s' h
  · exact hx tr out s' h

theorem exchanges_closed :
    SessionM.Closed fun _ s x => Exchanges aes oc fuel s x where
  liftRun := exchanges_liftRun
  bind := exchanges_bind
  get_bind hf := fun tr out s' h => hf tr out s' (steps_get_bind.mp h)
  ignoreErr := exchanges_ignoreErr

/-- A secure call is one exchange, or on a broken session none. -/
theorem call_exchanges {c : Command} (hc : SessionCommand aes s c) :
    Exchanges aes oc fuel s (SecureSession.call oc fuel c) := by
  intro tr out s' h
  obtain ⟨-, rfl, -, rfl⟩ | ⟨hb, tr', r, rfl, hpath, -⟩ := call_steps h
  · exact ⟨[], rfl, rfl⟩
  · refine ⟨[⟨c, s, tr', r, s'⟩], ⟨rfl, ⟨hc, hb, hpath, out, h⟩, rfl⟩, ?_⟩
    exact (List.append_nil _).symm

/-- What a run sends is the traffic of exchanges. -/
theorem performAll_exchanges (ops : List SessionOperation) (s : SecureSession) :
    Exchanges aes oc fuel s (performAll aes oc fuel ops) :=
  exchanges_closed.performAll (fun _ _ hc => call_exchanges hc) ops s

end Chained

/-! ### What an exchange does to the session -/

theorem labelled_injective (n : UInt32) : Function.Injective (labelled n) := by
  apply List.map_injective_iff.mpr
  intro e e' h
  obtain ⟨hsent, hanswer⟩ := Prod.mk.inj h
  exact Prod.ext (Sent.mk.inj hsent).1 hanswer

section Made

variable {aes : Aes128} {oc : OverflowChecks} {fuel : ℕ} {e : Exchange}

/-- An error leaves the session, and a response advances it, unless the counter is at its end. -/
theorem Exchange.Made.effect (h : e.Made aes oc fuel) :
    (∃ stop, e.result = .error stop ∧ e.after = e.before) ∨
      ∃ response, e.result = .ok response ∧
        ((e.before.counter.toNat = 2 ^ 32 - 1) ∨ e.after = e.before.advanced response.status) := by
  obtain ⟨out, hsteps⟩ := h.steps
  obtain ⟨hb, -⟩ | ⟨-, tr', r, htr, hpath, hr⟩ := call_steps hsteps
  · rw [h.unbroken] at hb
    cases hb
  · obtain rfl := labelled_injective _ htr
    obtain rfl := path_unique h.path hpath
    obtain ⟨stop, hstop, -, hafter⟩ | ⟨response, hok, hafter⟩ := hr
    · exact .inl ⟨stop, hstop, hafter⟩
    · refine .inr ⟨response, hok, ?_⟩
      obtain ⟨-, -, hlast⟩ | ⟨-, -, hafter⟩ := hafter
      · exact .inl hlast
      · exact .inr hafter

theorem Exchange.Made.counted (h : e.Made aes oc fuel) (hpos : 1 ≤ e.before.counter.toNat)
    (hlt : e.before.counter.toNat < 2 ^ 32 - 1) : e.Counted := by
  refine ⟨hpos, ?_, ?_⟩
  · intro response hok
    obtain ⟨stop, hstop, -⟩ | ⟨response', -, hlast | hafter⟩ := h.effect
    · rw [hok] at hstop
      cases hstop
    · omega
    · rw [hafter]
      exact toNat_succ_counter hlt
  · intro error herr
    obtain ⟨stop, -, hafter⟩ | ⟨response, hok, -⟩ := h.effect
    · exact hafter
    · rw [herr] at hok
      cases hok

/-- Below its end an exchange moves the counter by at most one, and never back. -/
theorem Exchange.Made.counter_le (h : e.Made aes oc fuel)
    (hlt : e.before.counter.toNat < 2 ^ 32 - 1) :
    e.before.counter.toNat ≤ e.after.counter.toNat ∧
      e.after.counter.toNat ≤ e.before.counter.toNat + 1 := by
  obtain ⟨stop, -, hafter⟩ | ⟨response, -, hlast | hafter⟩ := h.effect
  · rw [hafter]
    omega
  · omega
  · have hsucc : e.after.counter.toNat = e.before.counter.toNat + 1 := by
      rw [hafter]
      exact toNat_succ_counter hlt
    omega

/-- An exchange that ends in a secure messaging error breaks the session. -/
theorem Exchange.Made.broken_of_latches (h : e.Made aes oc fuel) (hlatches : e.Latches)
    (hlt : e.before.counter.toNat < 2 ^ 32 - 1) : e.after.broken = true := by
  obtain ⟨response, hok, hsm⟩ := hlatches
  obtain ⟨stop, hstop, -⟩ | ⟨response', hok', hlast | hafter⟩ := h.effect
  · rw [hok] at hstop
    cases hstop
  · omega
  · obtain rfl : response = response' := Except.ok.inj (hok.symm.trans hok')
    rw [hafter]
    show (e.before.broken || isSecureMessagingError response.status) = true
    rw [hsm, Bool.or_true]

end Made

/-! ### Runs of exchanges -/

section Chained

variable {aes : Aes128} {oc : OverflowChecks} {fuel : ℕ} {s s' : SecureSession}
  {es : List Exchange}

/-- A broken session makes no exchange. -/
theorem Chained.nil_of_broken (h : Chained aes oc fuel s es s') (hb : s.broken = true) :
    es = [] ∧ s' = s := by
  cases es with
  | nil => exact ⟨rfl, h⟩
  | cons e es =>
    obtain ⟨rfl, hmade, -⟩ := h
    rw [hmade.unbroken] at hb
    cases hb

/-- While the counter has room for the exchanges it counts them, and never falls. -/
theorem Chained.counted (h : Chained aes oc fuel s es s') (hpos : 1 ≤ s.counter.toNat)
    (hroom : s.counter.toNat + es.length < 2 ^ 32) :
    (∀ e ∈ es, e.Counted ∧ e.before.counter.toNat < 2 ^ 32 - 1) ∧ 1 ≤ s'.counter.toNat := by
  induction es generalizing s with
  | nil =>
    obtain rfl : s' = s := h
    exact ⟨fun _ hmem => (nomatch hmem), hpos⟩
  | cons e es ih =>
    obtain ⟨rfl, hmade, hrest⟩ := h
    rw [List.length_cons] at hroom
    have hlt : e.before.counter.toNat < 2 ^ 32 - 1 := by omega
    obtain ⟨hle, hstep⟩ := hmade.counter_le hlt
    obtain ⟨hall, hend⟩ := ih hrest (by omega) (by omega)
    refine ⟨?_, hend⟩
    intro e' hmem
    obtain rfl | hmem := List.mem_cons.mp hmem
    · exact ⟨hmade.counted hpos hlt, hlt⟩
    · exact hall e' hmem

/-- After an exchange that breaks the session there is none, and the session it left stays. -/
theorem Chained.last_of_broken (h : Chained aes oc fuel s es s') :
    ∀ e ∈ es, e.after.broken = true → es.getLast? = some e ∧ s' = e.after := by
  induction es generalizing s with
  | nil => exact fun _ hmem => nomatch hmem
  | cons e es ih =>
    obtain ⟨rfl, hmade, hrest⟩ := h
    intro e' hmem hb
    obtain rfl | hmem := List.mem_cons.mp hmem
    · obtain ⟨rfl, rfl⟩ := hrest.nil_of_broken hb
      exact ⟨rfl, rfl⟩
    · obtain ⟨hlast, hs'⟩ := ih hrest e' hmem hb
      refine ⟨?_, hs'⟩
      rw [List.getLast?_cons, hlast]
      rfl

theorem Chained.made (h : Chained aes oc fuel s es s') : ∀ e ∈ es, e.Made aes oc fuel := by
  induction es generalizing s with
  | nil => exact fun _ hmem => nomatch hmem
  | cons e es ih =>
    obtain ⟨-, hmade, hrest⟩ := h
    intro e' hmem
    obtain rfl | hmem := List.mem_cons.mp hmem
    · exact hmade
    · exact ih hrest e' hmem

end Chained

/-! ### Operations that are refused -/

/-- From the session on the operation sends nothing, fails, and leaves the session as it is. -/
def Refused {α : Type} (s : SecureSession) (x : SessionM α) (error : Error) : Prop :=
  ∀ tr out s', Steps x s tr out s' → tr = [] ∧ out = .error (.err error) ∧ s' = s

section Refused

variable {aes : Aes128} {oc : OverflowChecks} {fuel : ℕ} {s : SecureSession} {error : Error}

/-- What is refused at its start is refused. -/
theorem Refused.bind {α β : Type} {x : SessionM α} (hx : Refused s x error)
    (f : α → SessionM β) : Refused s (x >>= f) error := by
  intro tr out s' h
  obtain ⟨stop, rfl, hfirst⟩ | ⟨tr₁, a, s₁, tr₂, -, h₁, -⟩ := steps_bind.mp h
  · obtain ⟨htr, hstop, hs'⟩ := hx tr _ s' hfirst
    obtain rfl := Except.error.inj hstop
    exact ⟨htr, rfl, hs'⟩
  · obtain ⟨-, hout, -⟩ := hx tr₁ _ s₁ h₁
    cases hout

theorem Refused.get_bind {β : Type} {f : SecureSession → SessionM β}
    (hf : Refused s (f s) error) : Refused s (get >>= f) error := by
  intro tr out s' h
  exact hf tr out s' (steps_get_bind.mp h)

theorem Refused.discard {α : Type} {x : SessionM α} (hx : Refused s x error) :
    Refused s (Functor.discard x) error := by
  rw [SessionM.discard_eq]
  exact hx.bind _

/-- `69FC`, which a broken session answers itself with. -/
def brokenError : Error := .status ⟨0x69FC⟩

theorem call_refused (hb : s.broken = true) (c : Command) :
    Refused s (SecureSession.call oc fuel c) brokenError := by
  intro tr out s' h
  obtain ⟨-, htr, hout, hs'⟩ | ⟨hb', -⟩ := call_steps h
  · exact ⟨htr, hout, hs'⟩
  · rw [hb] at hb'
    cases hb'

theorem selectEf_refused (hb : s.broken = true) (id : UInt16) :
    Refused s (SecureSession.selectEf aes oc fuel id) brokenError :=
  .get_bind ((call_refused hb _).bind _)

theorem readBinary_refused (hb : s.broken = true) (offset length : UInt16) :
    Refused s (SecureSession.readBinary aes oc fuel offset length) brokenError :=
  (call_refused hb _).bind _

theorem readEfPhysical_refused (hb : s.broken = true) (id : UInt16) :
    Refused s (SecureSession.readEfPhysical aes oc fuel id) brokenError :=
  (selectEf_refused hb id).bind _

/-- A key without a short EF identifier is refused before anything else. -/
theorem verify_refused_of_noShortEfId {key : UInt16} (value : Pin)
    (hkey : ShortEfId.fromEfId key = .error (.err error)) :
    Refused s (SecureSession.verify aes oc fuel key value) error := by
  refine Refused.bind ?_ _
  intro tr out s' h
  obtain ⟨htr, hout, hs'⟩ := steps_liftRun.mp h
  exact ⟨htr, hout.trans hkey, hs'⟩

theorem verify_refused (hb : s.broken = true) (key : UInt16) (value : Pin) :
    ∃ error, Refused s (SecureSession.verify aes oc fuel key value) error := by
  by_cases hkey : 0x0001 ≤ key.toNat ∧ key.toNat ≤ 0x001E
  · refine ⟨brokenError, ?_⟩
    intro tr out s' h
    obtain ⟨stop, rfl, hfirst⟩ | ⟨tr₁, sfi, s₁, tr₂, rfl, h₁, h₂⟩ := steps_bind.mp h
    · obtain ⟨-, hstop, -⟩ := steps_liftRun.mp hfirst
      rw [ShortEfId.fromEfId, dif_pos hkey] at hstop
      cases hstop
    · obtain ⟨rfl, -, rfl⟩ := steps_liftRun.mp h₁
      exact (call_refused hb _).bind _ tr₂ out s' (steps_get_bind.mp h₂)
  · exact ⟨_, verify_refused_of_noShortEfId value (dif_neg hkey)⟩

/-- A broken session refuses every operation. -/
theorem operation_refused (hb : s.broken = true) (op : SessionOperation) :
    ∃ error, Refused s (op.perform aes oc fuel) error := by
  cases op with
  | verify key value => exact verify_refused hb key value
  | selectEf id => exact ⟨_, selectEf_refused hb id⟩
  | readBinary offset length => exact ⟨_, (readBinary_refused hb offset length).discard⟩
  | readEf id => exact ⟨_, ((readEfPhysical_refused hb id).bind _).discard⟩
  | readEfPhysical id => exact ⟨_, (readEfPhysical_refused hb id).discard⟩

end Refused

/-! ### Decryption -/

/-- What `read_binary` gives is the call's response decrypted for the counter the session was at,
which is the counter at which everything the read sends is sent. -/
theorem readBinary_decrypts {aes : Aes128} {oc : OverflowChecks} {fuel : ℕ}
    {offset length : UInt16} {s s' : SecureSession} {tr : Trace Sent Answer} {out : Run Bytes}
    (h : Steps (SecureSession.readBinary aes oc fuel offset length) s tr out s') :
    (∀ e ∈ tr, e.1.counter = s.counter) ∧ ∃ r,
      Steps (SecureSession.call oc fuel (SecureSession.readBinaryCommand offset length)) s tr r s' ∧
        out = r.bind fun response =>
          parseCryptogram oc response >>= aes.decrypt s.key s.counter := by
  obtain ⟨r, hcall, rfl⟩ := readBinary_steps.mp h
  refine ⟨?_, r, hcall, ?_⟩
  · obtain ⟨-, rfl, -⟩ | ⟨-, tr', r', rfl, -⟩ := call_steps hcall
    · exact fun _ hmem => nomatch hmem
    · intro e hmem
      obtain ⟨x, -, rfl⟩ := mem_labelled.mp hmem
      rfl
  · cases r with
    | error stop => rfl
    | ok response =>
      obtain ⟨-, -, hout, -⟩ | ⟨-, tr', r', -, -, hr⟩ := call_steps hcall
      · cases hout
      · obtain ⟨stop, -, hout, -⟩ | ⟨answer, -, ⟨hout, -⟩ | ⟨-, -, hs'⟩⟩ := hr
        · cases hout
        · cases hout
        · have hkey : s'.key = s.key := by rw [hs']; rfl
          have hcounter : s'.counter - 1 = s.counter := by
            rw [hs']
            exact add_sub_cancel_right s.counter 1
          show (parseCryptogram oc response >>= aes.decrypt s'.key (s'.counter - 1)) = _
          rw [hkey, hcounter]
          rfl

/-- **A broken session is silent.** The traffic of every run is that of exchanges. If they are fewer
than `2^32 - 1` each is counted, and one that ends in a secure messaging error is the last, breaks
the session, and leaves the session of the end of the run. A broken session refuses every operation,
and any session refuses to verify a key without a short EF identifier. A read decrypts for the
counter its command was sent at. -/
theorem session_latch (aes : Aes128) (oc : OverflowChecks) (fuel : ℕ) :
    (∀ key ops tr out s', Steps (performAll aes oc fuel ops) (.opened key) tr out s' →
      ∃ es, Chained aes oc fuel (.opened key) es s' ∧ tr = (es.map Exchange.traffic).flatten ∧
        (es.length < 2 ^ 32 - 1 → 1 ≤ s'.counter.toNat ∧ (∀ e ∈ es, e.Counted) ∧
          ∀ e ∈ es, e.Latches →
            e.after.broken = true ∧ es.getLast? = some e ∧ s' = e.after)) ∧
    (∀ s op, s.broken = true → ∃ error, Refused s (SessionOperation.perform aes oc fuel op) error) ∧
    (∀ s key value error, ShortEfId.fromEfId key = .error (.err error) →
      Refused s (SecureSession.verify aes oc fuel key value) error) ∧
    (∀ offset length s tr out s',
      Steps (SecureSession.readBinary aes oc fuel offset length) s tr out s' →
        (∀ e ∈ tr, e.1.counter = s.counter) ∧ ∃ r,
          Steps (SecureSession.call oc fuel (SecureSession.readBinaryCommand offset length))
              s tr r s' ∧
            out = r.bind fun response =>
              parseCryptogram oc response >>= aes.decrypt s.key s.counter) := by
  refine ⟨?_, fun _ op hb => operation_refused hb op, ?_, ?_⟩
  · intro key ops tr out s' hrun
    obtain ⟨es, hchained, htr⟩ := performAll_exchanges ops _ tr out s' hrun
    refine ⟨es, hchained, htr, ?_⟩
    intro hroom
    have hone : (SecureSession.opened key).counter.toNat = 1 := rfl
    obtain ⟨hall, hend⟩ := hchained.counted (by omega) (by omega)
    refine ⟨hend, fun e hmem => (hall e hmem).1, ?_⟩
    intro e hmem hlatches
    have hbroken := (hchained.made e hmem).broken_of_latches hlatches (hall e hmem).2
    exact ⟨hbroken, hchained.last_of_broken e hmem hbroken⟩
  · intro s key value error hkey
    exact verify_refused_of_noShortEfId value hkey
  · intro offset length s tr out s' h
    exact readBinary_decrypts h

/-- A VERIFY answered `6987` is the only APDU of the run. -/
example :
    Steps (performAll aes128 .on 0
        [.verify 0x0011 pin1234, .selectEf 0x0006, .readBinary 0 16, .readEf 0x0001])
      (.opened Block.zero) [(firstVerify, .ok [0x69, 0x87])] (.ok ()) ⟨Block.zero, 2, true⟩ :=
  path_of_replay [.ok [0x69, 0x87]] (by decide +kernel)

end MynaCard
