import MynaCard.SessionExchange

/-!
# Presentations of a secret

A VERIFY with a data field presents a secret, and each time it reaches the card it can cost an
attempt of the retry counter. The operations that verify send one VERIFY, with their secret, and the
same once more exactly when the card answers the first `6Cxx` (`verify_presentations`): the
correction of `Le` is made for every command alike, the VERIFY included. So one call can cost two
attempts, and no more.
-/

namespace MynaCard

open Dialogue

/-- The APDU is a VERIFY. -/
def isVerify (apdu : Bytes) : Bool := (isoDecode apdu).any fun d => d.2.ins == Ins.verify

/-- The APDU is a VERIFY whose data field is the secret. -/
def presents (secret apdu : Bytes) : Bool :=
  (isoDecode apdu).any fun d => d.2.ins == Ins.verify && d.2.data == secret

/-- How often it is sent when the first is sent again if it is answered `6Cxx`. -/
def expectedPresentations : Trace Bytes Answer → ℕ
  | [] => 0
  | e :: _ => if (Card.correctLeOf e.2).isSome then 2 else 1

theorem expectedPresentations_le (tr : Trace Bytes Answer) : expectedPresentations tr ≤ 2 := by
  cases tr with
  | nil => decide
  | cons e tr =>
    rw [expectedPresentations]
    split <;> decide

theorem presents_encoding {c : Command} (hv : c.Valid) (secret : Bytes) :
    presents secret c.encoding = (c.ins == Ins.verify && c.data == secret) := by
  rw [presents, Command.isoDecode_encoding hv, Option.any_some]

theorem isVerify_of_presents {secret apdu : Bytes} (h : presents secret apdu = true) :
    isVerify apdu = true := by
  unfold presents at h
  unfold isVerify
  cases hdecode : isoDecode apdu with
  | none => simp [hdecode] at h
  | some d =>
    rw [hdecode, Option.any_some, Bool.and_eq_true] at h
    exact h.1

theorem isVerify_getResponse (available : UInt8) :
    isVerify (Card.getResponse available).encoding = false := by
  rw [Card.getResponse_encoding, isVerify, isoDecode, Option.any_some]
  rfl

/-! ### What it costs -/

/-- A card whose retry counter, `left`, can only be lowered by a VERIFY, and by one. -/
structure CountsAttempts {τ : Type} (answer : Bytes → τ → Answer × τ) (left : τ → ℕ) : Prop where
  verified : ∀ apdu s, left s ≤ left (answer apdu s).2 + 1
  otherwise : ∀ apdu s, isVerify apdu = false → left s ≤ left (answer apdu s).2

/-- An exchange costs at most as many attempts as there are VERIFYs in it. -/
theorem CountsAttempts.left_le {τ : Type} {answer : Bytes → τ → Answer × τ} {left : τ → ℕ}
    (h : CountsAttempts answer left) (s : τ) (tr : Trace Bytes Answer) :
    left s ≤ left (partyAfter answer s tr) + tr.countP fun e => isVerify e.1 := by
  induction tr generalizing s with
  | nil => exact le_refl (left s)
  | cons e tr ih =>
    have hrest := ih (answer e.1 s).2
    show _ ≤ left (partyAfter answer (answer e.1 s).2 tr) + _
    by_cases hverify : isVerify e.1 = true
    · have hfirst := h.verified e.1 s
      rw [List.countP_cons_of_pos (by exact hverify)]
      omega
    · have hfirst := h.otherwise e.1 s (by simpa using hverify)
      rw [List.countP_cons_of_neg (by exact hverify)]
      omega

/-- As many VERIFYs are sent as expected, each with the secret, and no more attempts are spent. -/
structure Presented (secret : Bytes) (tr : Trace Bytes Answer) : Prop where
  verifies : (tr.countP fun e => isVerify e.1) = expectedPresentations tr
  presentations : (tr.countP fun e => presents secret e.1) = expectedPresentations tr
  attempts : ∀ (τ : Type) (answer : Bytes → τ → Answer × τ) (left : τ → ℕ),
    CountsAttempts answer left → ∀ s,
      left s ≤ left (partyAfter answer s tr) + expectedPresentations tr ∧
        left s ≤ left (partyAfter answer s tr) + 2

/-- What is sent first, and again if it is answered `6Cxx`, is the only thing of its kind. -/
theorem countP_expected {p : Bytes → Bool} {c : Command} {a : Answer} {rest : Trace Bytes Answer}
    (hfirst : p c.encoding = true) (hagain : ∀ le, p (Card.retry c le).encoding = true)
    (hnot : ∀ available, p (Card.getResponse available).encoding = false)
    (hrest : (Card.correctLeOf a = none ∧ Card.OnlyGetResponses rest) ∨
      ∃ le b rest', Card.correctLeOf a = some le ∧
        rest = ((Card.retry c le).encoding, b) :: rest' ∧ Card.OnlyGetResponses rest') :
    (((c.encoding, a) :: rest).countP fun e => p e.1) =
      expectedPresentations ((c.encoding, a) :: rest) := by
  have hzero : ∀ tr, Card.OnlyGetResponses tr → (tr.countP fun e => p e.1) = 0 := by
    intro tr h
    refine List.countP_eq_zero.mpr ?_
    intro e he
    obtain ⟨available, hapdu⟩ := h e he
    rw [hapdu, hnot]
    exact Bool.false_ne_true
  rw [List.countP_cons_of_pos (by exact hfirst), expectedPresentations]
  rcases hrest with ⟨hnone, hrest⟩ | ⟨le, b, rest', hsome, rfl, hrest⟩
  · rw [hzero _ hrest, hnone]
    rfl
  · rw [List.countP_cons_of_pos (by exact hagain le), hzero _ hrest, hsome]
    rfl

/-- A call of a VERIFY. -/
theorem call_presented {fuel : ℕ} {c : Command} (hv : c.Valid) (hins : c.ins = Ins.verify)
    {tr : Trace Bytes Answer} {out : Run Response} (h : Path (Card.call fuel c).run tr out) :
    Presented c.data tr := by
  obtain ⟨a, rest, rfl, hrest⟩ := Card.call_transmits hv h
  have hfirst : presents c.data c.encoding = true := by simp [presents_encoding hv, hins]
  have hagain : ∀ le, presents c.data (Card.retry c le).encoding = true := by
    intro le
    rw [presents_encoding (Card.retry_valid hv le)]
    simp [Card.retry, hins]
  have hverifies : (((c.encoding, a) :: rest).countP fun e => isVerify e.1) =
      expectedPresentations ((c.encoding, a) :: rest) :=
    countP_expected (isVerify_of_presents hfirst) (fun le => isVerify_of_presents (hagain le))
      isVerify_getResponse hrest
  refine ⟨hverifies, countP_expected hfirst hagain ?_ hrest, ?_⟩
  · intro available
    by_contra hpresents
    have hverify := isVerify_of_presents (by simpa using hpresents)
    rw [isVerify_getResponse] at hverify
    cases hverify
  · intro τ answer left hcounts s
    have hle := hcounts.left_le s ((c.encoding, a) :: rest)
    have htwo := expectedPresentations_le ((c.encoding, a) :: rest)
    omega

/-- Where nothing is sent. -/
theorem Presented.nil (secret : Bytes) : Presented secret [] := by
  refine ⟨rfl, rfl, ?_⟩
  intro τ answer left _ s
  exact ⟨le_refl _, Nat.le_add_right _ _⟩

/-- The APDUs of a session's traffic. -/
def onTheWire (tr : Trace Sent Answer) : Trace Bytes Answer := tr.map fun e => (e.1.apdu, e.2)

theorem onTheWire_labelled (n : UInt32) (tr : Trace Bytes Answer) :
    onTheWire (labelled n tr) = tr := by
  rw [onTheWire, labelled, List.map_map]
  exact List.map_id tr

theorem pin_verify_valid (p2 : UInt8) (pin : Pin) : (Card.verifyCommand p2 pin.bytes).Valid := by
  refine ⟨?_, by simp [Card.verifyCommand, Command.withData]⟩
  exact le_trans pin.length_le (by decide)

theorem cardVerify_presented {fuel : ℕ} {p2 : UInt8} {pin : Pin} {tr : Trace Bytes Answer}
    {out : Run Unit}
    (h : Path (do
      let _ ← Card.callOk fuel (Card.verifyCommand p2 pin.bytes)
      pure () : CardM Unit).run tr out) :
    Presented pin.bytes tr := by
  obtain ⟨r, hr, -⟩ := path_ignored.mp h
  obtain ⟨r', hr', -⟩ := Card.path_callOk.mp hr
  exact call_presented (pin_verify_valid p2 pin) rfl hr'

theorem sessionVerify_presented {aes : Aes128} {oc : OverflowChecks} {fuel : ℕ} {key : UInt16}
    {value : Pin} {s s' : SecureSession} {tr : Trace Sent Answer} {out : Run Unit}
    (h : Steps (SecureSession.verify aes oc fuel key value) s tr out s') :
    Presented (cryptogramObject (aes.encrypt s.key s.counter value.bytes)) (onTheWire tr) := by
  have hcall : tr = [] ∨ ∃ sfi r s₁, Steps (SecureSession.call oc fuel
      (SecureSession.verifyCommand aes s sfi value)) s tr r s₁ := by
    rcases steps_bind.mp h with ⟨stop, -, hstop⟩ | ⟨tr₁, sfi, s₁, tr₂, rfl, h₁, h₂⟩
    · exact .inl (steps_liftRun.mp hstop).1
    · obtain ⟨rfl, -, rfl⟩ := steps_liftRun.mp h₁
      rcases steps_bind.mp (steps_get_bind.mp h₂) with
        ⟨stop, -, hstop⟩ | ⟨tr₃, d, s₂, tr₄, rfl, h₃, h₄⟩
      · exact .inr ⟨sfi, _, s', hstop⟩
      · obtain ⟨rfl, -, rfl⟩ := steps_pure.mp h₄
        exact .inr ⟨sfi, _, s', by simpa using h₃⟩
  rcases hcall with rfl | ⟨sfi, r, s₁, hsteps⟩
  · exact .nil _
  · rcases call_steps hsteps with ⟨-, rfl, -⟩ | ⟨-, tr', r', rfl, hpath, -⟩
    · exact .nil _
    · rw [onTheWire_labelled]
      exact call_presented (SessionCommand.verify sfi value : SessionCommand aes s _).valid rfl
        hpath

/-- **How often one call presents its secret**: `Card::verify`, `Card::verify_sfi` and
`SecureSession::verify` send one VERIFY if they transmit at all, and it carries their PIN, in the
clear or encrypted for the session's counter. They send the same a second time exactly when the
first is answered `6Cxx`. So one call costs at most one attempt of a retry counter if it is not, and
never more than two. -/
theorem verify_presentations :
    (∀ fuel pin tr out, Path (Card.verify fuel pin).run tr out → Presented pin.bytes tr) ∧
    (∀ fuel sfi pin tr out, Path (Card.verifySfi fuel sfi pin).run tr out →
      Presented pin.bytes tr) ∧
    (∀ aes oc fuel key value s tr out s',
      Steps (SecureSession.verify aes oc fuel key value) s tr out s' →
      Presented (cryptogramObject (aes.encrypt s.key s.counter value.bytes)) (onTheWire tr)) :=
  ⟨fun _ _ _ _ h => cardVerify_presented h, fun _ _ _ _ _ h => cardVerify_presented h,
    fun _ _ _ _ _ _ _ _ _ h => sessionVerify_presented h⟩

/-- The PIN `1234`, verified with a card that answers `6C05` and then `9000`, is presented twice. -/
theorem verify_presents_twice :
    ∃ sent,
      (Card.verify 0 ⟨[0x31, 0x32, 0x33, 0x34], by decide, by decide, by decide +kernel⟩).run.run
          MockTransport.transmit (.new [[0x6C, 0x05], [0x90, 0x00]]) = (.ok (), ⟨[], sent⟩) ∧
      sent.countP (presents [0x31, 0x32, 0x33, 0x34]) = 2 :=
  ⟨[[0x00, 0x20, 0x00, 0x80, 0x04, 0x31, 0x32, 0x33, 0x34],
    [0x00, 0x20, 0x00, 0x80, 0x04, 0x31, 0x32, 0x33, 0x34, 0x05]], by rfl, by rfl⟩

end MynaCard
