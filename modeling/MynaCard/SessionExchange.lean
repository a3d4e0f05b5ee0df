import MynaCard.SecureMessaging

/-!
# One secure call, on the wire

What an operation on a session can do, as a relation: `Steps x s tr out s'` says that from the
session `s` the operation `x`, given the answers of `tr`, sends the APDUs of `tr`, ends with `out`
and leaves the session `s'`. There is one lemma for each way of building an operation, and
`call_steps` is the specification of a secure call.

A property of operations that is `Closed` under the ways of building one holds of every run as soon
as it holds of the secure calls (`SessionM.Closed.performAll`), so the calls settle it. `Keeps`, an
invariant between the session and the state of a monitor of its traffic, is such a property.
-/

namespace MynaCard

open Dialogue

/-- From the session `s` the operation sends and is answered `tr`, ends with `out` and leaves
`s'`. -/
def Steps {α : Type} (x : SessionM α) (s : SecureSession) (tr : Trace Sent Answer) (out : Run α)
    (s' : SecureSession) : Prop :=
  Path (x.run.run s) tr (out, s')

/-- The traffic of the card's own operations, in a session whose counter is `n`. -/
def labelled (n : UInt32) (tr : Trace Bytes Answer) : Trace Sent Answer :=
  tr.map fun e => (⟨e.1, n⟩, e.2)

@[simp] theorem labelled_cons (n : UInt32) (e : Bytes × Answer) (tr : Trace Bytes Answer) :
    labelled n (e :: tr) = (⟨e.1, n⟩, e.2) :: labelled n tr := rfl

@[simp] theorem labelled_append (n : UInt32) (tr₁ tr₂ : Trace Bytes Answer) :
    labelled n (tr₁ ++ tr₂) = labelled n tr₁ ++ labelled n tr₂ := List.map_append

theorem mem_labelled {n : UInt32} {tr : Trace Bytes Answer} {e : Sent × Answer} :
    e ∈ labelled n tr ↔ ∃ x ∈ tr, (⟨x.1, n⟩, x.2) = e := List.mem_map

section Steps

variable {α β : Type} {s s' : SecureSession} {tr : Trace Sent Answer}

theorem steps_pure {a : α} {out : Run α} :
    Steps (pure a) s tr out s' ↔ tr = [] ∧ out = .ok a ∧ s' = s := by
  show Path (done (.ok a, s)) tr (out, s') ↔ _
  rw [path_done, Prod.mk.injEq]

theorem steps_throw {stop : Stop} {out : Run α} :
    Steps (throw stop) s tr out s' ↔ tr = [] ∧ out = .error stop ∧ s' = s := by
  show Path (done (.error stop, s)) tr (out, s') ↔ _
  rw [path_done, Prod.mk.injEq]

theorem steps_liftRun {x : Run α} {out : Run α} :
    Steps (liftRun x) s tr out s' ↔ tr = [] ∧ out = x ∧ s' = s := by
  show Path (done (x, s)) tr (out, s') ↔ _
  rw [path_done, Prod.mk.injEq]

theorem steps_get {out : Run SecureSession} :
    Steps get s tr out s' ↔ tr = [] ∧ out = .ok s ∧ s' = s := by
  show Path (done (.ok s, s)) tr (out, s') ↔ _
  rw [path_done, Prod.mk.injEq]

/-- The card's own operations leave the session alone, and their APDUs carry its counter. -/
theorem steps_liftCard {x : CardM α} {out : Run α} :
    Steps (liftCard x) s tr out s' ↔
      s' = s ∧ ∃ tr', tr = labelled s.counter tr' ∧ Path x.run tr' out := by
  show Path ((x.run.relabel _).bind fun r => done (r, s)) tr (out, s') ↔ _
  rw [path_bind]
  constructor
  · rintro ⟨tr₁, a, tr₂, rfl, h₁, h₂⟩
    rw [path_done, Prod.mk.injEq] at h₂
    obtain ⟨rfl, rfl, rfl⟩ := h₂
    obtain ⟨tr', rfl, h⟩ := path_relabel.mp h₁
    exact ⟨rfl, tr', List.append_nil _, h⟩
  · rintro ⟨rfl, tr', rfl, h⟩
    exact ⟨_, out, [], (List.append_nil _).symm, path_relabel.mpr ⟨tr', rfl, h⟩, .done _⟩

theorem steps_bind {x : SessionM α} {f : α → SessionM β} {out : Run β} :
    Steps (x >>= f) s tr out s' ↔
      (∃ stop, out = .error stop ∧ Steps x s tr (.error stop) s') ∨
      ∃ tr₁ a s₁ tr₂, tr = tr₁ ++ tr₂ ∧ Steps x s tr₁ (.ok a) s₁ ∧ Steps (f a) s₁ tr₂ out s' := by
  show Path ((x.run.run s).bind _) tr (out, s') ↔ _
  rw [path_bind]
  constructor
  · rintro ⟨tr₁, ⟨a | a, s₁⟩, tr₂, rfl, h₁, h₂⟩
    · have hdone : tr₂ = [] ∧ (out, s') = (.error a, s₁) := path_done.mp h₂
      obtain ⟨rfl, hout⟩ := hdone
      obtain ⟨rfl, rfl⟩ := Prod.mk.inj hout
      exact .inl ⟨a, rfl, by rwa [List.append_nil]⟩
    · exact .inr ⟨tr₁, a, s₁, tr₂, rfl, h₁, h₂⟩
  · rintro (⟨stop, rfl, h⟩ | ⟨tr₁, a, s₁, tr₂, rfl, h₁, h₂⟩)
    · exact ⟨tr, (.error stop, s'), [], (List.append_nil tr).symm, h, .done _⟩
    · exact ⟨tr₁, (.ok a, s₁), tr₂, rfl, h₁, h₂⟩

/-- Given the same answers, an operation does the same. -/
theorem steps_unique {x : SessionM α} {out out' : Run α} {s'' : SecureSession}
    (h : Steps x s tr out s') (h' : Steps x s tr out' s'') : out = out' ∧ s' = s'' :=
  Prod.mk.inj (path_unique h h')

/-- An operation that starts by looking at the session. -/
theorem steps_get_bind {f : SecureSession → SessionM β} {out : Run β} :
    Steps (get >>= f) s tr out s' ↔ Steps (f s) s tr out s' := by
  rw [steps_bind]
  constructor
  · rintro (⟨stop, rfl, h⟩ | ⟨tr₁, a, s₁, tr₂, rfl, h₁, h₂⟩)
    · exact absurd (steps_get.mp h).2.1 (by simp)
    · obtain ⟨rfl, ha, rfl⟩ := steps_get.mp h₁
      cases ha
      exact h₂
  · intro h
    exact .inr ⟨[], s, s, tr, rfl, steps_get.mpr ⟨rfl, rfl, rfl⟩, h⟩

end Steps

/-! ### The counter -/

/-- The session after a secure call whose response has the status `sw`. -/
def SecureSession.advanced (s : SecureSession) (sw : StatusWord) : SecureSession :=
  { s with counter := s.counter + 1, broken := s.broken || isSecureMessagingError sw }

theorem counterSucc_eq (oc : OverflowChecks) (n : UInt32) :
    (oc = .on ∧ n.toNat = 2 ^ 32 - 1 ∧ counterSucc oc n = .error (.panic .counterOverflow)) ∨
      ((oc = .off ∨ n.toNat < 2 ^ 32 - 1) ∧ counterSucc oc n = .ok (n + 1)) := by
  have hn := n.toNat_lt
  unfold counterSucc
  by_cases h : n.toNat + 1 < 2 ^ 32
  · rw [if_pos h]
    exact .inr ⟨.inr (by omega), rfl⟩
  · rw [if_neg h]
    cases oc with
    | on => exact .inl ⟨rfl, by omega, rfl⟩
    | off => exact .inr ⟨.inl rfl, rfl⟩

theorem SecureSession.advance_of_ok {oc : OverflowChecks} {s : SecureSession} {n : UInt32}
    (sw : StatusWord) (h : counterSucc oc s.counter = .ok n) :
    SecureSession.advance oc sw s =
      done (.ok (), { s with counter := n, broken := s.broken || isSecureMessagingError sw }) := by
  simp only [SecureSession.advance, ExceptT.mk, h]

theorem SecureSession.advance_of_error {oc : OverflowChecks} {s : SecureSession} {stop : Stop}
    (sw : StatusWord) (h : counterSucc oc s.counter = .error stop) :
    SecureSession.advance oc sw s = done (.error stop, s) := by
  simp only [SecureSession.advance, ExceptT.mk, h]

theorem steps_advance_iff {oc : OverflowChecks} {sw : StatusWord} {s s' : SecureSession}
    {tr : Trace Sent Answer} {out : Run Unit} :
    Steps (SecureSession.advance oc sw) s tr out s' ↔ tr = [] ∧
      ((∃ stop, counterSucc oc s.counter = .error stop ∧ out = .error stop ∧ s' = s) ∨
        ∃ n, counterSucc oc s.counter = .ok n ∧ out = .ok () ∧
          s' = { s with counter := n, broken := s.broken || isSecureMessagingError sw }) := by
  show Path (SecureSession.advance oc sw s) tr (out, s') ↔ _
  cases hsucc : counterSucc oc s.counter with
  | error stop =>
    rw [SecureSession.advance_of_error sw hsucc]
    simp
  | ok n =>
    rw [SecureSession.advance_of_ok sw hsucc]
    simp

theorem steps_advance {oc : OverflowChecks} {sw : StatusWord} {s s' : SecureSession}
    {tr : Trace Sent Answer} {out : Run Unit} (h : Steps (SecureSession.advance oc sw) s tr out s') :
    tr = [] ∧
      ((out = .error (.panic .counterOverflow) ∧ s' = s ∧ s.counter.toNat = 2 ^ 32 - 1) ∨
        ((oc = .off ∨ s.counter.toNat < 2 ^ 32 - 1) ∧ out = .ok () ∧ s' = s.advanced sw)) := by
  obtain ⟨rfl, hadvance⟩ := steps_advance_iff.mp h
  refine ⟨rfl, ?_⟩
  rcases counterSucc_eq oc s.counter with ⟨-, hlast, heq⟩ | ⟨hoc, heq⟩
  · rw [heq] at hadvance
    rcases hadvance with ⟨stop, hstop, rfl, rfl⟩ | ⟨n, hn, -⟩
    · obtain rfl := Except.error.inj hstop
      exact .inl ⟨rfl, rfl, hlast⟩
    · cases hn
  · rw [heq] at hadvance
    rcases hadvance with ⟨stop, hstop, -⟩ | ⟨n, hn, rfl, rfl⟩
    · cases hstop
    · obtain rfl := Except.ok.inj hn
      exact .inr ⟨hoc, rfl, rfl⟩

/-- The operation has come back to its caller, with a value or an error. -/
def Returned {α : Type} (out : Run α) : Prop := ∀ stop, out = .error stop → ∃ e, stop = .err e

theorem returned_ok {α : Type} (a : α) : Returned (.ok a : Run α) := fun _ h => nomatch h

theorem returned_err {α : Type} (e : Error) : Returned (.error (.err e) : Run α) :=
  fun _ h => ⟨e, (Except.error.inj h).symm⟩

theorem not_returned_running {α : Type} : ¬ Returned (.error .running : Run α) := by
  intro h
  obtain ⟨e, he⟩ := h _ rfl
  cases he

theorem not_returned_panic {α : Type} (why : Panic) : ¬ Returned (.error (.panic why) : Run α) := by
  intro h
  obtain ⟨e, he⟩ := h _ rfl
  cases he

/-! ### One secure call -/

/-- **A secure call.** A broken session sends nothing. Otherwise the call is the card's call of the
same command; its error leaves the session as it was, and a response advances the counter. -/
theorem call_steps {oc : OverflowChecks} {fuel : ℕ} {c : Command} {s s' : SecureSession}
    {tr : Trace Sent Answer} {out : Run Bytes}
    (h : Steps (SecureSession.call oc fuel c) s tr out s') :
    (s.broken = true ∧ tr = [] ∧ out = .error (.err (.status ⟨0x69FC⟩)) ∧ s' = s) ∨
    (s.broken = false ∧ ∃ tr' r, tr = labelled s.counter tr' ∧
      Path (Card.call fuel c).run tr' r ∧
      ((∃ stop, r = .error stop ∧ out = .error stop ∧ s' = s) ∨
        ∃ response, r = .ok response ∧
          ((out = .error (.panic .counterOverflow) ∧ s' = s ∧ s.counter.toNat = 2 ^ 32 - 1) ∨
            ((oc = .off ∨ s.counter.toNat < 2 ^ 32 - 1) ∧ out = response.intoData ∧
              s' = s.advanced response.status)))) := by
  rw [SecureSession.call, steps_get_bind] at h
  cases hb : s.broken with
  | true =>
    rw [hb, if_pos rfl, steps_throw] at h
    exact .inl ⟨rfl, h⟩
  | false =>
    rw [hb, if_neg (by simp), steps_bind] at h
    refine .inr ⟨rfl, ?_⟩
    rcases h with ⟨stop, rfl, h⟩ | ⟨tr₁, response, s₁, tr₂, rfl, h₁, h₂⟩
    · obtain ⟨rfl, tr', rfl, hpath⟩ := steps_liftCard.mp h
      exact ⟨tr', _, rfl, hpath, .inl ⟨stop, rfl, rfl, rfl⟩⟩
    · obtain ⟨rfl, tr', rfl, hpath⟩ := steps_liftCard.mp h₁
      rw [steps_bind] at h₂
      rcases h₂ with ⟨stop, rfl, h⟩ | ⟨tr₃, a, s₂, tr₄, rfl, h₃, h₄⟩
      · obtain ⟨rfl, hadvance⟩ := steps_advance h
        refine ⟨tr', _, List.append_nil _, hpath, .inr ⟨response, rfl, .inl ?_⟩⟩
        rcases hadvance with ⟨hout, hs⟩ | ⟨-, hout, -⟩
        · obtain rfl := Except.error.inj hout
          exact ⟨rfl, hs⟩
        · cases hout
      · obtain ⟨rfl, hadvance⟩ := steps_advance h₃
        obtain ⟨rfl, rfl, rfl⟩ := steps_liftRun.mp h₄
        refine ⟨tr', _, by simp, hpath, .inr ⟨response, rfl, .inr ?_⟩⟩
        rcases hadvance with ⟨hout, -⟩ | ⟨hoc, -, hs⟩
        · cases hout
        · exact ⟨hoc, rfl, hs⟩

/-- Given answers it can go on from, a call that fails does not return. -/
theorem not_returned_of_workable {α : Type} {fuel : ℕ} {c : Command} (hv : c.Valid)
    {tr : Trace Bytes Answer} {stop : Stop} (h : Path (Card.call fuel c).run tr (.error stop))
    (hw : ∀ e ∈ tr, Card.Workable e.2) : ¬ Returned (.error stop : Run α) := by
  rcases Card.call_workable hv h hw with hstop | ⟨r, hok⟩
  · obtain rfl := Except.error.inj hstop
    exact not_returned_running
  · cases hok

/-- A secure read is its call, and what the session after the call makes of the response. -/
theorem readBinary_steps {aes : Aes128} {oc : OverflowChecks} {fuel : ℕ} {offset length : UInt16}
    {s s' : SecureSession} {tr : Trace Sent Answer} {out : Run Bytes} :
    Steps (SecureSession.readBinary aes oc fuel offset length) s tr out s' ↔ ∃ r,
      Steps (SecureSession.call oc fuel (SecureSession.readBinaryCommand offset length)) s tr r s' ∧
        out = r.bind fun response =>
          parseCryptogram oc response >>= aes.decrypt s'.key (s'.counter - 1) := by
  rw [SecureSession.readBinary, steps_bind]
  constructor
  · intro h
    obtain ⟨stop, rfl, h⟩ | ⟨tr₁, response, s₁, tr₂, rfl, h₁, h₂⟩ := h
    · exact ⟨_, h, rfl⟩
    · obtain ⟨rfl, rfl, rfl⟩ := steps_liftRun.mp (steps_get_bind.mp h₂)
      exact ⟨_, by rwa [List.append_nil], rfl⟩
  · intro h
    obtain ⟨r, h, rfl⟩ := h
    cases r with
    | error stop => exact .inl ⟨stop, rfl, h⟩
    | ok response =>
      exact .inr ⟨tr, response, s', [], (List.append_nil tr).symm, h,
        steps_get_bind.mpr (steps_liftRun.mpr ⟨rfl, rfl, rfl⟩)⟩

/-! ### Invariants of operations -/

section Keeps

variable {σ α β : Type} {m : Monitor σ Sent Answer} {I : SecureSession → σ → Prop}

/-- Started at `s`, the operation sends only what the monitor allows, and if it comes back the
invariant holds again, provided the monitor's assumptions on the answers are met. -/
def Keeps (m : Monitor σ Sent Answer) (I : SecureSession → σ → Prop) (s : SecureSession)
    (x : SessionM α) : Prop :=
  ∀ t tr out s', I s t → Steps x s tr out s' → m.Assumed t tr →
    m.Safe t tr ∧ (Returned out → I s' (m.after t tr))

variable {s : SecureSession}

theorem Keeps.of_silent {x : SessionM α}
    (h : ∀ tr out s', Steps x s tr out s' → tr = [] ∧ s' = s) : Keeps m I s x := by
  intro t tr out s' hI hsteps _
  obtain ⟨rfl, rfl⟩ := h tr out s' hsteps
  exact ⟨trivial, fun _ => hI⟩

theorem Keeps.liftRun (x : Run α) : Keeps m I s (liftRun x) :=
  .of_silent fun _ _ _ h => ⟨(steps_liftRun.mp h).1, (steps_liftRun.mp h).2.2⟩

theorem Keeps.bind {x : SessionM α} {f : α → SessionM β} (hx : Keeps m I s x)
    (hf : ∀ a s', Keeps m I s' (f a)) : Keeps m I s (x >>= f) := by
  intro t tr out s' hI hsteps hassume
  rcases steps_bind.mp hsteps with ⟨stop, rfl, h⟩ | ⟨tr₁, a, s₁, tr₂, rfl, h₁, h₂⟩
  · obtain ⟨hsafe, hpost⟩ := hx t tr _ s' hI h hassume
    refine ⟨hsafe, fun hret => hpost ?_⟩
    intro stop' hstop
    exact hret stop' (congrArg Except.error (Except.error.inj hstop))
  · obtain ⟨ha₁, ha₂⟩ := (m.assumed_append t tr₁ tr₂).mp hassume
    obtain ⟨hsafe₁, hpost₁⟩ := hx t tr₁ _ s₁ hI h₁ ha₁
    obtain ⟨hsafe₂, hpost₂⟩ := hf a s₁ _ tr₂ out s' (hpost₁ (returned_ok a)) h₂ ha₂
    rw [m.safe_append, m.after_append]
    exact ⟨⟨hsafe₁, hsafe₂⟩, hpost₂⟩

theorem Keeps.get_bind {f : SecureSession → SessionM β} (hf : Keeps m I s (f s)) :
    Keeps m I s (get >>= f) := by
  intro t tr out s' hI hsteps hassume
  exact hf t tr out s' hI (steps_get_bind.mp hsteps) hassume

end Keeps

/-! ### Operations and runs -/

/-- The public operations of a session. -/
inductive SessionOperation
  | verify (key : UInt16) (value : Pin)
  | selectEf (id : UInt16)
  | readBinary (offset length : UInt16)
  | readEf (id : UInt16)
  | readEfPhysical (id : UInt16)

/-- A command one of the operations builds for a session at `s`. -/
inductive SessionCommand (aes : Aes128) (s : SecureSession) : Command → Prop
  | verify (sfi : ShortEfId) (value : Pin) :
      SessionCommand aes s (SecureSession.verifyCommand aes s sfi value)
  | selectEf (id : UInt16) : SessionCommand aes s (SecureSession.selectEfCommand aes s id)
  | readBinary (offset length : UInt16) :
      SessionCommand aes s (SecureSession.readBinaryCommand offset length)

/-- `let _ = x;`: the caller goes on after an error, and not after a panic. -/
def SessionM.ignoreErr (x : SessionM Unit) : SessionM Unit := ExceptT.mk fun s =>
  (x.run.run s).bind fun
    | (.error (.err _), s') => done (.ok (), s')
    | r => done r

section Operations

variable (aes : Aes128) (oc : OverflowChecks) (fuel : ℕ)

/-- One operation, its value dropped. -/
def SessionOperation.perform : SessionOperation → SessionM Unit
  | verify key value => SecureSession.verify aes oc fuel key value
  | selectEf id => SecureSession.selectEf aes oc fuel id
  | readBinary offset length => discard (SecureSession.readBinary aes oc fuel offset length)
  | readEf id => discard (SecureSession.readEf aes oc fuel id)
  | readEfPhysical id => discard (SecureSession.readEfPhysical aes oc fuel id)

/-- A caller's operations on a session, one after the other, whatever they return. -/
def performAll : List SessionOperation → SessionM Unit
  | [] => pure ()
  | op :: ops => do
    SessionM.ignoreErr (op.perform aes oc fuel)
    performAll ops

end Operations

theorem SessionM.discard_eq {α : Type} (x : SessionM α) :
    Functor.discard x = x >>= fun _ => (pure () : SessionM Unit) := (bind_pure_comp _ x).symm

theorem steps_ignoreErr {x : SessionM Unit} {s s' : SecureSession} {tr : Trace Sent Answer}
    {out : Run Unit} :
    Steps x.ignoreErr s tr out s' ↔
      (∃ e, out = .ok () ∧ Steps x s tr (.error (.err e)) s') ∨
      (Steps x s tr out s' ∧ ∀ e, out ≠ .error (.err e)) := by
  show Path ((x.run.run s).bind _) tr (out, s') ↔ _
  rw [path_bind]
  constructor
  · rintro ⟨tr₁, ⟨r, s₁⟩, tr₂, rfl, h₁, h₂⟩
    rcases r with (e | why | _ | _) | a
    · obtain ⟨rfl, hout⟩ := path_done.mp h₂
      obtain ⟨rfl, rfl⟩ := Prod.mk.inj hout
      exact .inl ⟨e, rfl, by rwa [List.append_nil]⟩
    all_goals
      obtain ⟨rfl, hout⟩ := path_done.mp h₂
      obtain ⟨rfl, rfl⟩ := Prod.mk.inj hout
      exact .inr ⟨by rwa [List.append_nil], by simp⟩
  · rintro (⟨e, rfl, h⟩ | ⟨h, hout⟩)
    · exact ⟨tr, _, [], (List.append_nil tr).symm, h, .done _⟩
    · refine ⟨tr, _, [], (List.append_nil tr).symm, h, ?_⟩
      rcases out with (e | why | _ | _) | a
      · exact absurd rfl (hout e)
      all_goals exact .done _

/-! ### Closed properties -/

/-- The property of operations, each from a session on, is kept by what operations are made of apart
from secure calls. -/
structure SessionM.Closed (K : (α : Type) → SecureSession → SessionM α → Prop) : Prop where
  liftRun : ∀ {α : Type} (s : SecureSession) (x : Run α), K α s (liftRun x)
  bind : ∀ {α β : Type} {s : SecureSession} {x : SessionM α} {f : α → SessionM β}, K α s x →
    (∀ a s', K β s' (f a)) → K β s (x >>= f)
  get_bind : ∀ {β : Type} {s : SecureSession} {f : SecureSession → SessionM β}, K β s (f s) →
    K β s (get >>= f)
  ignoreErr : ∀ {s : SecureSession} {x : SessionM Unit}, K Unit s x → K Unit s x.ignoreErr

namespace SessionM.Closed

variable {K : (α : Type) → SecureSession → SessionM α → Prop} (hK : SessionM.Closed K)
  {aes : Aes128} {oc : OverflowChecks} {fuel : ℕ}

include hK

theorem pure {α : Type} (s : SecureSession) (a : α) : K α s (pure a) := hK.liftRun s (.ok a)

theorem throw {α : Type} (s : SecureSession) (stop : Stop) : K α s (throw stop) :=
  hK.liftRun s (.error stop)

theorem discard {α : Type} {s : SecureSession} {x : SessionM α} (hx : K α s x) :
    K Unit s (discard x) := by
  rw [SessionM.discard_eq]
  exact hK.bind hx fun _ s' => hK.pure s' ()

variable (hcall : ∀ s c, SessionCommand aes s c → K Bytes s (SecureSession.call oc fuel c))

include hcall

theorem selectEf (s : SecureSession) (id : UInt16) :
    K Unit s (SecureSession.selectEf aes oc fuel id) :=
  hK.get_bind (hK.bind (hcall s _ (.selectEf id)) fun _ s' => hK.pure s' ())

theorem verify (s : SecureSession) (key : UInt16) (value : Pin) :
    K Unit s (SecureSession.verify aes oc fuel key value) :=
  hK.bind (hK.liftRun s _) fun sfi s' =>
    hK.get_bind (hK.bind (hcall s' _ (.verify sfi value)) fun _ s'' => hK.pure s'' ())

theorem readBinary (s : SecureSession) (offset length : UInt16) :
    K Bytes s (SecureSession.readBinary aes oc fuel offset length) :=
  hK.bind (hcall s _ (.readBinary offset length)) fun _ s' => hK.get_bind (hK.liftRun s' _)

theorem readEfPhysical (s : SecureSession) (id : UInt16) :
    K Bytes s (SecureSession.readEfPhysical aes oc fuel id) :=
  hK.bind (hK.selectEf hcall s id) fun _ s' => hK.readBinary hcall s' 0 0

theorem readEfLoop (s : SecureSession) (total : ℕ) (out : Bytes) :
    K Bytes s (SecureSession.readEfLoop aes oc fuel total out) := by
  rw [SecureSession.readEfLoop]
  split
  · split
    · exact hK.throw s _
    · refine hK.bind (hK.readBinary hcall s _ _) fun chunk s' => ?_
      split
      · exact hK.pure s' _
      · exact readEfLoop s' total (out ++ chunk)
  · exact hK.pure s _
termination_by total - out.length
decreasing_by
  have := List.length_pos_iff.mpr ‹¬ chunk = []›
  rw [List.length_append]
  omega

theorem readEf (s : SecureSession) (id : UInt16) :
    K Bytes s (SecureSession.readEf aes oc fuel id) := by
  refine hK.bind (hK.readEfPhysical hcall s id) fun out s' => ?_
  unfold SecureSession.readEfOn
  split
  · exact hK.pure s' _
  · split
    · refine hK.bind (hK.liftRun s' _) fun total s'' => ?_
      split
      · exact hK.pure s'' _
      · exact hK.readEfLoop hcall s'' total out
    · exact hK.pure s' _

/-- What every secure call has, every operation has. -/
theorem operation (op : SessionOperation) (s : SecureSession) :
    K Unit s (op.perform aes oc fuel) := by
  cases op with
  | verify key value => exact hK.verify hcall s key value
  | selectEf id => exact hK.selectEf hcall s id
  | readBinary offset length => exact hK.discard (hK.readBinary hcall s offset length)
  | readEf id => exact hK.discard (hK.readEf hcall s id)
  | readEfPhysical id => exact hK.discard (hK.readEfPhysical hcall s id)

/-- What every secure call has, every run has. -/
theorem performAll (ops : List SessionOperation) (s : SecureSession) :
    K Unit s (MynaCard.performAll aes oc fuel ops) := by
  induction ops generalizing s with
  | nil => exact hK.pure s ()
  | cons op ops ih => exact hK.bind (hK.ignoreErr (hK.operation hcall op s)) fun _ s' => ih s'

end SessionM.Closed

section Keeps

variable {σ : Type} {m : Monitor σ Sent Answer} {I : SecureSession → σ → Prop}

theorem Keeps.ignoreErr {s : SecureSession} {x : SessionM Unit} (hx : Keeps m I s x) :
    Keeps m I s x.ignoreErr := by
  intro t tr out s' hI hsteps hassume
  rcases steps_ignoreErr.mp hsteps with ⟨e, rfl, h⟩ | ⟨h, -⟩
  · obtain ⟨hsafe, hpost⟩ := hx t tr _ s' hI h hassume
    exact ⟨hsafe, fun _ => hpost (returned_err e)⟩
  · exact hx t tr out s' hI h hassume

theorem keeps_closed : SessionM.Closed fun _ s x => Keeps m I s x where
  liftRun _ x := .liftRun x
  bind := .bind
  get_bind := .get_bind
  ignoreErr := .ignoreErr

/-- What every secure call keeps, every run keeps. -/
theorem performAll_keeps {aes : Aes128} {oc : OverflowChecks} {fuel : ℕ}
    (hcall : ∀ s c, SessionCommand aes s c → Keeps m I s (SecureSession.call oc fuel c))
    (ops : List SessionOperation) (s : SecureSession) :
    Keeps m I s (performAll aes oc fuel ops) :=
  keeps_closed.performAll hcall ops s

end Keeps

/-! ### Secure APDUs -/

namespace Sent

/-- CLA=08. -/
def isSecure (q : Sent) : Bool := q.apdu.head? == some Cla.smWithoutIntegrity

/-- CLA=08, and not a READ BINARY: the data field is a cryptogram. -/
def isEncrypted (q : Sent) : Bool := q.isSecure && q.apdu[1]? != some Ins.readBinary

theorem isSecure_encoding (c : Command) (n : UInt32) :
    (Sent.mk c.encoding n).isSecure = (c.cla == Cla.smWithoutIntegrity) := rfl

theorem isEncrypted_encoding (c : Command) (n : UInt32) :
    (Sent.mk c.encoding n).isEncrypted =
      (c.cla == Cla.smWithoutIntegrity && c.ins != Ins.readBinary) := rfl

theorem isSecure_getResponse (available : UInt8) (n : UInt32) :
    (Sent.mk (Card.getResponse available).encoding n).isSecure = false := rfl

end Sent

/-- GET RESPONSE is a plain command, also in a secure call. -/
theorem labelled_not_secure {n : UInt32} {tr : Trace Bytes Answer} (h : Card.OnlyGetResponses tr) :
    ∀ e ∈ labelled n tr, e.1.isSecure = false := by
  intro e he
  obtain ⟨x, hx, rfl⟩ := mem_labelled.mp he
  obtain ⟨available, hq⟩ := h x hx
  show (Sent.mk x.1 n).isSecure = false
  rw [hq]
  exact Sent.isSecure_getResponse available n

namespace SessionCommand

variable {aes : Aes128} {s : SecureSession} {c : Command}

theorem cla_eq (h : SessionCommand aes s c) : c.cla = Cla.smWithoutIntegrity := by
  cases h <;> rfl

theorem isSecure (h : SessionCommand aes s c) (n : UInt32) :
    (Sent.mk c.encoding n).isSecure = true := by
  rw [Sent.isSecure_encoding, h.cla_eq]
  rfl

/-- The data field of a command that carries a short plaintext. -/
theorem cryptogramObject_encrypt_length (aes : Aes128) (key : Block) (n : UInt32)
    (plaintext : Bytes) (h : plaintext.length ≤ 16) :
    (cryptogramObject (aes.encrypt key n plaintext)).length ≤ 37 := by
  have hpad := pad_length plaintext
  rw [cryptogramObject_length, aes.encrypt_length]
  split_ifs <;> omega

theorem valid (h : SessionCommand aes s c) : c.Valid := by
  cases h with
  | verify sfi value =>
    refine ⟨?_, by simp [SecureSession.verifyCommand, Command.withData]⟩
    have hlen := cryptogramObject_encrypt_length aes s.key s.counter value.bytes value.length_le
    exact le_trans hlen (by omega)
  | selectEf id =>
    refine ⟨?_, by simp [SecureSession.selectEfCommand, Command.withData]⟩
    have hlen := cryptogramObject_encrypt_length aes s.key s.counter (u16Bytes id) (by simp)
    exact le_trans hlen (by omega)
  | readBinary offset length =>
    refine ⟨by simp [SecureSession.readBinaryCommand, Command.withDataLe], ?_⟩
    intro le hle
    obtain rfl := Option.some.inj hle
    decide

end SessionCommand

/-- A session right after SET SESSION KEY. -/
def SecureSession.opened (key : Block) : SecureSession := ⟨key, 1, false⟩

end MynaCard
