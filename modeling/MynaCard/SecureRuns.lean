import MynaCard.Ap.Text
import MynaCard.Lockouts
import MynaCard.SecureOperations

/-!
# Runs of a session

What a caller does with a session is any list of operations on it, with operations on the card it
borrows in between, against any party that keeps a session. `session_refined` says that to the
application this is a run of what `Application.Does` says of the operations: the session adds nothing
to it, and session and card are at the same counter all along.
-/

namespace MynaCard

open Dialogue

/-! ### Runs -/

/-- What a caller does with a session: an operation on it, or one on the card. -/
inductive SessionStep
  | secure (op : SessionOperation)
  | plain (x : CardM Unit)

/-- One of them, with nothing for the value of one that has none. -/
def SessionStep.value (aes : Aes128) (oc : OverflowChecks) (fuel : ℕ) :
    SessionStep → SessionM Bytes
  | secure op => op.value aes oc fuel
  | plain x => do
    liftCard x
    pure []

/-- The application before a step, the step, and what it gave. -/
abbrev SessionEntry := Application × (SessionStep × Run Bytes)

section

variable {τ : Type} (aes : Aes128) (answer : Bytes → τ → Answer × τ) (view : τ → SecureCard)
  (oc : OverflowChecks) (fuel : ℕ)

/-- Steps one after the other, until one does not come back. -/
def sessionEntries : List SessionStep → SecureSession → τ → List SessionEntry
  | [], _, _ => []
  | step :: steps, s, σ =>
    let p := (step.value aes oc fuel).runOn answer s σ
    ((view σ).app, (step, p.1.1)) ::
      if p.1.1.isLost then [] else sessionEntries steps p.1.2 p.2

/-- The session and the party after them. -/
def afterSteps : List SessionStep → SecureSession → τ → SecureSession × τ
  | [], s, σ => (s, σ)
  | step :: steps, s, σ =>
    let p := (step.value aes oc fuel).runOn answer s σ
    if p.1.1.isLost then (p.1.2, p.2) else afterSteps steps p.1.2 p.2

end

/-- What a step does to the application. -/
inductive ApplicationStep (oc : OverflowChecks) (a : Application) :
    SessionStep × Run Bytes → Application → Prop
  | secure {op : SessionOperation} {r : Run Bytes} {a' : Application} (h : a.Does oc op r a') :
      ApplicationStep oc a (.secure op, r) a'
  | plain {x : CardM Unit} {r : Run Bytes} {a' : Application} (hfiles : a'.files = a.files)
      (huntouched : Card.Transmits (fun c => ¬ c.TouchesKeys) x →
        a'.keys = a.keys ∧ a'.readable = a.readable) :
      ApplicationStep oc a (.plain x, r) a'

theorem Application.Does.files_eq {oc : OverflowChecks} {a a' : Application}
    {op : SessionOperation} {r : Run Bytes} (h : a.Does oc op r a') : a'.files = a.files := by
  cases h <;> rfl

section

variable {τ : Type} {aes : Aes128} {answer : Bytes → τ → Answer × τ} {view : τ → SecureCard}
  {s : SecureSession} {σ : τ}

/-- What holds of a command with every `Le`, and of GET RESPONSE, holds of the APDUs of a call. -/
theorem encodes_fromCall {P : Command → Prop} {c : Command} (hv : c.Valid)
    (hget : ∀ c' : Command, c'.cla = Cla.user → c'.ins = Ins.getResponse → P c')
    (hle : ∀ le, P { c with le := le }) {apdu : Bytes} (h : Card.FromCall c apdu) :
    Encodes P apdu := by
  rcases h with rfl | ⟨le, rfl⟩ | ⟨n, rfl⟩
  · exact ⟨c, decoded_encoding hv, hle c.le⟩
  · exact ⟨_, decoded_encoding (Card.retry_valid hv le), hle _⟩
  · have hdecoded : ∀ n, ∃ c', decoded (Card.getResponse n).encoding = some c' ∧
        c'.cla = Cla.user ∧ c'.ins = Ins.getResponse := by
      decide +kernel
    obtain ⟨c', hc', hcla, hins⟩ := hdecoded n
    exact ⟨c', hc', hget c' hcla hins⟩

theorem isPlain_getResponse {c : Command} (hcla : c.cla = Cla.user)
    (hins : c.ins = Ins.getResponse) : c.IsPlain := by
  refine ⟨?_, ?_, ?_⟩
  · rw [hcla]
    decide
  · rw [hins]
    decide
  · intro henters
    have hselect := henters.1
    rw [hins] at hselect
    exact absurd hselect (by decide)

namespace KeepsSession

variable (h : KeepsSession aes answer view)

include h

/-- An operation on the card leaves the session and the files alone. -/
theorem plain_run {x : CardM Unit} (hx : Card.Transmits Command.IsPlain x) (σ : τ) :
    (view (x.run.run answer σ).2).session = (view σ).session ∧
      (view (x.run.run answer σ).2).app.files = (view σ).app.files := by
  refine run_keeps (P := fun apdu => ∃ c : Command, c.Valid ∧ c.IsPlain ∧ Card.FromCall c apdu)
    (I := fun t => (view t).session = (view σ).session ∧
      (view t).app.files = (view σ).app.files) hx ?_ ⟨rfl, rfl⟩
  intro apdu t hapdu ht
  obtain ⟨c, hv, hc, hfrom⟩ := hapdu
  obtain ⟨hsession, hfiles⟩ := h.plain t apdu
    (encodes_fromCall hv (fun c' => isPlain_getResponse) (fun le => hc) hfrom)
  exact ⟨hsession.trans ht.1, hfiles.trans ht.2⟩

/-- One that presents to no key leaves the keys alone, and what can be read. -/
theorem untouched_run {x : CardM Unit} (hx : Card.Transmits Command.IsPlain x)
    (huntouched : Card.Transmits (fun c => ¬ c.TouchesKeys) x) (σ : τ) :
    (view (x.run.run answer σ).2).app.keys = (view σ).app.keys ∧
      (view (x.run.run answer σ).2).app.readable = (view σ).app.readable := by
  refine run_keeps (P := Encodes fun c => c.IsPlain ∧ ¬ c.TouchesKeys)
    (I := fun t => (view t).app.keys = (view σ).app.keys ∧
      (view t).app.readable = (view σ).app.readable) ?_ ?_ ⟨rfl, rfl⟩
  · intro tr a hpath e he
    obtain ⟨c, hv, hc, hfrom⟩ := hx tr a hpath e he
    obtain ⟨c', hv', hc', hfrom'⟩ := huntouched tr a hpath e he
    obtain ⟨d, hd, hplain⟩ := encodes_fromCall (P := Command.IsPlain) hv
      (fun c' => isPlain_getResponse) (fun le => hc) hfrom
    obtain ⟨d', hd', hnot⟩ := encodes_fromCall (P := fun c => ¬ c.TouchesKeys) hv'
      (fun c' _ hins => (Command.leavesVault_of_ins _ hins (by decide)).1) (fun le => hc') hfrom'
    obtain rfl := Option.some.inj (hd.symm.trans hd')
    exact ⟨d, hd, hplain, hnot⟩
  · intro apdu t hapdu ht
    obtain ⟨hkeys, hreadable⟩ := h.untouched t apdu hapdu
    exact ⟨hkeys.trans ht.1, hreadable.trans ht.2⟩

/-- One step of a run. -/
theorem step_does (oc : OverflowChecks) (fuel : ℕ) (step : SessionStep)
    (hplain : ∀ x, step = .plain x → Card.Transmits Command.IsPlain x)
    (hs : SameSession s (view σ)) (hsize : (view σ).app.Addressable)
    (hroom : s.counter.toNat + 0x8002 < 2 ^ 32) :
    ServedAs answer view (step.value aes oc fuel) s σ (s.counter.toNat + 0x8002)
      fun r a => ApplicationStep oc (view σ).app (step, r) a := by
  cases step with
  | secure op =>
    obtain ⟨r, s', σ', hrun, hdoes, hsame, hbound⟩ :=
      h.operation_does oc fuel hs op hsize hroom
    exact ⟨r, s', σ', hrun, .secure hdoes, hsame, hbound⟩
  | plain x =>
    have hx := hplain x rfl
    obtain ⟨hsession, hfiles⟩ := h.plain_run hx σ
    have hrun : (SessionStep.value aes oc fuel (.plain x)).runOn answer s σ =
        ((((x.run.run answer σ).1).map fun _ => [], s), (x.run.run answer σ).2) :=
      runOn_ignored [] (runOn_liftCard x)
    exact ⟨_, s, _, hrun, .plain hfiles fun huntouched => h.untouched_run hx huntouched σ,
      ⟨hsession.trans hs.session_eq, hs.unbroken⟩, by omega⟩

/-- **A run of a session is a run of the application**, and session and card count alike after it. There
has to be room for the commands of the run in the counter. -/
theorem session_refined (oc : OverflowChecks) (fuel : ℕ) (steps : List SessionStep)
    (hplain : ∀ x, .plain x ∈ steps → Card.Transmits Command.IsPlain x)
    (hs : SameSession s (view σ)) (hsize : (view σ).app.Addressable)
    (hroom : s.counter.toNat + 0x8002 * steps.length < 2 ^ 32) :
    Execution (ApplicationStep oc) (view σ).app
        (sessionEntries aes answer view oc fuel steps s σ)
        (view (afterSteps aes answer oc fuel steps s σ).2).app ∧
      SameSession (afterSteps aes answer oc fuel steps s σ).1
        (view (afterSteps aes answer oc fuel steps s σ).2) := by
  induction steps generalizing s σ with
  | nil => exact ⟨.nil _, hs⟩
  | cons step steps ih =>
    have hrest : s.counter.toNat + 0x8002 + 0x8002 * steps.length < 2 ^ 32 := by
      rw [List.length_cons, Nat.mul_succ] at hroom
      omega
    obtain ⟨r, s', σ', hrun, hstep, hsame, hbound⟩ := h.step_does oc fuel step
      (fun x hx => hplain x (hx ▸ List.mem_cons_self)) hs hsize
      ((Nat.le_add_right _ _).trans_lt hrest)
    have hfiles : (view σ').app.files = (view σ).app.files := by
      cases hstep with
      | secure hdoes => exact hdoes.files_eq
      | plain hfiles huntouched => exact hfiles
    have hsize' : (view σ').app.Addressable := by
      intro id file hfile
      rw [hfiles] at hfile
      exact hsize id file hfile
    rw [sessionEntries, afterSteps, hrun]
    dsimp only
    by_cases hlost : r.isLost = true
    · rw [if_pos hlost, if_pos hlost]
      exact ⟨.cons hstep (.nil _), hsame⟩
    · rw [if_neg hlost, if_neg hlost]
      obtain ⟨htail, hlast⟩ := ih (fun x hx => hplain x (List.mem_cons_of_mem _ hx)) hsame hsize'
        ((Nat.add_le_add_right hbound _).trans_lt hrest)
      exact ⟨.cons hstep htail, hlast⟩

omit h in
/-- The run is of the steps given, from the first on. -/
theorem sessionEntries_steps (oc : OverflowChecks) (fuel : ℕ) (steps : List SessionStep)
    (s : SecureSession) (σ : τ) :
    (sessionEntries aes answer view oc fuel steps s σ).map (fun e => e.2.1) <+: steps := by
  induction steps generalizing s σ with
  | nil => exact List.prefix_rfl
  | cons step steps ih =>
    rw [sessionEntries, List.map_cons]
    split
    · exact List.prefix_append [step] steps
    · exact (List.prefix_cons_inj step).mpr (ih _ _)

end KeepsSession

/-! ### Opening a session -/

/-- The party takes a session key: where it accepts what was delivered it has deciphered a seed, and
the session begins at 1 under the first half of it. -/
def TakesKeys (decryptOaep : Bytes → Option Bytes) (answer : Bytes → τ → Answer × τ)
    (view : τ → SecureCard) : Prop :=
  ∀ s delivered, delivered.length ≤ 65535 →
    Answers answer s (.withData Cla.system Ins.setSessionKey 0x00 0x00 delivered) fun r s' =>
      r.status = .success → ∃ key rest : Block,
        decryptOaep delivered = some ([0xA0, 0x22, 0x80, 0x20] ++ key.1 ++ rest.1) ∧
        (view s').session = some (key, 1)

/-- A sequence that came back with a value did so in both parts. -/
theorem run_bind_eq_ok {α β : Type} {x : CardM α} {f : α → CardM β} {b : β} {σ' : τ}
    (h : (x >>= f).run.run answer σ = (.ok b, σ')) :
    ∃ a σ₁, x.run.run answer σ = (.ok a, σ₁) ∧ (f a).run.run answer σ₁ = (.ok b, σ') := by
  cases hx : x.run.run answer σ with
  | mk r σ₁ =>
    cases r with
    | ok a => exact ⟨a, σ₁, rfl, (run_bind_ok hx).symm.trans h⟩
    | error stop =>
      rw [run_bind_error hx] at h
      cases h

/-- A session that could be opened is the one the card is in. -/
theorem sameSession_of_opened {decryptOaep : Bytes → Option Bytes}
    (htakes : TakesKeys decryptOaep answer view) {encryptOaep : RsaPublicKey → Bytes → Run Bytes}
    (pf : Platform) (fuel : ℕ)
    (hoaep : ∀ key, ((TextAp.readSessionKeyPublicKey pf fuel).run.run answer σ).1 = .ok key →
      ∀ message delivered message', encryptOaep key.publicKey message = .ok delivered →
        decryptOaep delivered = some message' → message' = message)
    (seed : Block × Block) {σ' : τ}
    (hopen : (TextAp.openSecureSession pf fuel encryptOaep seed).run.run answer σ = (.ok s, σ')) :
    s = .opened seed.1 ∧ SameSession s (view σ') := by
  obtain ⟨key, σ₁, hread, hestablish⟩ := run_bind_eq_ok hopen
  obtain ⟨delivered, σ₂, hencrypt, hrest⟩ := run_bind_eq_ok hestablish
  obtain ⟨response, σ₃, hcall, hdone⟩ := run_bind_eq_ok hrest
  obtain ⟨hs, rfl⟩ := Prod.mk.inj hdone
  obtain rfl := Except.ok.inj hs
  obtain ⟨hencrypted, rfl⟩ := Prod.mk.inj hencrypt
  have hlen : delivered.length ≤ 65535 := by
    by_contra hlong
    have hnot : ¬ (Command.withData Cla.system Ins.setSessionKey 0x00 0x00 delivered).Valid :=
      fun hv => hlong hv.1
    obtain ⟨e, he⟩ := Card.call_run_not_valid fuel hnot
    have herror : (Card.call fuel (.withData Cla.system Ins.setSessionKey 0x00 0x00
        delivered)).run.run answer σ₁ = (.error (.err e), σ₁) := by
      rw [he]
      rfl
    rw [Card.callOk, run_bind_error herror] at hcall
    cases hcall
  obtain ⟨r, σ₂, hrun, hpost⟩ := (htakes σ₁ delivered hlen).callOk fuel ⟨hlen, by
    simp [Command.withData]⟩
  obtain ⟨hdata, rfl⟩ := Prod.mk.inj (hrun.symm.trans hcall)
  have hsuccess : r.status = .success := (Response.intoData_eq_ok.mp hdata).1
  obtain ⟨sessionKey, rest, hdeciphered, hsession⟩ := hpost hsuccess
  have hseed := hoaep key (by rw [hread]) _ delivered _ hencrypted hdeciphered
  have hkey : sessionKey = seed.1 := by
    have hfront := List.append_inj_left hseed (by
      rw [List.length_append, List.length_append, sessionKey.2, seed.1.2])
    exact Subtype.ext (List.append_cancel_left hfront)
  subst hkey
  exact ⟨rfl, hsession, rfl⟩

/-- **From opening a session to its last command.** If `open_secure_session` returned, what is done
with the session after it is a run of the application, and the card is at the session's counter at
the end. -/
theorem opened_session_refined (h : KeepsSession aes answer view)
    {decryptOaep : Bytes → Option Bytes} (htakes : TakesKeys decryptOaep answer view)
    {encryptOaep : RsaPublicKey → Bytes → Run Bytes}
    (pf : Platform) (fuel : ℕ)
    (hoaep : ∀ key, ((TextAp.readSessionKeyPublicKey pf fuel).run.run answer σ).1 = .ok key →
      ∀ message delivered message', encryptOaep key.publicKey message = .ok delivered →
        decryptOaep delivered = some message' → message' = message)
    (seed : Block × Block) (steps : List SessionStep) {σ' : τ}
    (hopen : (TextAp.openSecureSession pf fuel encryptOaep seed).run.run answer σ = (.ok s, σ'))
    (hplain : ∀ x, .plain x ∈ steps → Card.Transmits Command.IsPlain x)
    (hsize : (view σ').app.Addressable) (hroom : 0x8002 * steps.length + 1 < 2 ^ 32) :
    Execution (ApplicationStep pf) (view σ').app
        (sessionEntries aes answer view pf fuel steps s σ')
        (view (afterSteps aes answer pf fuel steps s σ').2).app ∧
      (sessionEntries aes answer view pf fuel steps s σ').map (fun e => e.2.1) <+: steps ∧
      SameSession (afterSteps aes answer pf fuel steps s σ').1
        (view (afterSteps aes answer pf fuel steps s σ').2) := by
  obtain ⟨hs, hsame⟩ := sameSession_of_opened htakes pf fuel hoaep seed hopen
  have hcounter : s.counter.toNat = 1 := by
    rw [hs]
    rfl
  obtain ⟨hrun, hlast⟩ := h.session_refined pf fuel steps hplain hsame hsize (by
    rw [hcounter, Nat.add_comm]
    exact hroom)
  exact ⟨hrun, KeepsSession.sessionEntries_steps pf fuel steps s σ', hlast⟩

/-! ### Objects read in a session -/

/-- What `SecureSession::read_ef` makes of a file that begins with an object. -/
theorem secureResult_of_object (oc : OverflowChecks) (o : Ber.Obj) {filler part : Bytes}
    (hsize : o.raw.length < usizeSize) (hpart : part <+: o.raw ++ filler) :
    FileCard.secureResult oc (o.raw ++ filler) part =
      if o.hdr.length ≤ part.length then .ok o.raw else .ok part := by
  have hheader := o.parseHeader_raw_append filler
  have hlen := o.raw_length
  have hfilled : o.raw ++ filler ≠ [] := by
    obtain ⟨h₂, -⟩ := Ber.parseHeader_headerLen hheader
    intro hnil
    have hnone := congrArg List.length (List.append_eq_nil_iff.mp hnil).1
    rw [hlen, List.length_nil] at hnone
    replace h₂ : 2 ≤ o.hdr.length := h₂
    omega
  by_cases hlong : o.hdr.length ≤ part.length
  · have hparse : Ber.parseHeader part = .ok ⟨o.tag, o.value.length, o.hdr.length⟩ := by
      have htake := Ber.parseHeader_take (n := part.length) hheader hlong
      rwa [← List.prefix_iff_eq_take.mp hpart] at htake
    have htotal : Ber.Header.totalLen oc ⟨o.tag, o.value.length, o.hdr.length⟩ =
        .ok o.raw.length := by
      rw [hlen]
      exact usizeAdd_of_lt oc (by rw [← hlen]; exact hsize)
    rw [FileCard.secureResult_of_total hfilled hparse htotal, if_pos hlong,
      if_pos (by rw [List.length_append]; omega), List.take_left]
  · have hparse : ∃ stop, Ber.parseHeader part = .error stop := by
      cases hp : Ber.parseHeader part with
      | error stop => exact ⟨stop, rfl⟩
      | ok header =>
        have hwhole := Ber.parseHeader_of_prefix hpart hp
        rw [hheader] at hwhole
        obtain rfl := Except.ok.inj hwhole
        exact absurd (Ber.parseHeader_headerLen_le hp).1 hlong
    obtain ⟨stop, hstop⟩ := hparse
    rw [FileCard.secureResult, if_neg hfilled, hstop, if_neg hlong]

/-- **`read_ef` gives the object.** In any run of a session that begins in step with the card,
wherever a file that begins with an object is read and may be, what is read is the object without its
filler, however short the card cuts its answers; unless the first of them is shorter than the object's
header, and then that is all that is read. -/
theorem session_reads_objects (h : KeepsSession aes answer view) (oc : OverflowChecks) (fuel : ℕ)
    (steps : List SessionStep)
    (hplain : ∀ x, .plain x ∈ steps → Card.Transmits Command.IsPlain x)
    (hs : SameSession s (view σ)) (hsize : (view σ).app.Addressable)
    (hroom : s.counter.toNat + 0x8002 * steps.length < 2 ^ 32) {a : Application} {id : UInt16}
    {r : Run Bytes}
    (he : (a, SessionStep.secure (.readEf id), r) ∈
      sessionEntries aes answer view oc fuel steps s σ)
    (o : Ber.Obj) {filler : Bytes} (hfile : (view σ).app.files id = some (o.raw ++ filler))
    (hreadable : a.readable id = true) :
    r = .ok o.raw ∨ ∃ part, r = .ok part ∧ part <+: o.raw ∧ part.length < o.hdr.length := by
  obtain ⟨hrun, -⟩ := h.session_refined oc fuel steps hplain hs hsize hroom
  have hfiles : a.files = (view σ).app.files := by
    obtain ⟨tr₁, tr₂, htr⟩ := List.append_of_mem he
    rw [htr] at hrun
    obtain ⟨m, hbefore, hafter⟩ := hrun.split
    have hkept := hbefore.invariant (I := fun b => b.files = (view σ).app.files)
      (P := fun _ => True) rfl (fun _ _ => trivial) ?_
    · cases hafter with
      | cons hstep hrest => exact hkept
    · intro b l b' hb _ hstep
      cases hstep with
      | secure hdoes => exact hdoes.files_eq.trans hb
      | plain hfiles huntouched => exact hfiles.trans hb
  have hopened : a.opened id = some (o.raw ++ filler) := by
    rw [Application.opened, if_pos hreadable, hfiles, hfile]
  have hfits : o.raw.length < usizeSize := by
    have hle := hsize id _ hfile
    rw [List.length_append] at hle
    unfold usizeSize
    omega
  obtain ⟨b, hstep⟩ := hrun.step_of_mem he
  cases hstep with
  | secure hdoes =>
    cases hdoes with
    | @object _ file part hfile' hpart hne =>
      obtain rfl := Option.some.inj (hfile'.symm.trans hopened)
      rw [secureResult_of_object oc o hfits hpart]
      by_cases hlong : o.hdr.length ≤ part.length
      · exact .inl (if_pos hlong)
      · refine .inr ⟨part, if_neg hlong, ?_, by omega⟩
        have hlen := o.raw_length
        exact List.prefix_of_prefix_length_le hpart (List.prefix_append _ _) (by omega)
    | notOpened e current hop hnone =>
      obtain hop | hop := hop
      · cases hop
        rw [hopened] at hnone
        cases hnone
      · cases hop

/-! ### Wrong values in a session -/

/-- The value a step presents to the key of an EF. -/
def SessionStep.presents (id : UInt16) : SessionStep → Option Pin
  | secure (.verify id' value) => if id' = id then some value else none
  | _ => none

/-- How often the key of an EF is presented a value. -/
def secureAttempts (id : UInt16) (tr : List SessionEntry) : ℕ :=
  tr.countP fun e => (e.2.1.presents id).isSome

/-- A step that presents to no key unless it is an operation on the session. -/
def GuardedStep (oc : OverflowChecks) (a : Application) (l : SessionStep × Run Bytes)
    (a' : Application) : Prop :=
  ApplicationStep oc a l a' ∧
    ∀ x, l.1 = .plain x → Card.Transmits (fun c => ¬ c.TouchesKeys) x

theorem SessionStep.eq_of_presents {id : UInt16} {step : SessionStep} {pin : Pin}
    (h : step.presents id = some pin) : step = .secure (.verify id pin) := by
  cases step with
  | plain x => cases h
  | secure op =>
    cases op with
    | verify id' value =>
      by_cases hid : id' = id
      · rw [SessionStep.presents, if_pos hid] at h
        obtain rfl := Option.some.inj h
        rw [hid]
      · rw [SessionStep.presents, if_neg hid] at h
        cases h
    | selectEf | readBinary | readEf | readEfPhysical => cases h

variable {id : UInt16} {sfi : ShortEfId}

/-- What a presentation to a key is told. -/
theorem Application.Does.of_verify {oc : OverflowChecks} {a a' : Application} {value : Pin}
    {r : Run Bytes} {key : Key} (hid : ShortEfId.fromEfId id = .ok sfi)
    (h : a.Does oc (.verify id value) r a') (hkey : a.keys id = some key) :
    r = (key.present value.bytes).1.reply [] ∧
      a'.keys id = some (key.present value.bytes).2 := by
  cases h with
  | noShortId hnone =>
    rw [hid] at hnone
    cases hnone
  | presented readable current _ hkey' =>
    obtain rfl := Option.some.inj (hkey'.symm.trans hkey)
    exact ⟨rfl, Function.update_self ..⟩
  | noKey e hnone =>
    rw [hnone] at hkey
    cases hkey
  | notOpened e current hop hfile =>
    obtain hop | hop := hop
    · cases hop
    · cases hop

/-- The steps guard every key that has a short identifier. -/
theorem session_guards (oc : OverflowChecks) (hid : ShortEfId.fromEfId id = .ok sfi) :
    Guards (GuardedStep oc) (fun a => a.keys id)
      fun e => (e.2.1.presents id).map Pin.bytes where
  leaves a l a' h hpresents := by
    obtain ⟨hstep, hplain⟩ := h
    have hnone := Option.map_eq_none_iff.mp hpresents
    cases hstep with
    | plain hfiles huntouched => exact congrFun (huntouched (hplain _ rfl)).1 id
    | secure hdoes =>
      cases hdoes with
      | @presented id' value _ key readable current _ hkey =>
        have hother : ¬ id' = id := by
          intro hsame
          have hsome : (SessionStep.secure (.verify id' value)).presents id = some value :=
            if_pos hsame
          cases hsome.symm.trans hnone
        exact Function.update_of_ne (Ne.symm hother) _ _
      | noShortId | noKey | selected | notSelected | read | notRead | physical | object
      | notOpened => rfl
  refuses a l a' value key h hpresents hkey _ := by
    obtain ⟨hstep, -⟩ := h
    obtain ⟨pin, hpin, rfl⟩ := Option.map_eq_some_iff.mp hpresents
    have hverify := SessionStep.eq_of_presents hpin
    obtain ⟨step, r⟩ := l
    obtain rfl : step = .secure (.verify id pin) := hverify
    cases hstep with
    | secure hdoes => exact (hdoes.of_verify hid hkey).2

/-- **A key locks in a session.** In any run of a session that begins in step
with the card, and whose operations on the card present to no key, each wrong value costs an attempt,
and once they are used up the key lets nobody in any more, the right value included. -/
theorem session_lock (h : KeepsSession aes answer view) (oc : OverflowChecks) (fuel : ℕ)
    (steps : List SessionStep)
    (hplain : ∀ x, .plain x ∈ steps → Card.Transmits Command.IsPlain x)
    (huntouched : ∀ x, .plain x ∈ steps → Card.Transmits (fun c => ¬ c.TouchesKeys) x)
    (hs : SameSession s (view σ)) (hsize : (view σ).app.Addressable)
    (hroom : s.counter.toNat + 0x8002 * steps.length < 2 ^ 32)
    (hid : ShortEfId.fromEfId id = .ok sfi) {key : Key} {n : ℕ}
    (hkey : (view σ).app.keys id = some key) (hleft : key.left = some n)
    {tr₁ tr₂ : List SessionEntry}
    (htr : sessionEntries aes answer view oc fuel steps s σ = tr₁ ++ tr₂)
    (hwrong : ∀ e ∈ tr₁, ∀ pin, e.2.1.presents id = some pin → pin.bytes ≠ key.value) :
    (∀ before e after, tr₁ = before ++ e :: after → (e.2.1.presents id).isSome = true →
      e.2.2 = wrongReply (n - secureAttempts id before)) ∧
    (n ≤ secureAttempts id tr₁ →
      ∀ e ∈ tr₂, (e.2.1.presents id).isSome = true → e.2.2 = .error (.err .pinBlocked)) := by
  have hsteps : ∀ e ∈ tr₁ ++ tr₂, e.2.1 ∈ steps := by
    intro e he
    have hprefix : (sessionEntries aes answer view oc fuel steps s σ).map (fun e => e.2.1) <+:
        steps := KeepsSession.sessionEntries_steps oc fuel steps s σ
    rw [htr] at hprefix
    exact hprefix.subset (List.mem_map_of_mem he)
  have hrun := (h.session_refined oc fuel steps hplain hs hsize hroom).1
  rw [htr] at hrun
  have hguarded : Execution (GuardedStep oc) (view σ).app (tr₁ ++ tr₂) _ :=
    hrun.mono fun e he b hstep => ⟨hstep, fun x hx => huntouched x (hx ▸ hsteps e he)⟩
  obtain ⟨hbefore, hafter⟩ := (session_guards oc hid).lock hguarded hkey hleft (by
    intro e he value hvalue
    obtain ⟨pin, hpin, rfl⟩ := Option.map_eq_some_iff.mp hvalue
    exact hwrong e he pin hpin)
  simp only [Option.isSome_map] at hbefore hafter
  have hreply : ∀ e ∈ tr₁ ++ tr₂, ∀ pin key', e.2.1.presents id = some pin →
      e.1.keys id = some key' → e.2.2 = (key'.present pin.bytes).1.reply [] := by
    intro e he pin key' hpin hkey'
    obtain ⟨b, hstep⟩ := hrun.step_of_mem he
    obtain ⟨a, step, r⟩ := e
    obtain rfl : step = .secure (.verify id pin) := SessionStep.eq_of_presents hpin
    cases hstep with
    | secure hdoes => exact (hdoes.of_verify hid hkey').1
  refine ⟨?_, ?_⟩
  · intro before e after htr₁ hpresents
    obtain ⟨key', hkey', hvalue, hleft'⟩ := hbefore before e after htr₁
    obtain ⟨pin, hpin⟩ := Option.isSome_iff_exists.mp hpresents
    have hmem : e ∈ tr₁ := htr₁ ▸ List.mem_append_right _ List.mem_cons_self
    have hne : pin.bytes ≠ key'.value := hvalue ▸ hwrong e hmem pin hpin
    rw [hreply e (List.mem_append_left tr₂ hmem) pin key' hpin hkey']
    exact Verdict.reply_wrong [] hne hleft'
  · intro hn e he hpresents
    obtain ⟨key', hvalue, hleft', -, hall⟩ := hafter hn
    obtain ⟨pin, hpin⟩ := Option.isSome_iff_exists.mp hpresents
    rw [hreply e (List.mem_append_right tr₁ he) pin key' hpin (hall e he),
      key'.present_of_used_up pin.bytes hleft']
    rfl

end

end MynaCard
