import MynaCard.CardPrograms
import MynaCard.CurrentEf
import MynaCard.FileReads
import MynaCard.Guarded
import MynaCard.Presentations

/-!
# A card that keeps keys

The keys of a card are in its applications, one to an internal EF, each with its retry counter. The
card lets itself be asked for a key by the EF that is current, which no command returns, and has a key
replaced only after it was presented. `KeepsKeys` says this of any party, with the status words the
crate documents, and leaves open everything else the party does.

`Vault` is the same card without the current EF: keys by application and EF identifier. What the
operations of `Card` do to it, run against such a party, is one lemma each.
-/

namespace MynaCard

open Dialogue

/-! ### Keys and the status words about them -/

/-- A key. The status word has room for a count of fifteen. -/
abbrev Key := Guarded 15 Bytes

/-- How a card reports what became of a presentation: `63C0` for the one that uses the counter up,
`6984` for every one after it. -/
def Verdict.status : Verdict → StatusWord
  | .accepted => .success
  | .refused none => ⟨0x6300⟩
  | .refused (some left) => ⟨0x63C0 + UInt16.ofNat left⟩
  | .blocked => ⟨0x6984⟩

/-- What its caller is told. -/
def Verdict.reply {α : Type} (a : α) : Verdict → Run α
  | .accepted => .ok a
  | .refused none => .error (.err (.pinIncorrect none))
  | .refused (some left) =>
    .error (.err (if left = 0 then .pinBlocked else .pinIncorrect (some (UInt8.ofNat left))))
  | .blocked => .error (.err .pinBlocked)

theorem Verdict.reply_map {α β : Type} (f : α → β) (a : α) (verdict : Verdict) :
    (verdict.reply a).map f = verdict.reply (f a) := by
  cases verdict with
  | accepted => rfl
  | blocked => rfl
  | refused left => cases left <;> rfl

/-- Whoever is not let in is told so by an error. -/
theorem Verdict.reply_error_of_ne {α : Type} (a : α) {verdict : Verdict}
    (h : verdict ≠ .accepted) : ∃ e, verdict.reply a = .error (.err e) := by
  cases verdict with
  | accepted => exact absurd rfl h
  | blocked => exact ⟨_, rfl⟩
  | refused left =>
    cases left with
    | none => exact ⟨_, rfl⟩
    | some left => exact ⟨_, rfl⟩

theorem Verdict.reply_eq_ok_iff {α : Type} (a : α) (verdict : Verdict) :
    verdict.reply a = .ok a ↔ verdict = .accepted := by
  constructor
  · intro hok
    by_contra hne
    obtain ⟨e, he⟩ := Verdict.reply_error_of_ne a hne
    rw [he] at hok
    cases hok
  · intro haccepted
    rw [haccepted]
    rfl

/-- What a wrong value is answered when `left` attempts are left. -/
def wrongReply {α : Type} (left : ℕ) : Run α :=
  .error (.err (if left ≤ 1 then .pinBlocked else .pinIncorrect (some (UInt8.ofNat (left - 1)))))

theorem Verdict.reply_wrong {α : Type} (a : α) {key : Key} {value : Bytes} {n : ℕ}
    (hne : value ≠ key.value) (hleft : key.left = some n) :
    (key.present value).1.reply a = wrongReply n := by
  rw [key.present_verdict_of_ne value hne hleft]
  unfold wrongReply
  by_cases hzero : n = 0
  · rw [if_pos hzero, if_pos (by omega)]
    rfl
  · rw [if_neg hzero]
    show Except.error (Stop.err (if n - 1 = 0 then _ else _)) = _
    by_cases hone : n ≤ 1
    · rw [if_pos hone, if_pos (by omega)]
    · rw [if_neg hone, if_neg (by omega)]

/-- The status words a query for the attempts left can be answered with. -/
def Key.Reports (key : Key) (sw : StatusWord) : Prop :=
  match key.left with
  | none => sw = ⟨0x6300⟩
  | some left => sw = ⟨0x63C0 + UInt16.ofNat left⟩ ∨ (left = 0 ∧ sw = ⟨0x6984⟩)

/-- What they say. -/
def Key.retries (key : Key) : Retries :=
  match key.left with
  | none => .unlimited
  | some left => if left = 0 then .blocked else .remaining (UInt8.ofNat left)

/-- Every status word that counts attempts is told apart. -/
theorem counted_status : ∀ left < 16,
    Error.fromStatus ⟨0x63C0 + UInt16.ofNat left⟩ =
      (if left = 0 then .pinBlocked else .pinIncorrect (some (UInt8.ofNat left))) ∧
    interpretRetries ⟨0x63C0 + UInt16.ofNat left⟩ =
      .ok (if left = 0 then .blocked else .remaining (UInt8.ofNat left)) ∧
    StatusWord.isSuccess ⟨0x63C0 + UInt16.ofNat left⟩ = false := by
  decide

theorem Key.left_lt (key : Key) {left : ℕ} (h : key.left = some left) : left < 16 := by
  obtain ⟨c, -, rfl⟩ := Option.map_eq_some_iff.mp h
  exact Nat.lt_succ_of_le c.left_le_bound

theorem Key.refused_lt {key : Key} {value : Bytes} {left : ℕ}
    (h : (key.present value).1 = .refused (some left)) : left < 16 := by
  cases hleft : key.left with
  | none =>
    have hcounter : key.counter = none := by simpa [Guarded.left] using hleft
    rw [Guarded.present, hcounter] at h
    dsimp only at h
    split at h <;> cases h
  | some n =>
    by_cases hvalue : value = key.value
    · by_cases hzero : n = 0
      · rw [key.present_of_used_up value (hzero ▸ hleft)] at h
        cases h
      · rw [(key.present_accepted_iff value).mpr ⟨hvalue, by simpa [hleft] using hzero⟩] at h
        cases h
    · rw [key.present_verdict_of_ne value hvalue hleft] at h
      split at h
      · cases h
      · have hn := key.left_lt hleft
        obtain rfl : n - 1 = left := by simpa using h
        omega

/-- A presentation's status word tells the caller its verdict. -/
theorem Key.intoData_present (key : Key) (value data : Bytes) :
    (Response.mk data (key.present value).1.status).intoData = (key.present value).1.reply data := by
  cases hverdict : (key.present value).1 with
  | accepted => rfl
  | blocked => rfl
  | refused left =>
    cases left with
    | none => rfl
    | some left =>
      obtain ⟨hfrom, -, hsuccess⟩ := counted_status left (Key.refused_lt hverdict)
      show (if StatusWord.isSuccess ⟨0x63C0 + UInt16.ofNat left⟩ then Except.ok data
        else .error (Stop.err (.fromStatus ⟨0x63C0 + UInt16.ofNat left⟩))) = _
      rw [hsuccess, hfrom]
      rfl

/-- A presentation is answered `9000` exactly if it is accepted. -/
theorem Key.present_status_iff (key : Key) (value : Bytes) :
    (key.present value).1.status = .success ↔ (key.present value).1 = .accepted := by
  constructor
  · intro hstatus
    have hdata := key.intoData_present value []
    rw [hstatus] at hdata
    exact (Verdict.reply_eq_ok_iff [] _).mp hdata.symm
  · intro haccepted
    rw [haccepted]
    rfl

theorem Key.interpretRetries_reports {key : Key} {sw : StatusWord} (h : key.Reports sw) :
    interpretRetries sw = .ok key.retries := by
  unfold Key.Reports at h
  unfold Key.retries
  cases hleft : key.left with
  | none =>
    rw [hleft] at h
    dsimp only at h ⊢
    rw [h]
    rfl
  | some left =>
    rw [hleft] at h
    dsimp only at h ⊢
    obtain rfl | ⟨rfl, rfl⟩ := h
    · exact (counted_status left (key.left_lt hleft)).2.1
    · rfl

/-! ### The vault -/

/-- Keys by application and EF, and the application that is selected. -/
structure Vault where
  df : Bytes
  keys : Bytes → UInt16 → Option Key

namespace Vault

variable (v : Vault)

/-- The key of an EF of the selected application. -/
def key (id : UInt16) : Option Key := v.keys v.df id

/-- Select another application. -/
def enter (name : Bytes) : Vault := { v with df := name }

/-- Put a key in an EF of the selected application. -/
def set (id : UInt16) (k : Key) : Vault :=
  { v with keys := Function.update v.keys v.df (Function.update (v.keys v.df) id (some k)) }

@[simp] theorem set_df (id : UInt16) (k : Key) : (v.set id k).df = v.df := rfl

@[simp] theorem enter_keys (name : Bytes) : (v.enter name).keys = v.keys := rfl

/-- Putting a key in an EF changes that EF. -/
theorem keys_set (id : UInt16) (k : Key) (df : Bytes) (id' : UInt16) :
    (v.set id k).keys df id' = if df = v.df ∧ id' = id then some k else v.keys df id' := by
  unfold set
  by_cases hdf : df = v.df
  · subst hdf
    by_cases hid : id' = id
    · simp [hid]
    · simp [hid]
  · simp [hdf]

@[simp] theorem key_set_self (id : UInt16) (k : Key) : (v.set id k).key id = some k := by
  rw [key, keys_set, if_pos ⟨rfl, rfl⟩]

@[simp] theorem set_set (id : UInt16) (k k' : Key) : (v.set id k).set id k' = v.set id k' := by
  unfold set
  simp

end Vault

/-! ### The card -/

/-- What a card that keeps keys is at. -/
structure KeyCard where
  vault : Vault
  /-- the EF that is current -/
  current : Option UInt16
  /-- whether the key of the current EF was presented and accepted -/
  verified : Bool

/-- The EF that P2 of a VERIFY names: the current one, or one by its short identifier. -/
def KeyCard.named (card : KeyCard) (p2 : UInt8) : Option UInt16 :=
  if p2 = 0x80 then card.current
  else if 0x80 < p2 ∧ p2 ≤ 0x9E then some (p2 - 0x80).toUInt16
  else none

/-- A VERIFY that carries a value, or a command that replaces a key. -/
def Command.TouchesKeys (c : Command) : Prop := (c.ins = Ins.verify ∧ c.data ≠ []) ∨ c.IsChange

/-- SELECT FILE of an application by its name. -/
def Command.EntersDf (c : Command) : Prop := c.ins = Ins.selectFile ∧ c.p1 = 0x04

/-- A command that leaves the keys and the selected application alone. -/
def Command.LeavesVault (c : Command) : Prop := ¬ c.TouchesKeys ∧ ¬ c.EntersDf

theorem Command.leavesVault_of_ins {c : Command} (ins : UInt8) (hins : c.ins = ins)
    (h : ins ∉ [Ins.verify, Ins.changeReferenceData, Ins.changeKey, Ins.selectFile]) :
    c.LeavesVault := by
  subst hins
  simp only [List.mem_cons, List.not_mem_nil, or_false, not_or] at h
  obtain ⟨hverify, hreference, hkey, hselect⟩ := h
  refine ⟨?_, fun henters => hselect henters.1⟩
  intro htouches
  obtain ⟨hins, -⟩ | hins | hins := htouches
  · exact hverify hins
  · exact hreference hins
  · exact hkey hins

theorem Command.Inspects.leavesVault {c : Command} (h : c.Inspects) : c.LeavesVault := by
  obtain h | h | ⟨hins, hdata⟩ := h
  · exact leavesVault_of_ins _ h (by decide)
  · exact leavesVault_of_ins _ h (by decide)
  · refine ⟨?_, ?_⟩
    · intro htouches
      obtain ⟨-, hne⟩ | hchange | hchange := htouches
      · exact hne hdata
      · rw [hins] at hchange
        revert hchange
        decide
      · rw [hins] at hchange
        revert hchange
        decide
    · intro henters
      have hselect := henters.1
      rw [hins] at hselect
      revert hselect
      decide

theorem leavesVault_selectEf (id : UInt16) :
    (Command.withData Cla.user Ins.selectFile 0x02 0x0C (u16Bytes id)).LeavesVault := by
  refine ⟨?_, ?_⟩
  · intro htouches
    obtain ⟨hins, -⟩ | hins | hins := htouches
    all_goals
      revert hins
      show ¬ Ins.selectFile = _
      decide
  · intro henters
    have hp1 := henters.2
    revert hp1
    show ¬ (0x02 : UInt8) = 0x04
    decide

section

variable {τ : Type}

/-- The party answers the command with a response that asks for nothing more. -/
def Answers (answer : Bytes → τ → Answer × τ) (s : τ) (c : Command) (post : Response → τ → Prop) :
    Prop :=
  ∃ r s', answer c.encoding s = (.ok r.toBytes, s') ∧ r.status.correctLe = none ∧
    r.status.moreDataAvailable = none ∧ post r s'

/-- The party keeps keys as the card does that it is seen to be. It may turn down a new key, may
answer a query with `9000`, and does what it likes with every other command, but for the keys. -/
structure KeepsKeys (answer : Bytes → τ → Answer × τ) (view : τ → KeyCard) : Prop where
  selectDf : ∀ s name, name ≠ [] → name.length ≤ 16 →
    Answers answer s (.withData Cla.user Ins.selectFile 0x04 0x0C name) fun r s' =>
      (view s').vault =
        if r.status = .success then (view s).vault.enter name else (view s).vault
  selectEf : ∀ s id,
    Answers answer s (.withData Cla.user Ins.selectFile 0x02 0x0C (u16Bytes id)) fun r s' =>
      (r.status = .success → (view s').current = some id) ∧
        ((view s).vault.key id ≠ none → r.status = .success)
  present : ∀ s p2 id key value, (view s).named p2 = some id →
    (view s).vault.key id = some key → value ≠ [] → value.length ≤ 16 →
      Answers answer s (Card.verifyCommand p2 value) fun r s' =>
        r.status = (key.present value).1.status ∧
        (view s').vault = (view s).vault.set id (key.present value).2 ∧
        ((key.present value).1 = .accepted →
          (view s').current = some id ∧ (view s').verified = true)
  presentNothing : ∀ s p2 id value, (view s).named p2 = some id → (view s).vault.key id = none →
    value ≠ [] → value.length ≤ 16 →
      Answers answer s (Card.verifyCommand p2 value) fun r s' =>
        r.status ≠ .success ∧ (view s').vault = (view s).vault
  query : ∀ s p2 id key, (view s).named p2 = some id → (view s).vault.key id = some key →
    Answers answer s (.new Cla.user Ins.verify 0x00 p2) fun r _ =>
      key.Reports r.status ∨ r.status = .success
  replace : ∀ s c id key new, (view s).current = some id → (view s).verified = true →
    (view s).vault.key id = some key → new ≠ [] → new.length ≤ 16 →
    c = .withData Cla.user Ins.changeReferenceData 0x01 0x80 new ∨
      c = .withData Cla.system Ins.changeKey 0x00 0x80 new →
      Answers answer s c fun r s' =>
        (view s').vault =
          if r.status = .success then (view s).vault.set id (key.replace new)
          else (view s).vault
  other : ∀ s apdu, Encodes Command.LeavesVault apdu →
    (view (answer apdu s).2).vault = (view s).vault

/-! ### Operations of `Card` -/

variable {answer : Bytes → τ → Answer × τ} {view : τ → KeyCard} {s : τ} (fuel : ℕ)

theorem Answers.call {c : Command} {post : Response → τ → Prop} (h : Answers answer s c post)
    (hv : c.Valid) : ∃ r s', (Card.call fuel c).run.run answer s = (.ok r, s') ∧ post r s' := by
  obtain ⟨r, s', hanswer, hle, hmore, hpost⟩ := h
  exact ⟨r, s', Card.call_run_final fuel hv hanswer hle hmore, hpost⟩

theorem Answers.callOk {c : Command} {post : Response → τ → Prop} (h : Answers answer s c post)
    (hv : c.Valid) :
    ∃ r s', (Card.callOk fuel c).run.run answer s = (r.intoData, s') ∧ post r s' := by
  obtain ⟨r, s', hanswer, hle, hmore, hpost⟩ := h
  exact ⟨r, s', Card.callOk_run_final fuel hv hanswer hle hmore, hpost⟩

theorem withData_valid {cla ins p1 p2 : UInt8} {data : Bytes} (h : data.length ≤ 16) :
    (Command.withData cla ins p1 p2 data).Valid :=
  ⟨h.trans (by decide), by simp [Command.withData]⟩

/-- A call whose data nobody looks at. -/
theorem run_ignored {α : Type} {x : CardM α} {r : Run α} {s' : τ}
    (h : x.run.run answer s = (r, s')) :
    (x >>= fun _ => (pure () : CardM Unit)).run.run answer s = (r.map fun _ => (), s') := by
  cases r with
  | ok a => exact (run_bind_ok h).trans rfl
  | error stop => exact (run_bind_error h).trans rfl

theorem intoData_of_ne {r : Response} (h : r.status ≠ .success) :
    r.intoData = .error (.err (.fromStatus r.status)) := by
  rw [Response.intoData, if_neg (mt r.status.isSuccess_iff.mp h)]

theorem intoData_of_success {r : Response} (h : r.status = .success) : r.intoData = .ok r.data :=
  Response.intoData_eq_ok.mpr ⟨h, rfl⟩

/-- What a command that takes effect exactly when it is answered `9000` returns. -/
theorem effect_of_status {r : Response} {v w w' : Vault}
    (h : w' = if r.status = .success then v else w) :
    (r.intoData.map (fun _ => ()) = .ok () ∧ w' = v) ∨
      ((∃ e, r.intoData.map (fun _ => ()) = .error (.err e)) ∧ w' = w) := by
  by_cases hstatus : r.status = .success
  · rw [if_pos hstatus] at h
    exact .inl ⟨by rw [intoData_of_success hstatus]; rfl, h⟩
  · rw [if_neg hstatus] at h
    exact .inr ⟨⟨_, by rw [intoData_of_ne hstatus]; rfl⟩, h⟩

/-- A name that `select_df` does not refuse. -/
theorem dfName_of_taken {name : Bytes} (h : ¬ (name.isEmpty ∨ name.length > 16)) :
    name ≠ [] ∧ name.length ≤ 16 := by
  constructor
  · intro hnil
    exact h (.inl (by rw [hnil]; rfl))
  · by_contra hlong
    exact h (.inr (by omega))

namespace KeepsKeys

variable (h : KeepsKeys answer view)

include h

/-- An operation none of whose commands is about keys. -/
theorem run_leaves {α : Type} {P : Command → Prop} {x : CardM α} (hx : Card.Transmits P x)
    (hP : ∀ c, P c → c.LeavesVault) :
    (view (x.run.run answer s).2).vault = (view s).vault := by
  refine run_keeps (P := fun apdu => ∃ c : Command, c.Valid ∧ P c ∧ Card.FromCall c apdu)
    (I := fun t => (view t).vault = (view s).vault) hx ?_ rfl
  intro apdu t hapdu ht
  obtain ⟨c, hv, hc, hfrom⟩ := hapdu
  rw [h.other t apdu ?_, ht]
  obtain ⟨c', hc', hget | ⟨le, rfl⟩⟩ := decoded_fromCall hv hfrom
  · exact ⟨c', hc', Command.leavesVault_of_ins _ hget (by decide)⟩
  · exact ⟨_, hc', hP c hc⟩

/-- SELECT FILE of an application: it is entered, or everything stays as it is. -/
theorem selectDf_run (name : Bytes) :
    ∃ r s', (Card.selectDf fuel name).run.run answer s = (r, s') ∧
      ((r = .ok () ∧ (view s').vault = (view s).vault.enter name) ∨
        ((∃ e, r = .error (.err e)) ∧ (view s').vault = (view s).vault)) := by
  unfold Card.selectDf
  by_cases hname : name.isEmpty ∨ name.length > 16
  · rw [if_pos hname]
    exact ⟨_, s, run_bind_error rfl, .inr ⟨⟨_, rfl⟩, rfl⟩⟩
  · obtain ⟨hne, hle⟩ := dfName_of_taken hname
    obtain ⟨r, s', hrun, hvault⟩ := (h.selectDf s name hne hle).callOk fuel (withData_valid hle)
    rw [if_neg hname]
    exact ⟨_, s', run_ignored hrun, effect_of_status hvault⟩

/-- SELECT FILE of an EF. It can only fail if there is no key in it. -/
theorem selectEf_run (id : UInt16) :
    ∃ r s', (Card.selectEf fuel id).run.run answer s = (r, s') ∧
      (view s').vault = (view s).vault ∧
      ((r = .ok () ∧ (view s').current = some id) ∨
        ((∃ e, r = .error (.err e)) ∧ (view s).vault.key id = none)) := by
  have hv : (Command.withData Cla.user Ins.selectFile 0x02 0x0C (u16Bytes id)).Valid :=
    withData_valid (by simp)
  obtain ⟨r, s', hrun, hcurrent, hkey⟩ := (h.selectEf s id).callOk fuel hv
  have hvault : (view s').vault = (view s).vault := by
    have hkept := h.run_leaves (s := s) (Card.transmits_callOk fuel (P := (· =
      Command.withData Cla.user Ins.selectFile 0x02 0x0C (u16Bytes id))) rfl) ?_
    · rwa [hrun] at hkept
    · intro c hc
      exact hc ▸ leavesVault_selectEf id
  refine ⟨_, s', run_ignored hrun, hvault, ?_⟩
  by_cases hstatus : r.status = .success
  · exact .inl ⟨by rw [intoData_of_success hstatus]; rfl, hcurrent hstatus⟩
  · refine .inr ⟨⟨_, by rw [intoData_of_ne hstatus]; rfl⟩, ?_⟩
    by_contra hne
    exact hstatus (hkey hne)

/-- A VERIFY of a key. -/
theorem present_run {p2 : UInt8} {id : UInt16} {key : Key} (pin : Pin)
    (hnamed : (view s).named p2 = some id) (hkey : (view s).vault.key id = some key) :
    ∃ s', (Card.callOk fuel (Card.verifyCommand p2 pin.bytes) >>= fun _ =>
        (pure () : CardM Unit)).run.run answer s = ((key.present pin.bytes).1.reply (), s') ∧
      (view s').vault = (view s).vault.set id (key.present pin.bytes).2 ∧
      ((key.present pin.bytes).1 = .accepted →
        (view s').current = some id ∧ (view s').verified = true) := by
  obtain ⟨r, s', hrun, hstatus, hvault, haccepted⟩ :=
    (h.present s p2 id key pin.bytes hnamed hkey pin.ne_nil pin.length_le).callOk fuel
      (pin_verify_valid p2 pin)
  have hdata : r.intoData = (key.present pin.bytes).1.reply r.data := by
    rw [← key.intoData_present, ← hstatus]
  refine ⟨s', ?_, hvault, haccepted⟩
  rw [run_ignored hrun, hdata, Verdict.reply_map]

/-- A VERIFY that names an EF with no key in it. -/
theorem presentNothing_run {p2 : UInt8} {id : UInt16} (pin : Pin)
    (hnamed : (view s).named p2 = some id) (hkey : (view s).vault.key id = none) :
    ∃ e s', (Card.callOk fuel (Card.verifyCommand p2 pin.bytes) >>= fun _ =>
        (pure () : CardM Unit)).run.run answer s = (.error (.err e), s') ∧
      (view s').vault = (view s).vault := by
  obtain ⟨r, s', hrun, hstatus, hvault⟩ :=
    (h.presentNothing s p2 id pin.bytes hnamed hkey pin.ne_nil pin.length_le).callOk fuel
      (pin_verify_valid p2 pin)
  exact ⟨_, s', by rw [run_ignored hrun, intoData_of_ne hstatus]; rfl, hvault⟩

/-- A query for the attempts left on a key. -/
theorem query_run {p2 : UInt8} {id : UInt16} {key : Key} (hnamed : (view s).named p2 = some id)
    (hkey : (view s).vault.key id = some key) :
    ∃ retries s', (Card.call fuel (.new Cla.user Ins.verify 0x00 p2) >>= fun response =>
        (liftM (interpretRetries response.status) : CardM Retries)).run.run answer s =
          (.ok retries, s') ∧ (retries = key.retries ∨ retries = .notReported) := by
  have hv : (Command.new Cla.user Ins.verify 0x00 p2).Valid :=
    ⟨Nat.zero_le _, by simp [Command.new]⟩
  obtain ⟨r, s', hrun, hreports | hsuccess⟩ := (h.query s p2 id key hnamed hkey).call fuel hv
  · refine ⟨key.retries, s', ?_, .inl rfl⟩
    rw [run_bind_ok hrun, Key.interpretRetries_reports hreports]
    rfl
  · refine ⟨.notReported, s', ?_, .inr rfl⟩
    rw [run_bind_ok hrun, hsuccess]
    rfl

/-- A command that replaces the key of the current EF. -/
theorem replace_run {c : Command} {id : UInt16} {key : Key} (newPin : Pin)
    (hcurrent : (view s).current = some id) (hverified : (view s).verified = true)
    (hkey : (view s).vault.key id = some key)
    (hc : c = .withData Cla.user Ins.changeReferenceData 0x01 0x80 newPin.bytes ∨
      c = .withData Cla.system Ins.changeKey 0x00 0x80 newPin.bytes) :
    ∃ r s', (Card.callOk fuel c >>= fun _ => (pure () : CardM Unit)).run.run answer s = (r, s') ∧
      ((r = .ok () ∧ (view s').vault = (view s).vault.set id (key.replace newPin.bytes)) ∨
        ((∃ e, r = .error (.err e)) ∧ (view s').vault = (view s).vault)) := by
  have hv : c.Valid := by
    obtain rfl | rfl := hc
    · exact withData_valid newPin.length_le
    · exact withData_valid newPin.length_le
  obtain ⟨r, s', hrun, hvault⟩ :=
    (h.replace s c id key newPin.bytes hcurrent hverified hkey newPin.ne_nil newPin.length_le
      hc).callOk fuel hv
  exact ⟨_, s', run_ignored hrun, effect_of_status hvault⟩

end KeepsKeys

end

/-! ### One such card -/

namespace KeyCard

/-- What a card with the applications of `apps` answers to a command, and the card afterwards. It
takes any new key, and any command it does not know succeeds. -/
def respond (apps : List Bytes) (c : Command) (card : KeyCard) : Response × KeyCard :=
  if c.ins = Ins.selectFile then
    if c.p1 = 0x04 then
      if c.data ∈ apps then (⟨[], .success⟩, ⟨card.vault.enter c.data, none, false⟩)
      else (⟨[], ⟨0x6A82⟩⟩, card)
    else
      (⟨[], .success⟩, ⟨card.vault, some (UInt16.ofNat (bigEndian c.data)), false⟩)
  else if c.ins = Ins.verify then
    match card.named c.p2 with
    | none => (⟨[], ⟨0x6985⟩⟩, card)
    | some id =>
      match card.vault.key id with
      | none => (⟨[], ⟨0x6A88⟩⟩, card)
      | some key =>
        if c.data = [] then
          (⟨[], key.left.elim ⟨0x6300⟩ fun left => ⟨0x63C0 + UInt16.ofNat left⟩⟩, card)
        else
          (⟨[], (key.present c.data).1.status⟩, ⟨card.vault.set id (key.present c.data).2, some id,
            (key.present c.data).1 = .accepted⟩)
  else if c.ins = Ins.changeReferenceData ∨ c.ins = Ins.changeKey then
    match card.current with
    | none => (⟨[], ⟨0x6985⟩⟩, card)
    | some id =>
      match card.vault.key id with
      | none => (⟨[], ⟨0x6A88⟩⟩, card)
      | some key =>
        if card.verified then
          (⟨[], .success⟩, { card with vault := card.vault.set id (key.replace c.data) })
        else (⟨[], ⟨0x6982⟩⟩, card)
  else (⟨[], .success⟩, card)

/-- The card as the other end of a transport. -/
def transmit (apps : List Bytes) (apdu : Bytes) (card : KeyCard) : Answer × KeyCard :=
  match isoDecode apdu with
  | some (_, c) => (.ok (respond apps c card).1.toBytes, (respond apps c card).2)
  | none => (.ok (Response.toBytes ⟨[], ⟨0x6700⟩⟩), card)

variable (apps : List Bytes) (card : KeyCard)

theorem answers_of_respond {c : Command} {r : Response} {card' : KeyCard}
    {post : Response → KeyCard → Prop} (hv : c.Valid) (h : respond apps c card = (r, card'))
    (hfinal : r.status.correctLe = none ∧ r.status.moreDataAvailable = none) (hpost : post r card') :
    Answers (transmit apps) card c post := by
  refine ⟨r, card', ?_, hfinal.1, hfinal.2, hpost⟩
  rw [transmit, Command.isoDecode_encoding hv]
  dsimp only
  rw [h]

theorem counted_final : ∀ left < 16,
    StatusWord.correctLe ⟨0x63C0 + UInt16.ofNat left⟩ = none ∧
      StatusWord.moreDataAvailable ⟨0x63C0 + UInt16.ofNat left⟩ = none := by
  decide

theorem verdict_final (key : Key) (value : Bytes) :
    (key.present value).1.status.correctLe = none ∧
      (key.present value).1.status.moreDataAvailable = none := by
  cases hverdict : (key.present value).1 with
  | accepted => exact ⟨rfl, rfl⟩
  | blocked => exact ⟨rfl, rfl⟩
  | refused left =>
    cases left with
    | none => exact ⟨rfl, rfl⟩
    | some left => exact counted_final left (Key.refused_lt hverdict)

/-- What the card answers to a VERIFY. -/
theorem respond_ofVerify {c : Command} {id : UInt16} (hins : c.ins = Ins.verify)
    (hnamed : card.named c.p2 = some id) :
    respond apps c card =
      match card.vault.key id with
      | none => (⟨[], ⟨0x6A88⟩⟩, card)
      | some key =>
        if c.data = [] then
          (⟨[], key.left.elim ⟨0x6300⟩ fun left => ⟨0x63C0 + UInt16.ofNat left⟩⟩, card)
        else
          (⟨[], (key.present c.data).1.status⟩, ⟨card.vault.set id (key.present c.data).2, some id,
            (key.present c.data).1 = .accepted⟩) := by
  rw [respond, if_neg (by rw [hins]; decide), if_pos hins, hnamed]

theorem respond_verify {p2 : UInt8} {id : UInt16} {key : Key} {value : Bytes} (hne : value ≠ [])
    (hnamed : card.named p2 = some id) (hkey : card.vault.key id = some key) :
    respond apps (Card.verifyCommand p2 value) card =
      (⟨[], (key.present value).1.status⟩, ⟨card.vault.set id (key.present value).2, some id,
        (key.present value).1 = .accepted⟩) := by
  rw [respond_ofVerify apps card (c := Card.verifyCommand p2 value) rfl hnamed, hkey]
  exact if_neg hne

theorem respond_noKey {p2 : UInt8} {id : UInt16} (value : Bytes) (hnamed : card.named p2 = some id)
    (hkey : card.vault.key id = none) :
    respond apps (Card.verifyCommand p2 value) card = (⟨[], ⟨0x6A88⟩⟩, card) := by
  rw [respond_ofVerify apps card (c := Card.verifyCommand p2 value) rfl hnamed, hkey]

theorem respond_query {p2 : UInt8} {id : UInt16} {key : Key} (hnamed : card.named p2 = some id)
    (hkey : card.vault.key id = some key) :
    respond apps (.new Cla.user Ins.verify 0x00 p2) card =
      (⟨[], key.left.elim ⟨0x6300⟩ fun left => ⟨0x63C0 + UInt16.ofNat left⟩⟩, card) := by
  rw [respond_ofVerify apps card (c := .new Cla.user Ins.verify 0x00 p2) rfl hnamed, hkey]
  exact if_pos rfl

theorem respond_vault {c : Command} (hc : c.LeavesVault) :
    (respond apps c card).2.vault = card.vault := by
  unfold respond
  split
  · rename_i hselect
    rw [if_neg fun hp1 => hc.2 ⟨hselect, hp1⟩]
  · split
    · rename_i hverify
      have hdata : c.data = [] := by
        by_contra hne
        exact hc.1 (.inl ⟨hverify, hne⟩)
      split
      · rfl
      · split
        · rfl
        · rw [if_pos hdata]
    · rw [if_neg (show ¬ (c.ins = Ins.changeReferenceData ∨ c.ins = Ins.changeKey) from
        fun hchange => hc.1 (.inr hchange))]

/-- The card keeps its keys. -/
theorem transmit_keepsKeys : KeepsKeys (transmit apps) fun card => card where
  selectDf card name hne hle := by
    have hrespond : respond apps (.withData Cla.user Ins.selectFile 0x04 0x0C name) card =
        if name ∈ apps then (⟨[], .success⟩, ⟨card.vault.enter name, none, false⟩)
        else (⟨[], ⟨0x6A82⟩⟩, card) := rfl
    by_cases hmem : name ∈ apps
    · rw [if_pos hmem] at hrespond
      exact answers_of_respond apps card (withData_valid hle) hrespond ⟨rfl, rfl⟩ rfl
    · rw [if_neg hmem] at hrespond
      exact answers_of_respond apps card (withData_valid hle) hrespond ⟨rfl, rfl⟩ rfl
  selectEf card id := by
    have hrespond : respond apps (.withData Cla.user Ins.selectFile 0x02 0x0C (u16Bytes id)) card =
        (⟨[], .success⟩, ⟨card.vault, some id, false⟩) := by
      have hid : UInt16.ofNat (bigEndian (u16Bytes id)) = id := by
        rw [bigEndian_u16Bytes, UInt16.ofNat_toNat]
      show (_, KeyCard.mk card.vault (some (UInt16.ofNat (bigEndian (u16Bytes id)))) false) = _
      rw [hid]
    exact answers_of_respond apps card (withData_valid (by simp)) hrespond ⟨rfl, rfl⟩
      ⟨fun _ => rfl, fun _ => rfl⟩
  present card p2 id key value hnamed hkey hne hle :=
    answers_of_respond apps card (withData_valid hle) (respond_verify apps card hne hnamed hkey)
      (verdict_final key value) ⟨rfl, rfl, fun haccepted => ⟨rfl, decide_eq_true haccepted⟩⟩
  presentNothing card p2 id value hnamed hkey hne hle := by
    have hrespond := respond_noKey apps card value hnamed hkey
    refine answers_of_respond apps card (withData_valid hle) hrespond ⟨rfl, rfl⟩ ⟨?_, rfl⟩
    show ¬ (⟨0x6A88⟩ : StatusWord) = .success
    decide
  query card p2 id key hnamed hkey := by
    have hrespond := respond_query apps card hnamed hkey
    have hv : (Command.new Cla.user Ins.verify 0x00 p2).Valid :=
      ⟨Nat.zero_le _, by simp [Command.new]⟩
    cases hleft : key.left with
    | none =>
      rw [hleft] at hrespond
      refine answers_of_respond apps card hv hrespond ⟨rfl, rfl⟩ (.inl ?_)
      rw [Key.Reports, hleft]
      rfl
    | some left =>
      rw [hleft] at hrespond
      refine answers_of_respond apps card hv hrespond (counted_final left (key.left_lt hleft))
        (.inl ?_)
      rw [Key.Reports, hleft]
      exact .inl rfl
  replace card c id key new hcurrent hverified hkey hne hle hc := by
    obtain ⟨hv, hselect, hverify, hchange, hdata⟩ : c.Valid ∧ c.ins ≠ Ins.selectFile ∧
        c.ins ≠ Ins.verify ∧ (c.ins = Ins.changeReferenceData ∨ c.ins = Ins.changeKey) ∧
        c.data = new := by
      obtain rfl | rfl := hc
      · exact ⟨withData_valid hle, by show Ins.changeReferenceData ≠ _; decide,
          by show Ins.changeReferenceData ≠ _; decide, .inl rfl, rfl⟩
      · exact ⟨withData_valid hle, by show Ins.changeKey ≠ _; decide,
          by show Ins.changeKey ≠ _; decide, .inr rfl, rfl⟩
    have hrespond : respond apps c card =
        (⟨[], .success⟩, { card with vault := card.vault.set id (key.replace new) }) := by
      rw [respond, if_neg hselect, if_neg hverify, if_pos hchange, hcurrent]
      dsimp only
      rw [hkey]
      dsimp only
      rw [if_pos hverified, hdata]
    exact answers_of_respond apps card hv hrespond ⟨rfl, rfl⟩ rfl
  other card apdu hapdu := by
    obtain ⟨c, hc, hleaves⟩ := hapdu
    unfold decoded at hc
    obtain ⟨p, hp, rfl⟩ := Option.map_eq_some_iff.mp hc
    rw [transmit, hp]
    exact respond_vault apps card hleaves

end KeyCard

end MynaCard
