import MynaCard.KeyRuns
import MynaCard.WrapperRuns

/-!
# A card whose keys open its files

The security status of a card, as the crate documents it: a key that is presented and accepted stays
unlocked while its application is the selected one, selecting the same application once more included,
and leaving the application locks everything again. An EF with a file can be read by everyone or once
one of its keys is unlocked, and answers `6982` otherwise.

`GuardsFiles` says this of any party that keeps keys. It leaves open whether a wrong value locks a key
that is unlocked. What an operation of a wrapper does to the security status is `Unlocking`.
-/

namespace MynaCard

open Dialogue

/-! ### Files and the keys that open them -/

/-- The files in the EFs of a card's applications, and the keys any one of which opens an EF. An EF
without any is open to everyone. -/
structure Holdings where
  files : Bytes → UInt16 → Option Bytes
  openers : Bytes → UInt16 → List UInt16

/-- Whether an EF can be read, by the keys that are unlocked. -/
def Holdings.Open (held : Holdings) (df : Bytes) (id : UInt16) (unlocked : Set UInt16) : Prop :=
  held.openers df id = [] ∨ ∃ k ∈ held.openers df id, k ∈ unlocked

/-- The EF is current, in this application. -/
def KeyCard.On (card : KeyCard) (df : Bytes) (id : UInt16) : Prop :=
  card.vault.df = df ∧ card.current = some id

/-- What the presentation of a key does to the security status. -/
structure Unlocks (id : UInt16) (accepted : Prop) (before after : Set UInt16) : Prop where
  others : ∀ k, k ≠ id → (k ∈ after ↔ k ∈ before)
  accepts : accepted → id ∈ after
  refuses : ¬ accepted → id ∈ after → id ∈ before

/-- The same of a value for the key of an EF, if there is one. -/
def Vault.Presented (v : Vault) (id : UInt16) (value : Bytes) (before after : Set UInt16) : Prop :=
  match v.key id with
  | none => after = before
  | some key => Unlocks id ((key.present value).1 = .accepted) before after

theorem Vault.Presented.other {v : Vault} {id k : UInt16} {value : Bytes} {before after : Set UInt16}
    (h : v.Presented id value before after) (hne : k ≠ id) : k ∈ after ↔ k ∈ before := by
  unfold Vault.Presented at h
  cases hkey : v.key id with
  | none =>
    rw [hkey] at h
    exact Set.ext_iff.mp h k
  | some key =>
    rw [hkey] at h
    exact h.others k hne

section

variable {τ : Type}

/-- The party keeps keys, and files that open to them. -/
structure GuardsFiles (held : Holdings) (answer : Bytes → τ → Answer × τ) (view : τ → KeyCard)
    (unlocked : τ → Set UInt16) : Prop extends KeepsKeys answer view where
  enters : ∀ s name, name ≠ [] → name.length ≤ 16 →
    let s' := (answer (Command.withData Cla.user Ins.selectFile 0x04 0x0C name).encoding s).2
    unlocked s' = if (view s').vault.df = (view s).vault.df then unlocked s else ∅
  presents : ∀ s p2 id value, (view s).named p2 = some id → value ≠ [] → value.length ≤ 16 →
    (view s).vault.Presented id value (unlocked s)
      (unlocked (answer (Card.verifyCommand p2 value).encoding s).2)
  others : ∀ s apdu, Encodes (fun c => c.LeavesVault ∨ c.IsChange) apdu →
    unlocked (answer apdu s).2 = unlocked s
  holds : ∀ s id r s', held.files (view s).vault.df id ≠ none →
    answer (Command.withData Cla.user Ins.selectFile 0x02 0x0C (u16Bytes id)).encoding s =
      (.ok (Response.toBytes r), s') → r.status = .success
  reads : ∀ df id file, held.files df id = some file →
    ReadsBy (InFull file) answer fun s => (view s).On df id ∧ held.Open df id (unlocked s)
  refusesToRead : ∀ df id file, held.files df id = some file →
    ReadsBy (fun _ _ r => r = ⟨[], ⟨0x6982⟩⟩) answer fun s =>
      (view s).On df id ∧ ¬ held.Open df id (unlocked s)

/-! ### The security status through an operation -/

/-- What a request does to the security status. -/
def Unlocking (v v' : Vault) (before after : Set UInt16) : KeyRequest → Prop
  | .enter _ => after = if v'.df = v.df then before else ∅
  | .present id value | .replace id value _ => v.Presented id value.bytes before after
  | .query _ | .nothing => after = before

variable {held : Holdings} {answer : Bytes → τ → Answer × τ} {view : τ → KeyCard}
  {unlocked : τ → Set UInt16} {s : τ} (fuel : ℕ)

/-- The party after a call is the one after its command. -/
theorem Answers.callOk_state {c : Command} {post : Response → τ → Prop}
    (h : Answers answer s c post) (hv : c.Valid) :
    ((Card.callOk fuel c).run.run answer s).2 = (answer c.encoding s).2 := by
  obtain ⟨r, s', hanswer, hle, hmore, -⟩ := h
  rw [Card.callOk_run_final fuel hv hanswer hle hmore, hanswer]

/-- A value that is dropped leaves the party as it is. -/
theorem run_ignored_state {α : Type} (x : CardM α) :
    ((x >>= fun _ => (pure () : CardM Unit)).run.run answer s).2 = (x.run.run answer s).2 :=
  congrArg Prod.snd (run_ignored (r := (x.run.run answer s).1) rfl)

namespace GuardsFiles

variable (h : GuardsFiles held answer view unlocked)

include h

/-- An operation none of whose commands presents a key or selects an application. -/
theorem run_others {α : Type} {P : Command → Prop} {x : CardM α} (hx : Card.Transmits P x)
    (hP : ∀ c, P c → c.LeavesVault ∨ c.IsChange) :
    unlocked (x.run.run answer s).2 = unlocked s := by
  refine run_keeps (P := fun apdu => ∃ c : Command, c.Valid ∧ P c ∧ Card.FromCall c apdu)
    (I := fun t => unlocked t = unlocked s) hx ?_ rfl
  intro apdu t hapdu ht
  obtain ⟨c, hv, hc, hfrom⟩ := hapdu
  refine (h.others t apdu ?_).trans ht
  obtain ⟨c', hc', hget | ⟨le, rfl⟩⟩ := decoded_fromCall hv hfrom
  · exact ⟨c', hc', .inl (Command.leavesVault_of_ins _ hget (by decide))⟩
  · exact ⟨_, hc', hP c hc⟩

theorem run_leaves_unlocked {α : Type} {x : CardM α}
    (hx : Card.Transmits Command.LeavesVault x) :
    unlocked (x.run.run answer s).2 = unlocked s :=
  h.run_others hx fun _ => .inl

theorem selectDf_unlocked (name : Bytes) :
    let s' := ((Card.selectDf fuel name).run.run answer s).2
    unlocked s' = if (view s').vault.df = (view s).vault.df then unlocked s else ∅ := by
  unfold Card.selectDf
  by_cases hname : name.isEmpty ∨ name.length > 16
  · rw [if_pos hname]
    exact (if_pos rfl).symm
  · obtain ⟨hne, hle⟩ := dfName_of_taken hname
    have hstate := (h.selectDf s name hne hle).callOk_state fuel (withData_valid hle)
    rw [if_neg hname]
    show let s' := ((Card.callOk fuel _ >>= fun _ => (pure () : CardM Unit)).run.run answer s).2
      unlocked s' = _
    rw [run_ignored_state, hstate]
    exact h.enters s name hne hle

theorem selectEf_unlocked (id : UInt16) :
    unlocked ((Card.selectEf fuel id).run.run answer s).2 = unlocked s :=
  h.run_leaves_unlocked
    ((Card.transmits_callOk fuel (leavesVault_selectEf id)).bind fun _ => .pure ())

/-- The presentation of a key of the current EF. -/
theorem verify_unlocked {id : UInt16} (value : Pin) (hcurrent : (view s).current = some id) :
    (view s).vault.Presented id value.bytes (unlocked s)
      (unlocked ((Card.verify fuel value).run.run answer s).2) := by
  have hnamed := KeyCard.named_current hcurrent
  have hv := pin_verify_valid 0x80 value
  have hstate : ((Card.callOk fuel (Card.verifyCommand 0x80 value.bytes)).run.run answer s).2 =
      (answer (Card.verifyCommand 0x80 value.bytes).encoding s).2 := by
    cases hkey : (view s).vault.key id with
    | none =>
      exact (h.presentNothing s 0x80 id value.bytes hnamed hkey value.ne_nil
        value.length_le).callOk_state fuel hv
    | some key =>
      exact (h.present s 0x80 id key value.bytes hnamed hkey value.ne_nil
        value.length_le).callOk_state fuel hv
  rw [Card.verify, run_ignored_state, hstate]
  exact h.presents s 0x80 id value.bytes hnamed value.ne_nil value.length_le

/-- The presentation of a key, from whatever state. -/
theorem verifyKey_unlocked (id : UInt16) (value : Pin) :
    (view s).vault.Presented id value.bytes (unlocked s)
      (unlocked ((Ap.verifyKey fuel id value).run.run answer s).2) := by
  have hunlocked := h.selectEf_unlocked (s := s) fuel id
  obtain ⟨r, s₁, hselect, hvault, ⟨rfl, hcurrent⟩ | ⟨⟨e, rfl⟩, hnone⟩⟩ :=
    h.selectEf_run (s := s) fuel id
  · rw [hselect] at hunlocked
    have hverify := h.verify_unlocked fuel value hcurrent
    rw [hvault, hunlocked] at hverify
    rw [Ap.verifyKey, Ap.onEf, run_bind_ok hselect]
    exact hverify
  · rw [hselect] at hunlocked
    rw [Ap.verifyKey, Ap.onEf, run_bind_error hselect, Vault.Presented, hnone]
    exact hunlocked

/-- A command that replaces a key leaves the security status alone. -/
theorem changePin_unlocked (id : UInt16) (currentPin : Pin) {c : Command} (hc : c.IsChange) :
    unlocked ((Ap.changePin fuel id currentPin (Card.callOk fuel c >>= fun _ => pure ())).run.run
      answer s).2 = unlocked ((Ap.verifyKey fuel id currentPin).run.run answer s).2 := by
  have hsplit : Ap.changePin fuel id currentPin (Card.callOk fuel c >>= fun _ => pure ()) =
      Ap.verifyKey fuel id currentPin >>= fun _ => (Card.callOk fuel c >>= fun _ => pure ()) :=
    (LawfulMonad.bind_assoc _ _ _).symm
  rw [hsplit]
  generalize hverify : (Ap.verifyKey fuel id currentPin).run.run answer s = p
  obtain ⟨r, s₁⟩ := p
  cases r with
  | ok a =>
    rw [run_bind_ok hverify, run_ignored_state]
    exact h.run_others (Card.transmits_callOk fuel (P := Command.IsChange) hc) fun _ => .inr
  | error stop => rw [run_bind_error hverify]

/-- An operation of the shape does to the security status what its request says. -/
theorem unlocking_of_keyShape {x509 : X509Crate} {request : KeyRequest} {x : CardM (Value x509)}
    (hx : KeyShape x509 fuel request x) (s : τ) :
    Unlocking (view s).vault (view ((counterOf x).run.run answer s).2).vault (unlocked s)
      (unlocked ((counterOf x).run.run answer s).2) request := by
  have hignored : ∀ {α : Type} (f : α → Value x509) (x : CardM α),
      ((counterOf (yielding f x)).run.run answer s).2 = (x.run.run answer s).2 :=
    fun f x => congrArg Prod.snd (counterOf_run (r := (x.run.run answer s).1) rfl)
  cases hx with
  | enter df =>
    rw [hignored]
    exact h.selectDf_unlocked fuel df
  | present id value =>
    rw [hignored]
    exact h.verifyKey_unlocked fuel id value
  | query id =>
    rw [hignored]
    exact h.run_leaves_unlocked (Card.Transmits.onEf fuel id (Card.transmits_pinRetries fuel))
  | replace id currentPin newPin c hc =>
    have hchange : c.IsChange := by
      obtain rfl | rfl := hc
      · exact .inl rfl
      · exact .inr rfl
    have hunlocked := h.changePin_unlocked (s := s) fuel id currentPin hchange
    rw [hignored]
    show Vault.Presented _ _ _ _ _
    rw [hunlocked]
    exact h.verifyKey_unlocked fuel id currentPin
  | nothing hx =>
    rw [hignored]
    exact h.run_leaves_unlocked hx

/-! ### Reading -/

/-- An EF with a file can be selected. -/
theorem selectEf_held {df : Bytes} {id : UInt16} {file : Bytes}
    (hdf : (view s).vault.df = df) (hfile : held.files df id = some file) :
    ∃ s', (Card.selectEf fuel id).run.run answer s = (.ok (), s') ∧ (view s').On df id ∧
      unlocked s' = unlocked s := by
  have hunlocked := h.selectEf_unlocked (s := s) fuel id
  have hv : (Command.withData Cla.user Ins.selectFile 0x02 0x0C (u16Bytes id)).Valid :=
    withData_valid (by simp)
  obtain ⟨r, s', hanswer, hle, hmore, hcurrent, -⟩ := h.selectEf s id
  have hsuccess : r.status = .success :=
    h.holds s id r s' (by rw [hdf, hfile]; exact Option.some_ne_none _) hanswer
  have hrun : (Card.selectEf fuel id).run.run answer s = (.ok (), s') := by
    rw [Card.selectEf, run_ignored (Card.callOk_run_final fuel hv hanswer hle hmore),
      intoData_of_success hsuccess]
    rfl
  have hvault : (view s').vault = (view s).vault := by
    have hkept := h.run_leaves (s := s) (Card.transmits_callOk fuel (leavesVault_selectEf id))
      fun _ hc => hc
    rwa [Card.callOk_run_final fuel hv hanswer hle hmore] at hkept
  rw [hrun] at hunlocked
  exact ⟨s', hrun, ⟨hvault ▸ hdf, hcurrent hsuccess⟩, hunlocked⟩

/-- Both reads of an open EF. -/
theorem readEf_open (pf : Platform) {df : Bytes} {id : UInt16} {file : Bytes}
    (hdf : (view s).vault.df = df) (hfile : held.files df id = some file)
    (hopen : held.Open df id (unlocked s)) (hsize : file.length ≤ 0x8000) :
    ((Ap.readEf pf fuel id).run.run answer s).1 = FileCard.plainResult pf file ∧
      ((Ap.readEfPhysical fuel id).run.run answer s).1 = .ok file := by
  obtain ⟨s', hselect, hon, hunlocked⟩ := h.selectEf_held fuel hdf hfile
  have hreads := h.reads df id file hfile
  have hstate : (view s').On df id ∧ held.Open df id (unlocked s') := ⟨hon, hunlocked ▸ hopen⟩
  obtain ⟨s₁, -, hall⟩ := hreads.readBinaryAll_full fuel pf s' hstate hsize
  obtain ⟨s₂, -, hphysical⟩ := hreads.readBinaryPhysical_full fuel s' hstate
  rw [List.take_of_length_le hsize] at hphysical
  rw [Ap.readEf, Ap.onEf, run_bind_ok hselect, hall, Ap.readEfPhysical, Ap.onEf,
    run_bind_ok hselect, hphysical]
  exact ⟨rfl, rfl⟩

/-- Both reads of an EF that is not open. -/
theorem readEf_closed (pf : Platform) {df : Bytes} {id : UInt16} {file : Bytes}
    (hdf : (view s).vault.df = df) (hfile : held.files df id = some file)
    (hclosed : ¬ held.Open df id (unlocked s)) :
    ((Ap.readEf pf fuel id).run.run answer s).1 = .error (.err (.status ⟨0x6982⟩)) ∧
      ((Ap.readEfPhysical fuel id).run.run answer s).1 = .error (.err (.status ⟨0x6982⟩)) := by
  obtain ⟨s', hselect, hon, hunlocked⟩ := h.selectEf_held fuel hdf hfile
  have hstate : (view s').On df id ∧ ¬ held.Open df id (unlocked s') := ⟨hon, hunlocked ▸ hclosed⟩
  obtain ⟨r, s₁, -, rfl, hchunk⟩ := (h.refusesToRead df id file hfile).chunk_settled fuel
    (fun _ _ r hr => hr ▸ ⟨rfl, rfl⟩) hstate 0 256 (Nat.zero_le _) (by decide) (by decide)
  have hrefused : (Response.mk [] ⟨0x6982⟩).intoData = .error (.err (.status ⟨0x6982⟩)) := by
    decide
  rw [hrefused] at hchunk
  have hall : (Card.readBinaryAll pf fuel).run.run answer s' =
      (.error (.err (.status ⟨0x6982⟩)), s₁) := by
    rw [Card.readBinaryAll, run_bind_ok (run_attempt_err hchunk)]
    rfl
  have hphysical : (Card.readBinaryPhysical fuel).run.run answer s' =
      (.error (.err (.status ⟨0x6982⟩)), s₁) := by
    rw [Card.readBinaryPhysical, Card.readToEnd_more fuel (Nat.zero_le _), List.length_nil,
      run_bind_ok (run_attempt_err hchunk)]
    rfl
  rw [Ap.readEf, Ap.onEf, run_bind_ok hselect, hall, Ap.readEfPhysical, Ap.onEf,
    run_bind_ok hselect, hphysical]
  exact ⟨rfl, rfl⟩

end GuardsFiles

end

end MynaCard
