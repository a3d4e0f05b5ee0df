import MynaCard.SecureCard

/-!
# What operations on a session do

`Application.Does` says what an operation on a session gives and what it does to the application
behind it, with no word about session keys, counters, cryptograms or APDUs. `operation_does` is that
the operation, run against a party that keeps a session, does just that, and leaves session and card
at the same counter again, as long as the counter has room for the commands.
-/

namespace MynaCard

open Dialogue

/-! ### What they do -/

/-- One operation, with nothing for the value of one that has none. -/
def SessionOperation.value (aes : Aes128) (oc : OverflowChecks) (fuel : ℕ) :
    SessionOperation → SessionM Bytes
  | verify key value => do
    SecureSession.verify aes oc fuel key value
    pure []
  | selectEf id => do
    SecureSession.selectEf aes oc fuel id
    pure []
  | readBinary offset length => SecureSession.readBinary aes oc fuel offset length
  | readEf id => SecureSession.readEf aes oc fuel id
  | readEfPhysical id => SecureSession.readEfPhysical aes oc fuel id

/-- What an operation gives, and the application after it. The card may cut what it gives of a file
short, `part` being what it gives first. -/
inductive Application.Does (oc : OverflowChecks) (a : Application) :
    SessionOperation → Run Bytes → Application → Prop
  | noShortId {id : UInt16} {value : Pin} {stop : Stop}
      (hid : ShortEfId.fromEfId id = .error stop) : Does oc a (.verify id value) (.error stop) a
  | presented {id : UInt16} {value : Pin} {sfi : ShortEfId} {key : Key} (readable : UInt16 → Bool)
      (current : Option UInt16) (hid : ShortEfId.fromEfId id = .ok sfi)
      (hkey : a.keys id = some key) :
      Does oc a (.verify id value) ((key.present value.bytes).1.reply [])
        (a.presented id (key.present value.bytes).2 readable current)
  | noKey {id : UInt16} {value : Pin} (e : Error) (hkey : a.keys id = none) :
      Does oc a (.verify id value) (.error (.err e)) a
  | selected {id : UInt16} (hid : a.Holds id) :
      Does oc a (.selectEf id) (.ok []) (a.goTo (some id))
  | notSelected {id : UInt16} (e : Error) (current : Option UInt16) (hid : ¬ a.Holds id) :
      Does oc a (.selectEf id) (.error (.err e)) (a.goTo current)
  | read {offset length : UInt16} {id : UInt16} {file : Bytes} {r : Response}
      (hcurrent : a.current = some id) (hfile : a.opened id = some file)
      (hr : InPart file offset.toNat (asked file length.toNat) r) :
      Does oc a (.readBinary offset length) r.intoData a
  | notRead {offset length : UInt16} (e : Error) (hfile : a.current.bind a.opened = none) :
      Does oc a (.readBinary offset length) (.error (.err e)) a
  | physical {id : UInt16} {file : Bytes} {r : Response} (hfile : a.opened id = some file)
      (hr : InPart file 0 file.length r) :
      Does oc a (.readEfPhysical id) r.intoData (a.goTo (some id))
  | object {id : UInt16} {file part : Bytes} (hfile : a.opened id = some file)
      (hpart : part <+: file) (hne : file ≠ [] → part ≠ []) :
      Does oc a (.readEf id) (FileCard.secureResult oc file part) (a.goTo (some id))
  | notOpened {id : UInt16} {op : SessionOperation} (e : Error) (current : Option UInt16)
      (hop : op = .readEf id ∨ op = .readEfPhysical id) (hfile : a.opened id = none) :
      Does oc a op (.error (.err e)) (a.goTo current)

/-- The files of the application are no longer than a READ BINARY can address. -/
def Application.Addressable (a : Application) : Prop :=
  ∀ id file, a.files id = some file → file.length ≤ 0x8000

namespace Application

variable {a a' : Application} {r : Response}

theorem files_of_opened {id : UInt16} {file : Bytes} (h : a.opened id = some file) :
    a.files id = some file := by
  unfold opened at h
  split at h
  · exact h
  · cases h

theorem holds_of_opened {id : UInt16} {file : Bytes} (h : a.opened id = some file) :
    a.Holds id := by
  refine .inl ?_
  rw [files_of_opened h]
  exact Option.some_ne_none file

theorem Serves.files_eq {request : SecureRequest} (h : a.Serves request r a') :
    a'.files = a.files := by
  cases h <;> rfl

/-- There is no data but what is read. -/
theorem Serves.data_eq {request : SecureRequest} (h : a.Serves request r a')
    (hnot : ∀ offset length, request ≠ .read offset length) : r.data = [] := by
  cases h with
  | presented readable current hkey => rfl
  | noKey hkey hr => exact hr.data_eq
  | selected hid => rfl
  | notSelected current hid hr => exact hr.data_eq
  | read hcurrent hfile hr => exact absurd rfl (hnot _ _)
  | notRead hfile hr => exact absurd rfl (hnot _ _)

/-- A read leaves the application as it is. -/
theorem Serves.of_read {offset length : ℕ} (h : a.Serves (.read offset length) r a') :
    a' = a ∧ ((∃ id file, a.current = some id ∧ a.opened id = some file ∧
      InPart file offset (asked file length) r) ∨ (a.current.bind a.opened = none ∧ r.Refuses)) := by
  cases h with
  | read hcurrent hfile hr => exact ⟨rfl, .inl ⟨_, _, hcurrent, hfile, hr⟩⟩
  | notRead hfile hr => exact ⟨rfl, .inr ⟨hfile, hr⟩⟩

/-- What a read is answered: something of the file, or a refusal. -/
theorem Serves.read_data {offset length : ℕ} (h : a.Serves (.read offset length) r a')
    (hsize : a.Addressable) :
    (r.status = .success ∧ r.data ≠ [] ∧ r.data.length ≤ 0x8000) ∨
      (r.status ≠ .success ∧ r.data = []) := by
  cases h with
  | read hcurrent hfile hr =>
    cases hr with
    | @within part hne hpre =>
      have hle := hpre.length_le
      have hfits := hsize _ _ (files_of_opened hfile)
      rw [List.length_take, List.length_drop] at hle
      refine .inl ⟨rfl, hne, ?_⟩
      show part.length ≤ 0x8000
      omega
    | past hpast =>
      refine .inr ⟨?_, rfl⟩
      show ¬ (⟨0x6B00⟩ : StatusWord) = .success
      decide
  | notRead hfile hr => exact .inr ⟨hr.status_ne, hr.data_eq⟩

end Application

/-! ### One operation -/

section

variable {τ : Type} {aes : Aes128} {answer : Bytes → τ → Answer × τ} {view : τ → SecureCard}
  {s : SecureSession} {σ : τ}

/-- The operation, run from here, does to the application what is said, and session and card count
alike after it, having counted at most so far. -/
def ServedAs (answer : Bytes → τ → Answer × τ) (view : τ → SecureCard) {α : Type} (x : SessionM α)
    (s : SecureSession) (σ : τ) (bound : ℕ) (post : Run α → Application → Prop) : Prop :=
  ∃ r s' σ', x.runOn answer s σ = ((r, s'), σ') ∧ post r (view σ').app ∧
    SameSession s' (view σ') ∧ s'.counter.toNat ≤ bound

/-- An operation whose value nobody looks at. -/
theorem runOn_ignored {α : Type} {x : SessionM α} {r : Run α} {s' : SecureSession} {σ' : τ}
    {β : Type} (b : β) (h : x.runOn answer s σ = ((r, s'), σ')) :
    (x >>= fun _ => (pure b : SessionM β)).runOn answer s σ = ((r.map fun _ => b, s'), σ') := by
  cases r with
  | ok a => exact (runOn_bind_ok h).trans rfl
  | error stop => exact (runOn_bind_error h).trans rfl

theorem Response.secured_intoData_of_nil {plain : Response} (aes : Aes128) (key : Block)
    (n : UInt32) (h : plain.data = []) :
    (plain.secured aes key n).intoData = plain.intoData := by
  rw [Response.secured, if_pos h]

theorem Response.Refuses.intoData_eq {r : Response} (h : r.Refuses) :
    r.intoData = .error (.err (.fromStatus r.status)) := intoData_of_ne h.status_ne

namespace KeepsSession

variable (h : KeepsSession aes answer view) (oc : OverflowChecks) (fuel : ℕ)
  (hs : SameSession s (view σ))

include h hs

theorem selectEf_runOn (id : UInt16) (hroom : s.counter.toNat + 1 < 2 ^ 32) :
    ∃ plain σ', (SecureSession.selectEf aes oc fuel id).runOn answer s σ =
        ((plain.intoData.map fun _ => (), s.advanced plain.status), σ') ∧
      (view σ).app.Serves (.select id) plain (view σ').app ∧
      SameSession (s.advanced plain.status) (view σ') := by
  obtain ⟨plain, σ', hcall, hserves, hsame⟩ := h.call_runOn oc fuel (.selectEf id)
    (ofCommand_selectEf id) hs hroom
  have hdata := hserves.data_eq fun _ _ hread => by cases hread
  rw [Response.secured_intoData_of_nil aes _ _ hdata] at hcall
  refine ⟨plain, σ', ?_, hserves, hsame⟩
  rw [SecureSession.selectEf, runOn_get_bind]
  exact runOn_ignored () hcall

theorem verify_runOn {id : UInt16} {sfi : ShortEfId} (hid : ShortEfId.fromEfId id = .ok sfi)
    (value : Pin) (hroom : s.counter.toNat + 1 < 2 ^ 32) :
    ∃ plain σ', (SecureSession.verify aes oc fuel id value).runOn answer s σ =
        ((plain.intoData.map fun _ => (), s.advanced plain.status), σ') ∧
      (view σ).app.Serves (.present id value.bytes) plain (view σ').app ∧
      SameSession (s.advanced plain.status) (view σ') := by
  obtain ⟨plain, σ', hcall, hserves, hsame⟩ := h.call_runOn oc fuel (.verify sfi value)
    (ofCommand_verify hid value) hs hroom
  have hdata := hserves.data_eq fun _ _ hread => by cases hread
  rw [Response.secured_intoData_of_nil aes _ _ hdata] at hcall
  refine ⟨plain, σ', ?_, hserves, hsame⟩
  have hsfi : (liftRun (ShortEfId.fromEfId id)).runOn answer s σ = ((.ok sfi, s), σ) := by
    rw [hid, runOn_liftRun]
  rw [SecureSession.verify, runOn_bind_ok hsfi, runOn_get_bind]
  exact runOn_ignored () hcall

/-- What a secure read gives is what the application answers. -/
theorem readBinary_runOn (offset length : UInt16) (hsize : (view σ).app.Addressable)
    (hroom : s.counter.toNat + 1 < 2 ^ 32) :
    ∃ plain σ', (SecureSession.readBinary aes oc fuel offset length).runOn answer s σ =
        ((plain.intoData, s.advanced plain.status), σ') ∧
      (view σ).app.Serves (.read offset.toNat length.toNat) plain (view σ').app ∧
      SameSession (s.advanced plain.status) (view σ') := by
  obtain ⟨plain, σ', hcall, hserves, hsame⟩ := h.call_runOn oc fuel (.readBinary offset length)
    (ofCommand_readBinary offset length) hs hroom
  refine ⟨plain, σ', ?_, hserves, hsame⟩
  obtain ⟨hstatus, hne, hfits⟩ | ⟨hstatus, hdata⟩ := hserves.read_data hsize
  · have hpad := pad_length plain.data
    have hsecured : (plain.secured aes s.key s.counter).intoData =
        .ok (cryptogramObject (aes.encrypt s.key s.counter plain.data)) := by
      rw [Response.secured, if_neg hne]
      exact Response.intoData_eq_ok.mpr ⟨hstatus, rfl⟩
    have hparse : parseCryptogram oc (cryptogramObject (aes.encrypt s.key s.counter plain.data)) =
        .ok (aes.encrypt s.key s.counter plain.data) := by
      apply parseCryptogram_cryptogramObject
      rw [aes.encrypt_length]
      omega
    -- the session has advanced by the time it decrypts
    have hcounter : (s.advanced plain.status).counter - 1 = s.counter := by
      show s.counter + 1 - 1 = s.counter
      rw [add_sub_cancel_right]
    rw [hsecured] at hcall
    rw [SecureSession.readBinary, runOn_bind_ok hcall, runOn_get_bind, runOn_liftRun, hparse,
      hcounter, intoData_of_success hstatus]
    show ((aes.decrypt s.key s.counter _, _), _) = _
    rw [aes.decrypt_encrypt]
  · rw [Response.secured_intoData_of_nil aes _ _ hdata, intoData_of_ne hstatus] at hcall
    rw [SecureSession.readBinary, runOn_bind_error hcall, intoData_of_ne hstatus]

/-- A secure read of the file that is current. -/
theorem readBinary_opened (offset length : UInt16) {id : UInt16} {file : Bytes}
    (hcurrent : (view σ).app.current = some id) (hfile : (view σ).app.opened id = some file)
    (hsize : (view σ).app.Addressable) (hroom : s.counter.toNat + 1 < 2 ^ 32) :
    ∃ plain σ', (SecureSession.readBinary aes oc fuel offset length).runOn answer s σ =
        ((plain.intoData, s.advanced plain.status), σ') ∧
      InPart file offset.toNat (Application.asked file length.toNat) plain ∧
      (view σ').app = (view σ).app ∧ SameSession (s.advanced plain.status) (view σ') := by
  obtain ⟨plain, σ', hread, hserves, hsame⟩ :=
    h.readBinary_runOn oc fuel hs offset length hsize hroom
  obtain ⟨happ, hanswer⟩ := hserves.of_read
  refine ⟨plain, σ', hread, ?_, happ, hsame⟩
  obtain ⟨id', file', hcurrent', hfile', hr⟩ | ⟨hfile', -⟩ := hanswer
  · obtain rfl := Option.some.inj (hcurrent'.symm.trans hcurrent)
    obtain rfl := Option.some.inj (hfile'.symm.trans hfile)
    exact hr
  · rw [hcurrent, Option.bind_some, hfile] at hfile'
    cases hfile'

omit hs in
/-- The loop of `SecureSession::read_ef` ends at the object's end, or past the end of the file. -/
theorem readEfLoop_runOn {total : ℕ} {out : Bytes} {id : UInt16} {file : Bytes}
    (hs : SameSession s (view σ)) (hcurrent : (view σ).app.current = some id)
    (hfile : (view σ).app.opened id = some file) (hsize : (view σ).app.Addressable)
    (hout : out <+: file) (hlen : out.length ≤ total)
    (hroom : s.counter.toNat + (file.length - out.length) + 1 < 2 ^ 32) :
    ServedAs answer view (SecureSession.readEfLoop aes oc fuel total out) s σ
      (s.counter.toNat + (file.length - out.length) + 1)
      fun r a => r = (if total ≤ file.length then .ok (file.take total)
        else .error (.err (.status ⟨0x6B00⟩))) ∧ a = (view σ).app := by
  induction hmeasure : file.length - out.length using Nat.strong_induction_on
    generalizing out s σ with
  | _ n ih =>
    subst hmeasure
    have hle := hout.length_le
    have hfits := hsize id file (Application.files_of_opened hfile)
    by_cases hmore : out.length < total
    · have hoffset : (UInt16.ofNat out.length).toNat = out.length := by
        rw [UInt16.toNat_ofNat']
        omega
      have hwant := FileCard.want_toNat total out
      have hasked : Application.asked file (SecureSession.want total out).toNat =
          (SecureSession.want total out).toNat := if_neg (by omega)
      have hcount : ∀ sw, (s.advanced sw).counter.toNat = s.counter.toNat + 1 :=
        fun sw => toNat_succ_counter (by omega)
      obtain ⟨plain, σ', hread, hpart, happ, hsame⟩ := h.readBinary_opened oc fuel hs
        (UInt16.ofNat out.length) (SecureSession.want total out) hcurrent hfile hsize (by omega)
      rw [hoffset, hasked] at hpart
      rw [ServedAs, SecureSession.readEfLoop_step oc fuel hmore (by omega)]
      cases hpart with
      | @within part hne hpre =>
        have hpos := List.length_pos_iff.mpr hne
        have hshort := hpre.length_le
        rw [List.length_take, List.length_drop] at hshort
        have hfront := prefix_append_of_prefix_drop hout (hpre.trans (List.take_prefix _ _))
        have hlonger : (out ++ part).length = out.length + part.length := List.length_append
        obtain ⟨r, s', σ'', hloop, ⟨hr, ha⟩, hsame', hbound⟩ :=
          ih (file.length - (out ++ part).length) (by omega) hsame (happ ▸ hcurrent)
            (happ ▸ hfile) (happ ▸ hsize) hfront (by omega) (by rw [hcount]; omega) rfl
        rw [hcount] at hbound
        refine ⟨r, s', σ'', ?_, ⟨hr, ha.trans happ⟩, hsame', by omega⟩
        rw [runOn_bind_ok hread, if_neg hne, hloop]
      | past hpast =>
        have hstatus : Error.fromStatus ⟨0x6B00⟩ = .status ⟨0x6B00⟩ := by decide
        have hcounted := hcount (Response.mk [] ⟨0x6B00⟩).status
        refine ⟨_, _, σ', runOn_bind_error hread, ⟨?_, happ⟩, hsame, by omega⟩
        rw [if_neg (by omega), hstatus]
    · have hall : out = file.take total := by
        rw [← show out.length = total from by omega]
        exact List.prefix_iff_eq_take.mp hout
      rw [ServedAs, SecureSession.readEfLoop_done oc fuel hmore]
      exact ⟨_, s, σ, rfl, ⟨by rw [if_pos (by omega), ← hall], rfl⟩, hs, by omega⟩

/-- What `SecureSession::read_ef` does with what the first read gave. -/
theorem readEfOn_runOn {part : Bytes} {id : UInt16} {file : Bytes}
    (hcurrent : (view σ).app.current = some id) (hfile : (view σ).app.opened id = some file)
    (hsize : (view σ).app.Addressable) (hpart : part <+: file) (hne : part ≠ [])
    (hroom : s.counter.toNat + file.length < 2 ^ 32) :
    ServedAs answer view (SecureSession.readEfOn aes oc fuel part) s σ
      (s.counter.toNat + file.length)
      fun r a => r = FileCard.secureResult oc file part ∧ a = (view σ).app := by
  have hfilene : file ≠ [] := by
    intro hnil
    rw [hnil] at hpart
    exact hne (List.prefix_nil.mp hpart)
  unfold ServedAs
  rw [SecureSession.readEfOn, if_neg hne, FileCard.secureResult, if_neg hfilene]
  cases hparse : Ber.parseHeader part with
  | error stop => exact ⟨_, s, σ, rfl, ⟨rfl, rfl⟩, hs, by omega⟩
  | ok header =>
    dsimp only
    cases htotal : header.totalLen oc with
    | error stop => exact ⟨_, s, σ, rfl, ⟨rfl, rfl⟩, hs, by omega⟩
    | ok total =>
      have hle := hpart.length_le
      have hpos := List.length_pos_iff.mpr hne
      rw [runOn_bind_ok (runOn_liftRun _)]
      show ∃ r s' σ', _ = ((r, s'), σ') ∧ (r = (if total ≤ file.length then _ else _) ∧ _) ∧ _
      by_cases hshort : total ≤ part.length
      · have htake : part.take total = file.take total := by
          rw [List.prefix_iff_eq_take.mp hpart, List.take_take, min_eq_left hshort]
        rw [if_pos hshort, if_pos (by omega), htake]
        exact ⟨_, s, σ, rfl, ⟨rfl, rfl⟩, hs, by omega⟩
      · rw [if_neg hshort]
        obtain ⟨r, s', σ', hloop, hpost, hsame, hbound⟩ := h.readEfLoop_runOn oc fuel hs hcurrent
          hfile hsize hpart (show part.length ≤ total by omega) (by omega)
        exact ⟨r, s', σ', hloop, hpost, hsame, by omega⟩

/-- SELECT FILE and a READ BINARY of everything. -/
theorem readEfPhysical_runOn (id : UInt16) (hsize : (view σ).app.Addressable)
    (hroom : s.counter.toNat + 2 < 2 ^ 32) :
    ServedAs answer view (SecureSession.readEfPhysical aes oc fuel id) s σ (s.counter.toNat + 2)
      fun r a =>
        (∃ file plain, (view σ).app.opened id = some file ∧ InPart file 0 file.length plain ∧
          r = plain.intoData ∧ a = (view σ).app.goTo (some id)) ∨
        ((view σ).app.opened id = none ∧ (∃ e, r = .error (.err e)) ∧
          ∃ current, a = (view σ).app.goTo current) := by
  obtain ⟨plain, σ', hselect, hserves, hsame⟩ := h.selectEf_runOn oc fuel hs id (by omega)
  have hcount : ∀ sw, (s.advanced sw).counter.toNat = s.counter.toNat + 1 :=
    fun sw => toNat_succ_counter (by omega)
  have hcount' : ∀ sw sw', ((s.advanced sw).advanced sw').counter.toNat = s.counter.toNat + 2 :=
    fun sw sw' => (toNat_succ_counter (by rw [hcount]; omega)).trans (by rw [hcount])
  unfold ServedAs
  rw [SecureSession.readEfPhysical]
  generalize happ : (view σ').app = a at hserves
  cases hserves with
  | notSelected current hid hr =>
    have hnone : (view σ).app.opened id = none := by
      by_contra hne
      obtain ⟨file, hfile⟩ := Option.ne_none_iff_exists'.mp hne
      exact hid (Application.holds_of_opened hfile)
    have hcounted := hcount plain.status
    rw [hr.intoData_eq] at hselect
    exact ⟨_, _, σ', runOn_bind_error hselect, .inr ⟨hnone, ⟨_, rfl⟩, current, happ⟩, hsame,
      by omega⟩
  | selected hid =>
    have hcurrent : (view σ').app.current = some id := by
      rw [happ]
      rfl
    have hopened : (view σ').app.opened id = (view σ).app.opened id := by rw [happ]; rfl
    have hsize' : (view σ').app.Addressable := by
      intro id' file hfile
      rw [happ] at hfile
      exact hsize id' file hfile
    obtain ⟨plain', σ'', hread, hserves', hsame'⟩ := h.readBinary_runOn oc fuel hsame 0 0 hsize'
      (by rw [hcount]; omega)
    obtain ⟨hstays, hanswer⟩ := hserves'.of_read
    have happ' : (view σ'').app = (view σ).app.goTo (some id) := hstays.trans happ
    have hcounted := hcount' (Response.mk [] .success).status plain'.status
    refine ⟨_, _, σ'', (runOn_bind_ok hselect).trans hread, ?_, hsame', by omega⟩
    obtain ⟨id', file, hcurrent', hfile, hr⟩ | ⟨hfile, hr⟩ := hanswer
    · obtain rfl := Option.some.inj (hcurrent'.symm.trans hcurrent)
      rw [hopened] at hfile
      exact .inl ⟨file, plain', hfile, hr, rfl, happ'⟩
    · rw [hcurrent, Option.bind_some, hopened] at hfile
      exact .inr ⟨hfile, ⟨_, hr.intoData_eq⟩, some id, happ'⟩

/-- SELECT FILE, a READ BINARY, and more of them until the object is complete. -/
theorem readEf_runOn (id : UInt16) (hsize : (view σ).app.Addressable)
    (hroom : s.counter.toNat + 0x8002 < 2 ^ 32) :
    ServedAs answer view (SecureSession.readEf aes oc fuel id) s σ (s.counter.toNat + 0x8002)
      fun r a => (view σ).app.Does oc (.readEf id) r a := by
  obtain ⟨r, s', σ', hfirst, hgives, hsame, hbound⟩ :=
    h.readEfPhysical_runOn oc fuel hs id hsize (by omega)
  unfold ServedAs
  rw [SecureSession.readEf]
  obtain ⟨file, plain, hfile, hpart, rfl, happ⟩ | ⟨hnone, ⟨e, rfl⟩, current, happ⟩ := hgives
  · have hfits := hsize id file (Application.files_of_opened hfile)
    have hcurrent : (view σ').app.current = some id := by
      rw [happ]
      rfl
    have hopened : (view σ').app.opened id = some file := by
      rw [happ]
      exact hfile
    have hsize' : (view σ').app.Addressable := by
      intro id' file' hfile'
      rw [happ] at hfile'
      exact hsize id' file' hfile'
    cases hpart with
    | @within part hne hpre =>
      have hfront : part <+: file := hpre.trans (List.take_prefix _ _)
      obtain ⟨r, s'', σ'', hrest, ⟨rfl, hstays⟩, hsame', hbound'⟩ := h.readEfOn_runOn oc fuel
        hsame hcurrent hopened hsize' hfront hne (by omega)
      refine ⟨_, s'', σ'', (runOn_bind_ok hfirst).trans hrest, ?_, hsame', by omega⟩
      rw [hstays, happ]
      exact .object hfile hfront fun _ => hne
    | past hpast =>
      have hnil : file = [] := List.length_eq_zero_iff.mp (by omega)
      have hempty : FileCard.secureResult oc file [] = .error (.err (.status ⟨0x6B00⟩)) :=
        if_pos hnil
      refine ⟨_, s', σ', runOn_bind_error hfirst, ?_, hsame, by omega⟩
      rw [happ, show Error.fromStatus ⟨0x6B00⟩ = .status ⟨0x6B00⟩ by decide, ← hempty]
      exact .object hfile (List.nil_prefix) fun hne => absurd hnil hne
  · refine ⟨_, s', σ', runOn_bind_error hfirst, ?_, hsame, by omega⟩
    rw [happ]
    exact .notOpened e current (.inl rfl) hnone

/-- **An operation on a session does to the application what it is said to**, and leaves session and
card at the same counter. -/
theorem operation_does (op : SessionOperation) (hsize : (view σ).app.Addressable)
    (hroom : s.counter.toNat + 0x8002 < 2 ^ 32) :
    ServedAs answer view (op.value aes oc fuel) s σ (s.counter.toNat + 0x8002)
      fun r a => (view σ).app.Does oc op r a := by
  have hcount : ∀ sw, (s.advanced sw).counter.toNat = s.counter.toNat + 1 :=
    fun sw => toNat_succ_counter (by omega)
  cases op with
  | verify id value =>
    cases hid : ShortEfId.fromEfId id with
    | error stop =>
      have hrun : (SecureSession.verify aes oc fuel id value).runOn answer s σ =
          ((.error stop, s), σ) := by
        rw [SecureSession.verify]
        exact runOn_bind_error (by rw [hid, runOn_liftRun])
      exact ⟨_, s, σ, runOn_ignored [] hrun, .noShortId hid, hs, by omega⟩
    | ok sfi =>
      obtain ⟨plain, σ', hverify, hserves, hsame⟩ := h.verify_runOn oc fuel hs hid value (by omega)
      have hcounted := hcount plain.status
      refine ⟨_, _, σ', runOn_ignored [] hverify, ?_, hsame, by omega⟩
      generalize (view σ').app = a at hserves
      cases hserves with
      | @presented _ _ key readable current hkey =>
        rw [key.intoData_present, Verdict.reply_map, Verdict.reply_map]
        exact .presented readable current hid hkey
      | noKey hkey hr =>
        rw [hr.intoData_eq]
        exact .noKey _ hkey
  | selectEf id =>
    obtain ⟨plain, σ', hselect, hserves, hsame⟩ := h.selectEf_runOn oc fuel hs id (by omega)
    have hcounted := hcount plain.status
    refine ⟨_, _, σ', runOn_ignored [] hselect, ?_, hsame, by omega⟩
    generalize (view σ').app = a at hserves
    cases hserves with
    | selected hid => exact .selected hid
    | notSelected current hid hr =>
      rw [hr.intoData_eq]
      exact .notSelected _ current hid
  | readBinary offset length =>
    obtain ⟨plain, σ', hread, hserves, hsame⟩ :=
      h.readBinary_runOn oc fuel hs offset length hsize (by omega)
    have hcounted := hcount plain.status
    refine ⟨_, _, σ', hread, ?_, hsame, by omega⟩
    obtain ⟨hstays, ⟨id, file, hcurrent, hfile, hr⟩ | ⟨hfile, hr⟩⟩ := hserves.of_read
    · rw [hstays]
      exact .read hcurrent hfile hr
    · rw [hstays, hr.intoData_eq]
      exact .notRead _ hfile
  | readEf id => exact h.readEf_runOn oc fuel hs id hsize hroom
  | readEfPhysical id =>
    obtain ⟨r, s', σ', hread, hgives, hsame, hbound⟩ :=
      h.readEfPhysical_runOn oc fuel hs id hsize (by omega)
    refine ⟨r, s', σ', hread, ?_, hsame, by omega⟩
    obtain ⟨file, plain, hfile, hpart, rfl, happ⟩ | ⟨hnone, ⟨e, rfl⟩, current, happ⟩ := hgives
    · rw [happ]
      exact .physical hfile hpart
    · rw [happ]
      exact .notOpened e current (.inr rfl) hnone

end KeepsSession

end

end MynaCard
