import MynaCard.CardPrograms
import MynaCard.Wrappers

/-!
# Commands on the current EF

READ BINARY, READ RECORD, VERIFY with P2=80 and the two commands that replace a key act on whatever
EF is current, and the card does not say which that is. `Allowed` says what an operation on an EF may
send after what it has sent so far: one of these only once its own SELECT FILE of the EF was accepted,
a new key only once the current one was presented and accepted, and no value but its own.

An operation that keeps to this is `Disciplined`. The operations of the wrappers come in a few shapes,
and there is one rule for each shape.
-/

namespace MynaCard

open Dialogue Monitor

/-! ### What an APDU is -/

/-- The command an APDU carries, as the receiving side reads it. -/
def decoded (apdu : Bytes) : Option Command := (isoDecode apdu).map Prod.snd

namespace Command

def OnCurrentEf (c : Command) : Prop :=
  c.ins = Ins.readBinary ∨ c.ins = Ins.readRecord ∨ (c.ins = Ins.verify ∧ c.p2 = 0x80) ∨
    c.ins = Ins.changeReferenceData ∨ c.ins = Ins.changeKey

def IsChange (c : Command) : Prop := c.ins = Ins.changeReferenceData ∨ c.ins = Ins.changeKey

def IsSelectFile (c : Command) : Prop := c.ins = Ins.selectFile

/-- Neither GET RESPONSE nor a command that replaces a key. -/
def IsOther (c : Command) : Prop := c.ins ≠ Ins.getResponse ∧ ¬ c.IsChange

/-- SELECT FILE of an EF by its identifier. -/
def Selects (id : UInt16) (c : Command) : Prop :=
  c.ins = Ins.selectFile ∧ c.p1 = 0x02 ∧ c.data = u16Bytes id

/-- A VERIFY of the current EF's key that carries a value. -/
def Verifies (value : Bytes) (c : Command) : Prop :=
  c.ins = Ins.verify ∧ c.p2 = 0x80 ∧ c.data = value

end Command

/-- The APDU is one of a command of the kind. -/
def Encodes (P : Command → Prop) (apdu : Bytes) : Prop := ∃ c, decoded apdu = some c ∧ P c

def IsGetResponse : Bytes → Prop := Encodes fun c => c.ins = Ins.getResponse

/-- The exchange whose last APDU so far was answered `a` ended with `9000`, `rest` being what was
sent since. -/
def EndedWithSuccess (a : Answer) : Trace Bytes Answer → Prop
  | [] => ∃ r, Card.answered a = .ok r ∧ r.status = .success
  | (apdu, b) :: rest =>
    (∃ r, Card.answered a = .ok r ∧ r.status = .success) ∨
      ((∃ r n, Card.answered a = .ok r ∧ r.status.moreDataAvailable = some n) ∧
        IsGetResponse apdu ∧ EndedWithSuccess b rest)

/-- The most recent command of a kind has `P`, and was accepted. -/
def LastAccepted (kind P : Command → Prop) (before : Trace Bytes Answer) : Prop :=
  ∃ e rest, LastWith (Encodes kind) before e rest ∧ Encodes P e.1 ∧ EndedWithSuccess e.2 rest

/-- The most recent SELECT FILE named the EF, and was accepted. -/
def Selected (id : UInt16) : Trace Bytes Answer → Prop :=
  LastAccepted Command.IsSelectFile (Command.Selects id)

/-- The most recent command, not counting one that replaces the key, presented the value, and was
accepted. -/
def Verified (value : Bytes) : Trace Bytes Answer → Prop :=
  LastAccepted Command.IsOther (Command.Verifies value)

/-! ### The APDUs of a call -/

theorem decoded_encoding {c : Command} (hv : c.Valid) : decoded c.encoding = some c := by
  rw [decoded, Command.isoDecode_encoding hv]
  rfl

theorem decoded_getResponse (n : UInt8) :
    ∃ c, decoded (Card.getResponse n).encoding = some c ∧ c.ins = Ins.getResponse := by
  revert n
  decide +kernel

theorem encodes_iff {P : Command → Prop} {apdu : Bytes} {c : Command} (h : decoded apdu = some c) :
    Encodes P apdu ↔ P c := by
  constructor
  · intro henc
    obtain ⟨c', hc', hP⟩ := henc
    rw [h] at hc'
    exact Option.some.inj hc' ▸ hP
  · intro hP
    exact ⟨c, h, hP⟩

/-- An APDU of a call is a GET RESPONSE, or differs from the command in nothing but `Le`. -/
theorem decoded_fromCall {c : Command} (hv : c.Valid) {apdu : Bytes} (h : Card.FromCall c apdu) :
    ∃ c', decoded apdu = some c' ∧
      (c'.ins = Ins.getResponse ∨ ∃ le, c' = { c with le := le }) := by
  rcases h with rfl | ⟨le, rfl⟩ | ⟨n, rfl⟩
  · exact ⟨c, decoded_encoding hv, .inr ⟨c.le, rfl⟩⟩
  · exact ⟨Card.retry c le, decoded_encoding (Card.retry_valid hv le), .inr ⟨_, rfl⟩⟩
  · obtain ⟨c', hc', hins⟩ := decoded_getResponse n
    exact ⟨c', hc', .inl hins⟩

theorem EndedWithSuccess.append {a : Answer} {rest : Trace Bytes Answer}
    (h : EndedWithSuccess a rest) (more : Trace Bytes Answer) :
    EndedWithSuccess a (rest ++ more) := by
  induction rest generalizing a with
  | nil =>
    cases more with
    | nil => exact h
    | cons e more => exact .inl h
  | cons e rest ih =>
    rcases h with h | ⟨hmore, hget, h⟩
    · exact .inl h
    · exact .inr ⟨hmore, hget, ih h⟩

/-- A loop that ends with `9000` ends its exchange with `9000`. -/
theorem collect_ended {fuel : ℕ} {r r' : Response} {tr : Trace Bytes Answer}
    (h : Path (Card.collect fuel r).run tr (.ok r')) (hr' : r'.status = .success) {a : Answer}
    (ha : ∃ r₀, Card.answered a = .ok r₀ ∧ r₀.status = r.status) : EndedWithSuccess a tr := by
  induction fuel generalizing r tr a with
  | zero =>
    obtain ⟨r₀, ha, hstatus⟩ := ha
    cases hmore : r.status.moreDataAvailable with
    | none =>
      rw [Card.collect_done 0 hmore] at h
      obtain ⟨rfl, hr⟩ := path_done.mp h
      obtain rfl := Except.ok.inj hr
      exact ⟨r₀, ha, hstatus.trans hr'⟩
    | some n =>
      rw [Card.collect_zero hmore] at h
      cases (path_done.mp h).2
  | succ fuel ih =>
    obtain ⟨r₀, ha, hstatus⟩ := ha
    cases hmore : r.status.moreDataAvailable with
    | none =>
      rw [Card.collect_done _ hmore] at h
      obtain ⟨rfl, hr⟩ := path_done.mp h
      obtain rfl := Except.ok.inj hr
      exact ⟨r₀, ha, hstatus.trans hr'⟩
    | some n =>
      by_cases hn : n = 0
      · obtain ⟨stop, hrun⟩ := Card.collect_run_6100 (fuel + 1) (hn ▸ hmore)
        rw [hrun] at h
        cases (path_done.mp h).2
      · rw [Card.collect_run fuel hmore hn] at h
        obtain ⟨b, tr', rfl, h'⟩ := path_ask.mp h
        rcases Card.path_orElseDone_answered h' with ⟨-, e, -, hout⟩ | ⟨next, hnext, h''⟩
        · cases hout
        · refine .inr ⟨⟨r₀, n, ha, by rw [hstatus, hmore]⟩, ?_, ih h'' ⟨next, hnext, rfl⟩⟩
          obtain ⟨c, hc, hins⟩ := decoded_getResponse n
          exact ⟨c, hc, hins⟩

/-- A call that succeeds ends with an APDU of the command and the GET RESPONSE commands that answer
it, in an exchange that ended with `9000`. -/
theorem callOk_ended {fuel : ℕ} {c : Command} {tr : Trace Bytes Answer} {d : Bytes}
    (h : Path (Card.callOk fuel c).run tr (.ok d)) :
    ∃ before e rest, tr = before ++ e :: rest ∧ (∃ le, decoded e.1 = some { c with le := le }) ∧
      Card.OnlyGetResponses rest ∧ EndedWithSuccess e.2 rest := by
  obtain ⟨out, hcall, hout⟩ := Card.path_callOk.mp h
  obtain ⟨r, rfl, hdata⟩ := Run.bind_eq_ok.mp hout.symm
  have hr : r.status = .success := (Response.intoData_eq_ok.mp hdata).1
  by_cases hv : c.Valid
  swap
  · obtain ⟨e, hrun⟩ := Card.call_run_not_valid fuel hv
    rw [hrun] at hcall
    cases (path_done.mp hcall).2
  rw [Card.call_run fuel hv] at hcall
  obtain ⟨a, rest, rfl, h'⟩ := path_ask.mp hcall
  rcases Card.path_orElseDone_answered h' with ⟨-, e, -, herr⟩ | ⟨r₀, ha, hr₀⟩
  · cases herr
  rw [Card.afterFirst] at hr₀
  cases hle : r₀.status.correctLe with
  | none =>
    rw [hle] at hr₀
    exact ⟨[], (c.encoding, a), rest, rfl, ⟨c.le, decoded_encoding hv⟩,
      Card.collect_onlyGetResponses hr₀, collect_ended hr₀ hr ⟨r₀, ha, rfl⟩⟩
  | some le =>
    rw [hle] at hr₀
    obtain ⟨b, rest', rfl, h''⟩ := path_ask.mp hr₀
    rcases Card.path_orElseDone_answered h'' with ⟨-, e, -, herr⟩ | ⟨r₁, hb, hr₁⟩
    · cases herr
    · exact ⟨[(c.encoding, a)], ((Card.retry c le).encoding, b), rest', rfl,
        ⟨_, decoded_encoding (Card.retry_valid hv le)⟩, Card.collect_onlyGetResponses hr₁,
        collect_ended hr₁ hr ⟨r₁, hb, rfl⟩⟩

/-- The same, against a longer history: the last command of a kind that GET RESPONSE is not is then
the one called. -/
theorem callOk_last {kind P : Command → Prop} {fuel : ℕ} {c : Command}
    (hkind : ∀ le, kind { c with le := le }) (hP : ∀ le, P { c with le := le })
    (hget : ∀ c' : Command, c'.ins = Ins.getResponse → ¬ kind c') {tr : Trace Bytes Answer}
    (h : Path (Card.callOk fuel c >>= fun _ => (pure () : CardM Unit)).run tr (.ok ()))
    (past : Trace Bytes Answer) : LastAccepted kind P (past ++ tr) := by
  obtain ⟨r, h, hr⟩ := path_ignored.mp h
  obtain ⟨d, rfl⟩ : ∃ d, r = .ok d := by
    cases r with
    | error stop => cases hr
    | ok d => exact ⟨d, rfl⟩
  obtain ⟨before, e, rest, rfl, ⟨le, he⟩, honly, hend⟩ := callOk_ended h
  have hlast : LastWith (Encodes kind) (before ++ e :: rest) e rest := by
    refine ⟨⟨before, rfl⟩, (encodes_iff he).mpr (hkind le), ?_⟩
    intro f hf
    obtain ⟨n, hn⟩ := honly f hf
    obtain ⟨c', hc', hins⟩ := decoded_getResponse n
    rw [hn, encodes_iff hc']
    exact hget c' hins
  exact ⟨e, rest, hlast.append_left past, (encodes_iff he).mpr (hP le), hend⟩

/-! ### The discipline of one operation -/

/-- What an operation on the EF `ef` that presents `pin` may send after `before`. -/
structure Allowed (ef : Option UInt16) (pin : Option Pin) (before : Trace Bytes Answer)
    (c : Command) : Prop where
  selected : c.OnCurrentEf → ∃ id, ef = some id ∧ Selected id before
  verified : c.IsChange → ∃ value, pin = some value ∧ Verified value.bytes before
  presented : c.ins = Ins.verify → c.data ≠ [] → ∃ value, pin = some value ∧ c.data = value.bytes

/-- The operation's own APDUs so far decide what it may send next. -/
def own (ef : Option UInt16) (pin : Option Pin) : Monitor (Trace Bytes Answer) Bytes Answer :=
  .ofHistory (fun before apdu => Encodes (Allowed ef pin before) apdu) fun _ _ _ => True

/-- Every APDU of the operation is allowed. -/
def Disciplined (ef : Option UInt16) (pin : Option Pin) {α : Type} (x : CardM α) : Prop :=
  (own ef pin).Triple (fun _ => True) x.run fun _ _ => True

/-- A command that is bound to no EF and presents nothing. -/
def Command.Unbound (c : Command) : Prop := ¬ c.OnCurrentEf ∧ c.ins ≠ Ins.verify

/-- A command that looks at the current EF and does not present or replace its key. -/
def Command.Inspects (c : Command) : Prop :=
  c.ins = Ins.readBinary ∨ c.ins = Ins.readRecord ∨ (c.ins = Ins.verify ∧ c.data = [])

theorem Command.unbound_of_ins {c : Command} (ins : UInt8) (hins : c.ins = ins)
    (h : ins ∉ [Ins.readBinary, Ins.readRecord, Ins.verify, Ins.changeReferenceData, Ins.changeKey]) :
    c.Unbound := by
  subst hins
  simp only [List.mem_cons, List.not_mem_nil, or_false, not_or] at h
  obtain ⟨hbinary, hrecord, hverify, hreference, hkey⟩ := h
  refine ⟨?_, hverify⟩
  intro hon
  rcases hon with hon | hon | ⟨hon, -⟩ | hon | hon
  · exact hbinary hon
  · exact hrecord hon
  · exact hverify hon
  · exact hreference hon
  · exact hkey hon

section Discipline

variable {ef : Option UInt16} {pin : Option Pin} {before : Trace Bytes Answer} {c : Command}
  {id : UInt16} {value : Pin}

theorem Allowed.of_unbound (hc : c.Unbound) : Allowed ef pin before c where
  selected h := absurd h hc.1
  verified h := absurd (.inr (.inr (.inr h))) hc.1
  presented h := absurd h hc.2

theorem Allowed.of_inspects (hsel : Selected id before) (hc : c.Inspects) :
    Allowed (some id) pin before c where
  selected _ := ⟨id, rfl, hsel⟩
  verified h := by
    exfalso
    rcases hc with hc | hc | ⟨hc, -⟩ <;> rcases h with h | h <;> rw [hc] at h <;> revert h <;>
      decide
  presented h hdata := by
    exfalso
    rcases hc with hc | hc | ⟨-, hc⟩
    · rw [hc] at h
      revert h
      decide
    · rw [hc] at h
      revert h
      decide
    · exact hdata hc

theorem Allowed.of_verifies (hsel : Selected id before) (hc : c.Verifies value.bytes) :
    Allowed (some id) (some value) before c where
  selected _ := ⟨id, rfl, hsel⟩
  verified h := by
    exfalso
    rcases h with h | h <;> rw [hc.1] at h <;> revert h <;> decide
  presented _ _ := ⟨value, rfl, hc.2.2⟩

theorem Allowed.of_isChange (hsel : Selected id before) (hver : Verified value.bytes before)
    (hc : c.IsChange) : Allowed (some id) (some value) before c where
  selected _ := ⟨id, rfl, hsel⟩
  verified _ := ⟨value, rfl, hver⟩
  presented h := by
    exfalso
    rcases hc with hc | hc <;> rw [hc] at h <;> revert h <;> decide

/-- A call may send all it sends if it may send its command. -/
theorem Allowed.fromCall (hv : c.Valid) {apdu : Bytes} (h : Card.FromCall c apdu)
    (hc : Allowed ef pin before c) : Encodes (Allowed ef pin before) apdu := by
  obtain ⟨c', hc', hget | ⟨le, rfl⟩⟩ := decoded_fromCall hv h
  · exact ⟨c', hc', .of_unbound (Command.unbound_of_ins Ins.getResponse hget (by decide))⟩
  · exact ⟨_, hc', hc.selected, hc.verified, hc.presented⟩

theorem LastAccepted.snoc {kind P : Command → Prop} (h : LastAccepted kind P before) {apdu : Bytes}
    (a : Answer) (hapdu : ¬ Encodes kind apdu) : LastAccepted kind P (before ++ [(apdu, a)]) := by
  obtain ⟨e, rest, hlast, hP, hend⟩ := h
  exact ⟨e, _, hlast.snoc a hapdu, hP, hend.append _⟩

/-- After a call of a command that is not SELECT FILE the same EF is selected. -/
theorem Selected.snoc_fromCall (h : Selected id before) (hv : c.Valid) {apdu : Bytes} (a : Answer)
    (hfrom : Card.FromCall c apdu) (hc : ¬ c.IsSelectFile) :
    Selected id (before ++ [(apdu, a)]) := by
  refine LastAccepted.snoc h a ?_
  obtain ⟨c', hc', hget | ⟨le, rfl⟩⟩ := decoded_fromCall hv hfrom
  · rw [encodes_iff hc', Command.IsSelectFile, hget]
    decide
  · rw [encodes_iff hc']
    exact hc

/-- After a call of a command that replaces the key the same value is verified. -/
theorem Verified.snoc_fromCall {value : Bytes} (h : Verified value before) (hv : c.Valid)
    {apdu : Bytes} (a : Answer) (hfrom : Card.FromCall c apdu) (hc : c.IsChange) :
    Verified value (before ++ [(apdu, a)]) := by
  refine LastAccepted.snoc h a ?_
  obtain ⟨c', hc', hget | ⟨le, rfl⟩⟩ := decoded_fromCall hv hfrom
  · rw [encodes_iff hc']
    exact fun hother => hother.1 hget
  · rw [encodes_iff hc']
    exact fun hother => hother.2 hc

/-- Commands that are allowed wherever the invariant holds, and that keep it. -/
theorem triple_of_transmits {α : Type} {P : Command → Prop} {I : Trace Bytes Answer → Prop}
    {x : CardM α} (hx : Card.Transmits P x)
    (hallowed : ∀ before c, I before → P c → Allowed ef pin before c)
    (hkeep : ∀ before c apdu a, I before → c.Valid → P c → Card.FromCall c apdu →
      I (before ++ [(apdu, a)])) :
    (own ef pin).Triple I x.run fun _ => I := by
  refine Triple.of_invariant (P := fun apdu => ∃ c : Command, c.Valid ∧ P c ∧ Card.FromCall c apdu)
    hx ?_
  intro before apdu a hI hapdu
  obtain ⟨c, hv, hP, hfrom⟩ := hapdu
  exact ⟨(hallowed before c hI hP).fromCall hv hfrom, hkeep before c apdu a hI hv hP hfrom⟩

end Discipline

/-! ### Selecting, reading, presenting and replacing -/

section Triples

variable {ef : Option UInt16} {pin : Option Pin}

/-- Nothing but unbound commands: allowed at any time. -/
theorem triple_unbound {α : Type} {x : CardM α} (hx : Card.Transmits Command.Unbound x) :
    (own ef pin).Triple (fun _ => True) x.run fun _ _ => True :=
  triple_of_transmits hx (fun _ _ _ hc => .of_unbound hc) fun _ _ _ _ _ _ _ _ => trivial

/-- Once SELECT FILE of an EF is accepted, that EF is selected. -/
theorem triple_selectEf (fuel : ℕ) (id : UInt16) :
    (own ef pin).Triple (fun _ => True) (Card.selectEf fuel id).run
      fun out past => out = .ok () → Selected id past := by
  have hsends : Card.Transmits Command.Unbound (Card.selectEf fuel id) :=
    (Card.transmits_callOk fuel
      (Command.unbound_of_ins Ins.selectFile rfl (by decide))).bind fun _ => .pure _
  intro past tr out _ hpath hassume
  refine ⟨(triple_unbound hsends past tr out trivial hpath hassume).1, ?_⟩
  intro hout
  subst hout
  rw [own, ofHistory_after]
  exact callOk_last (fun _ => rfl) (fun _ => ⟨rfl, rfl, rfl⟩)
    (fun c' hc' hsel => by rw [Command.IsSelectFile, hc'] at hsel; revert hsel; decide) hpath past

variable {id : UInt16} {value : Pin}

/-- What only looks at the selected EF leaves it selected. -/
theorem triple_inspects {α : Type} {x : CardM α} (hx : Card.Transmits Command.Inspects x) :
    (own (some id) pin).Triple (Selected id) x.run fun _ => Selected id := by
  refine triple_of_transmits hx (fun _ _ hsel hc => .of_inspects hsel hc) ?_
  intro before c apdu a hsel hv hc hfrom
  refine hsel.snoc_fromCall hv a hfrom ?_
  rcases hc with hc | hc | ⟨hc, -⟩ <;> rw [Command.IsSelectFile, hc] <;> decide

/-- A key that was presented and accepted is verified, and its EF is still selected. -/
theorem triple_verify (fuel : ℕ) :
    (own (some id) (some value)).Triple (Selected id) (Card.verify fuel value).run
      fun out past => Selected id past ∧ (out = .ok () → Verified value.bytes past) := by
  have hsends : Card.Transmits (Command.Verifies value.bytes) (Card.verify fuel value) :=
    (Card.transmits_callOk fuel ⟨rfl, rfl, rfl⟩).bind fun _ => .pure _
  have hkeeps : (own (some id) (some value)).Triple (Selected id) (Card.verify fuel value).run
      fun _ => Selected id := by
    refine triple_of_transmits hsends (fun _ _ hsel hc => .of_verifies hsel hc) ?_
    intro before c apdu a hsel hv hc hfrom
    refine hsel.snoc_fromCall hv a hfrom ?_
    rw [Command.IsSelectFile, hc.1]
    decide
  intro past tr out hsel hpath hassume
  obtain ⟨hsafe, hsel'⟩ := hkeeps past tr out hsel hpath hassume
  refine ⟨hsafe, hsel', ?_⟩
  intro hout
  subst hout
  rw [own, ofHistory_after]
  refine callOk_last (fun _ => ⟨by show Ins.verify ≠ Ins.getResponse; decide, ?_⟩)
    (fun _ => ⟨rfl, rfl, rfl⟩) (fun c' hc' hother => hother.1 hc') hpath past
  show ¬ (Ins.verify = Ins.changeReferenceData ∨ Ins.verify = Ins.changeKey)
  decide

/-- Commands that replace the key of the selected EF, once it is verified. -/
theorem triple_isChange {α : Type} {x : CardM α} (hx : Card.Transmits Command.IsChange x) :
    (own (some id) (some value)).Triple
      (fun past => Selected id past ∧ Verified value.bytes past) x.run fun _ _ => True := by
  refine (triple_of_transmits hx (fun _ _ h hc => .of_isChange h.1 h.2 hc) ?_).conseq
    (fun _ h => h) fun _ _ _ => trivial
  intro before c apdu a h hv hc hfrom
  refine ⟨h.1.snoc_fromCall hv a hfrom ?_, h.2.snoc_fromCall hv a hfrom hc⟩
  rcases hc with hc | hc <;> rw [Command.IsSelectFile, hc] <;> decide

end Triples

/-! ### The shapes of an operation -/

namespace Disciplined

variable {ef : Option UInt16} {pin : Option Pin} {α β : Type}

theorem of_unbound {x : CardM α} (hx : Card.Transmits Command.Unbound x) : Disciplined ef pin x :=
  triple_unbound hx

theorem of_run (x : Run α) : Disciplined ef pin (liftM x : CardM α) :=
  of_unbound (.of_run x)

theorem bind {x : CardM α} {f : α → CardM β} (hx : Disciplined ef pin x)
    (hf : ∀ a, Disciplined ef pin (f a)) : Disciplined ef pin (x >>= f) :=
  Triple.exceptT_bind hx hf fun _ _ _ => trivial

theorem yielding {x : CardM α} (hx : Disciplined ef pin x) (f : α → β) :
    Disciplined ef pin (yielding f x) :=
  hx.bind fun a => .of_run (.ok (f a))

theorem parsed {x : CardM Bytes} (hx : Disciplined ef pin x) (parse : Bytes → Run α) :
    Disciplined ef pin (Ap.parsed x parse) :=
  hx.bind fun raw => .of_run (parse raw)

variable {id : UInt16} {value : Pin} (fuel : ℕ)

/-- An operation may do on its EF what it may do once that is selected. -/
theorem onEf {x : CardM α}
    (hx : (own (some id) pin).Triple (Selected id) x.run fun _ _ => True) :
    Disciplined (some id) pin (Ap.onEf fuel id x) := by
  refine Triple.exceptT_bind (triple_selectEf fuel id) ?_ fun _ _ _ => trivial
  intro u
  exact hx.conseq (fun past hsel => hsel rfl) fun _ _ h => h

/-- Reading an EF, or asking for the attempts left on its key. -/
theorem onEf_inspects {x : CardM α} (hx : Card.Transmits Command.Inspects x) :
    Disciplined (some id) pin (Ap.onEf fuel id x) :=
  onEf fuel ((triple_inspects hx).conseq (fun _ h => h) fun _ _ _ => trivial)

theorem verifyKey (id : UInt16) (value : Pin) :
    Disciplined (some id) (some value) (Ap.verifyKey fuel id value) :=
  onEf fuel ((triple_verify fuel).conseq (fun _ h => h) fun _ _ _ => trivial)

theorem changePin {replace : CardM Unit} (hreplace : Card.Transmits Command.IsChange replace) :
    Disciplined (some id) (some value) (Ap.changePin fuel id value replace) := by
  refine onEf fuel (Triple.exceptT_bind (triple_verify fuel) ?_ fun _ _ _ => trivial)
  intro u
  exact (triple_isChange hreplace).conseq (fun past h => ⟨h.1, h.2 rfl⟩) fun _ _ h => h

end Disciplined

end MynaCard
