import MynaCard.Card
import MynaCard.IsoApdu

/-!
# One call, on the wire

What `Card::call` transmits and what it makes of the answers: the specification of one exchange,
the specification of the loop that collects a chained response, and the shape of the whole call.
Everything above this file reasons about calls through these lemmas and never unfolds the loop.

`MockTransport` is the scripted transport of the crate's own tests. Against it, a `Chain` is a
script of the shape the two conventions produce, `6Cxx` once and then any number of `61xx`; the
last section says which chains a call reassembles.
-/

namespace MynaCard

open Dialogue

/-- What `attempt` makes of a path: a value and an error are both values, and a panic stays one. -/
theorem path_attempt {α : Type} {x : CardM α} {tr : Trace Bytes Answer}
    {out : Run (Except Error α)} :
    Path (attempt x).run tr out ↔
      (∃ a, out = .ok (.ok a) ∧ Path x.run tr (.ok a)) ∨
      (∃ e, out = .ok (.error e) ∧ Path x.run tr (.error (.err e))) ∨
      ∃ stop, (∀ e, stop ≠ .err e) ∧ out = .error stop ∧ Path x.run tr (.error stop) := by
  show Path (x.run.bind _) tr out ↔ _
  rw [path_bind]
  constructor
  · rintro ⟨tr₁, (e | why | _ | _) | a, tr₂, rfl, h₁, h₂⟩
    all_goals
      obtain ⟨rfl, rfl⟩ := path_done.mp h₂
      rw [List.append_nil]
    · exact .inr (.inl ⟨e, rfl, h₁⟩)
    · exact .inr (.inr ⟨_, by simp, rfl, h₁⟩)
    · exact .inr (.inr ⟨_, by simp, rfl, h₁⟩)
    · exact .inr (.inr ⟨_, by simp, rfl, h₁⟩)
    · exact .inl ⟨a, rfl, h₁⟩
  · rintro (⟨a, rfl, h⟩ | ⟨e, rfl, h⟩ | ⟨stop, hstop, rfl, h⟩)
    · exact ⟨tr, _, [], (List.append_nil tr).symm, h, .done _⟩
    · exact ⟨tr, _, [], (List.append_nil tr).symm, h, .done _⟩
    · refine ⟨tr, _, [], (List.append_nil tr).symm, h, ?_⟩
      rcases stop with e | why | _ | _
      · exact absurd rfl (hstop e)
      all_goals exact .done _

/-- A path of an attempt and what comes after it. -/
theorem path_attempt_bind {α β : Type} {x : CardM α} {f : Except Error α → CardM β}
    {tr : Trace Bytes Answer} {out : Run β} (h : Path (attempt x >>= f).run tr out) :
    ∃ tr₁ r tr₂, tr = tr₁ ++ tr₂ ∧ Path x.run tr₁ r ∧
      ((∃ a, r = .ok a ∧ Path (f (.ok a)).run tr₂ out) ∨
        (∃ e, r = .error (.err e) ∧ Path (f (.error e)).run tr₂ out) ∨
        ∃ stop, (∀ e, stop ≠ .err e) ∧ r = .error stop ∧ tr₂ = [] ∧ out = .error stop) := by
  obtain ⟨stop, rfl, hfail⟩ | ⟨tr₁, r, tr₂, rfl, h₁, h₂⟩ := path_exceptT_bind.mp h
  · obtain ⟨a, ha, -⟩ | ⟨e, he, -⟩ | ⟨stop', hstop, heq, hpath⟩ := path_attempt.mp hfail
    · cases ha
    · cases he
    · obtain rfl := Except.error.inj heq
      exact ⟨tr, _, [], (List.append_nil tr).symm, hpath, .inr (.inr ⟨stop, hstop, rfl, rfl, rfl⟩)⟩
  · obtain ⟨a, ha, hpath⟩ | ⟨e, he, hpath⟩ | ⟨stop, -, hstop, -⟩ := path_attempt.mp h₁
    · obtain rfl := Except.ok.inj ha
      exact ⟨tr₁, _, tr₂, rfl, hpath, .inl ⟨a, rfl, h₂⟩⟩
    · obtain rfl := Except.ok.inj he
      exact ⟨tr₁, _, tr₂, rfl, hpath, .inr (.inl ⟨e, rfl, h₂⟩)⟩
    · cases hstop

/-- An operation whose value is not looked at sends what the operation sends. -/
theorem path_ignored {α : Type} {x : CardM α} {tr : Trace Bytes Answer} {out : Run Unit} :
    Path (x >>= fun _ => (pure () : CardM Unit)).run tr out ↔
      ∃ r, Path x.run tr r ∧ out = r.map fun _ => () := by
  rw [path_exceptT_bind]
  constructor
  · intro h
    rcases h with ⟨stop, rfl, h⟩ | ⟨tr₁, a, tr₂, rfl, h₁, h₂⟩
    · exact ⟨_, h, rfl⟩
    · obtain ⟨rfl, rfl⟩ := path_done.mp h₂
      exact ⟨_, by rwa [List.append_nil], rfl⟩
  · intro h
    obtain ⟨r, h, rfl⟩ := h
    cases r with
    | error stop => exact .inl ⟨stop, rfl, h⟩
    | ok a => exact .inr ⟨tr, a, [], (List.append_nil tr).symm, h, .done _⟩

namespace Card

/-! ### One exchange -/

/-- What one exchange makes of the transport's answer. -/
def answered : Answer → Run Response
  | .ok raw => Response.parse raw
  | .error e => .error (.err e)

@[simp] theorem answered_toBytes (r : Response) : answered (.ok r.toBytes) = .ok r :=
  Response.parse_toBytes r

/-- An exchange that fails returns an error. -/
theorem answered_eq_error {a : Answer} {stop : Stop} (h : answered a = .error stop) :
    ∃ e, stop = .err e := by
  cases a with
  | error e => exact ⟨e, (Except.error.inj h).symm⟩
  | ok raw =>
    by_cases hlen : raw.length < 2
    · exact ⟨.shortResponse raw.length,
        (Except.error.inj ((Response.parse_of_length_lt_two hlen).symm.trans h)).symm⟩
    · obtain ⟨r, rfl⟩ := Response.exists_of_two_le (by omega : 2 ≤ raw.length)
      rw [answered_toBytes] at h
      cases h

theorem transmitOnce_run {c : Command} (hv : c.Valid) :
    (transmitOnce c).run = ask c.encoding fun a => done (answered a) := by
  show (liftM c.toBytes >>= fun apdu => transmit apdu >>= fun raw => liftM (Response.parse raw)
    : CardM Response).run = _
  rw [Command.toBytes_of_valid hv]
  show ask c.encoding _ = ask c.encoding _
  congr 1
  funext a
  cases a <;> rfl

theorem transmitOnce_run_not_valid {c : Command} (hv : ¬ c.Valid) :
    ∃ e, (transmitOnce c).run = done (.error (.err e)) := by
  obtain ⟨e, he⟩ := Command.toBytes_of_not_valid hv
  refine ⟨e, ?_⟩
  show (liftM c.toBytes >>= fun apdu => transmit apdu >>= fun raw => liftM (Response.parse raw)
    : CardM Response).run = _
  rw [he]
  rfl

theorem getResponse_valid_iff (available : UInt8) : (getResponse available).Valid ↔ available ≠ 0 := by
  revert available
  decide +kernel

theorem getResponse_encoding (available : UInt8) :
    (getResponse available).encoding = [0x00, 0xC0, 0x00, 0x00, available] := by
  revert available
  decide +kernel

theorem retry_valid {c : Command} (hv : c.Valid) (le : UInt8) : (retry c le).Valid := by
  refine ⟨hv.1, ?_⟩
  intro n hn
  obtain rfl : (if le = 0 then 256 else le.toUInt32) = n := Option.some.inj hn
  have hlt := le.toNat_lt
  split
  · decide
  · rename_i hne
    have hpos : le.toNat ≠ 0 := fun h => hne (UInt8.toNat_inj.mp h)
    simp only [UInt8.toNat_toUInt32]
    omega

/-! ### The collecting loop -/

theorem collect_done (fuel : ℕ) {r : Response} (h : r.status.moreDataAvailable = none) :
    collect fuel r = pure r := by
  cases fuel <;> simp [collect, h]

theorem collect_zero {r : Response} {n : UInt8} (h : r.status.moreDataAvailable = some n) :
    collect 0 r = throw .running := by
  simp [collect, h]

theorem collect_succ (fuel : ℕ) {r : Response} {n : UInt8}
    (h : r.status.moreDataAvailable = some n) :
    collect (fuel + 1) r = transmitOnce (getResponse n) >>= fun next =>
      collect fuel ⟨r.data ++ next.data, next.status⟩ := by
  simp [collect, h]

/-- One round of the loop. -/
theorem collect_run (fuel : ℕ) {r : Response} {n : UInt8}
    (h : r.status.moreDataAvailable = some n) (hn : n ≠ 0) :
    (collect (fuel + 1) r).run = ask (getResponse n).encoding fun a =>
      orElseDone (fun next => (collect fuel ⟨r.data ++ next.data, next.status⟩).run)
        (answered a) := by
  rw [collect_succ fuel h, exceptT_run_bind,
    transmitOnce_run ((getResponse_valid_iff n).mpr hn)]
  rfl

/-- A `6100` asks for a GET RESPONSE that cannot be encoded. -/
theorem collect_run_6100 (fuel : ℕ) {r : Response} (h : r.status.moreDataAvailable = some 0) :
    ∃ stop, (collect fuel r).run = done (.error stop) := by
  cases fuel with
  | zero => exact ⟨.running, by rw [collect_zero h]; rfl⟩
  | succ fuel =>
    obtain ⟨e, he⟩ := transmitOnce_run_not_valid (mt (getResponse_valid_iff 0).mp (by simp))
    exact ⟨.err e, by rw [collect_succ fuel h, exceptT_run_bind, he]; rfl⟩

/-- The APDUs of a trace are all GET RESPONSE commands. -/
def OnlyGetResponses (tr : Trace Bytes Answer) : Prop :=
  ∀ e ∈ tr, ∃ n, e.1 = (getResponse n).encoding

theorem onlyGetResponses_nil : OnlyGetResponses [] := fun _ he => nomatch he

theorem OnlyGetResponses.cons {n : UInt8} {a : Answer} {tr : Trace Bytes Answer}
    (h : OnlyGetResponses tr) : OnlyGetResponses (((getResponse n).encoding, a) :: tr) := by
  intro e he
  rcases List.mem_cons.mp he with rfl | he
  · exact ⟨n, rfl⟩
  · exact h e he

/-- A path of what comes after an exchange: nothing more if the exchange failed. -/
theorem path_orElseDone_answered {f : Response → Dialogue Bytes Answer (Run Response)} {a : Answer}
    {tr : Trace Bytes Answer} {out : Run Response}
    (h : Path (orElseDone f (answered a)) tr out) :
    (tr = [] ∧ ∃ e, answered a = .error (.err e) ∧ out = .error (.err e)) ∨
      ∃ r, answered a = .ok r ∧ Path (f r) tr out := by
  cases ha : answered a with
  | ok r =>
    rw [ha] at h
    exact .inr ⟨r, rfl, h⟩
  | error stop =>
    rw [ha] at h
    obtain ⟨rfl, rfl⟩ := path_done.mp h
    obtain ⟨e, rfl⟩ := answered_eq_error ha
    exact .inl ⟨rfl, e, rfl, rfl⟩

/-- The loop sends GET RESPONSE commands and nothing else. -/
theorem collect_onlyGetResponses {fuel : ℕ} {r : Response} {tr : Trace Bytes Answer}
    {out : Run Response} (h : Path (collect fuel r).run tr out) : OnlyGetResponses tr := by
  induction fuel generalizing r tr with
  | zero =>
    cases hmore : r.status.moreDataAvailable with
    | none =>
      rw [collect_done 0 hmore] at h
      exact (path_done.mp h).1 ▸ onlyGetResponses_nil
    | some n =>
      rw [collect_zero hmore] at h
      exact (path_done.mp h).1 ▸ onlyGetResponses_nil
  | succ fuel ih =>
    cases hmore : r.status.moreDataAvailable with
    | none =>
      rw [collect_done _ hmore] at h
      exact (path_done.mp h).1 ▸ onlyGetResponses_nil
    | some n =>
      by_cases hn : n = 0
      · obtain ⟨stop, hrun⟩ := collect_run_6100 (fuel + 1) (hn ▸ hmore)
        rw [hrun] at h
        exact (path_done.mp h).1 ▸ onlyGetResponses_nil
      · rw [collect_run fuel hmore hn] at h
        obtain ⟨a, tr', rfl, h'⟩ := path_ask.mp h
        rcases path_orElseDone_answered h' with ⟨rfl, -⟩ | ⟨next, -, hnext⟩
        · exact onlyGetResponses_nil.cons
        · exact (ih hnext).cons

/-! ### The whole call -/

/-- The `xx` of an answer `6Cxx`. -/
def correctLeOf (a : Answer) : Option UInt8 :=
  match answered a with
  | .ok r => r.status.correctLe
  | .error _ => none

/-- What the call does with the response to its first transmission. -/
def afterFirst (fuel : ℕ) (c : Command) (r : Response) : Dialogue Bytes Answer (Run Response) :=
  match r.status.correctLe with
  | none => (collect fuel r).run
  | some le => ask (retry c le).encoding fun b =>
    orElseDone (fun r' => (collect fuel r').run) (answered b)

theorem call_run (fuel : ℕ) {c : Command} (hv : c.Valid) :
    (call fuel c).run =
      ask c.encoding fun a => orElseDone (afterFirst fuel c) (answered a) := by
  rw [call, exceptT_run_bind, transmitOnce_run hv, ask_bind]
  congr 1
  funext a
  rw [done_bind]
  congr 1
  funext r
  unfold afterFirst
  cases hle : r.status.correctLe with
  | none => rfl
  | some le =>
    show ((transmitOnce (retry c le)) >>= fun r' => collect fuel r').run = _
    rw [exceptT_run_bind, transmitOnce_run (retry_valid hv le)]
    rfl

theorem call_run_not_valid (fuel : ℕ) {c : Command} (hv : ¬ c.Valid) :
    ∃ e, (call fuel c).run = done (.error (.err e)) := by
  obtain ⟨e, he⟩ := transmitOnce_run_not_valid hv
  exact ⟨e, by rw [call, exceptT_run_bind, he]; rfl⟩

/-- **What a call transmits.** The command; if that is answered `6Cxx`, the command once more with
`Le` corrected; and then GET RESPONSE commands only. -/
theorem call_transmits {fuel : ℕ} {c : Command} (hv : c.Valid) {tr : Trace Bytes Answer}
    {out : Run Response} (h : Path (call fuel c).run tr out) :
    ∃ a rest, tr = (c.encoding, a) :: rest ∧
      ((correctLeOf a = none ∧ OnlyGetResponses rest) ∨
        ∃ le b rest', correctLeOf a = some le ∧ rest = ((retry c le).encoding, b) :: rest' ∧
          OnlyGetResponses rest') := by
  rw [call_run fuel hv] at h
  obtain ⟨a, rest, rfl, h'⟩ := path_ask.mp h
  refine ⟨a, rest, rfl, ?_⟩
  unfold correctLeOf
  rcases path_orElseDone_answered h' with ⟨rfl, e, ha, -⟩ | ⟨r, ha, hr⟩
  · rw [ha]
    exact .inl ⟨rfl, onlyGetResponses_nil⟩
  · rw [ha]
    unfold afterFirst at hr
    cases hle : r.status.correctLe with
    | none =>
      rw [hle] at hr
      exact .inl ⟨hle, collect_onlyGetResponses hr⟩
    | some le =>
      rw [hle] at hr
      obtain ⟨b, rest', rfl, hr'⟩ := path_ask.mp hr
      refine .inr ⟨le, b, rest', hle, rfl, ?_⟩
      rcases path_orElseDone_answered hr' with ⟨rfl, -⟩ | ⟨r', -, hr''⟩
      · exact onlyGetResponses_nil
      · exact collect_onlyGetResponses hr''

/-- The APDU is one a call of `c` can send. -/
def FromCall (c : Command) (apdu : Bytes) : Prop :=
  apdu = c.encoding ∨ (∃ le, apdu = (retry c le).encoding) ∨ ∃ n, apdu = (getResponse n).encoding

theorem call_fromCall {fuel : ℕ} {c : Command} (hv : c.Valid) {tr : Trace Bytes Answer}
    {out : Run Response} (h : Path (call fuel c).run tr out) : ∀ e ∈ tr, FromCall c e.1 := by
  obtain ⟨a, rest, rfl, hrest⟩ := call_transmits hv h
  intro e he
  rcases List.mem_cons.mp he with rfl | he
  · exact .inl rfl
  · rcases hrest with ⟨-, hrest⟩ | ⟨le, b, rest', -, rfl, hrest⟩
    · exact .inr (.inr (hrest e he))
    · rcases List.mem_cons.mp he with rfl | he
      · exact .inr (.inl ⟨le, rfl⟩)
      · exact .inr (.inr (hrest e he))

/-- An answer a call can go on from: a response, and not a `6100`. -/
def Workable (a : Answer) : Prop :=
  ∃ r : Response, a = .ok r.toBytes ∧ r.status.moreDataAvailable ≠ some 0

/-- Given answers it can go on from, the loop returns a response, if it returns. -/
theorem collect_workable {fuel : ℕ} {r : Response} {tr : Trace Bytes Answer} {out : Run Response}
    (h : Path (collect fuel r).run tr out) (hr : r.status.moreDataAvailable ≠ some 0)
    (hw : ∀ e ∈ tr, Workable e.2) : out = .error .running ∨ ∃ r', out = .ok r' := by
  induction fuel generalizing r tr with
  | zero =>
    cases hmore : r.status.moreDataAvailable with
    | none =>
      rw [collect_done 0 hmore] at h
      exact .inr ⟨r, (path_done.mp h).2⟩
    | some n =>
      rw [collect_zero hmore] at h
      exact .inl (path_done.mp h).2
  | succ fuel ih =>
    cases hmore : r.status.moreDataAvailable with
    | none =>
      rw [collect_done _ hmore] at h
      exact .inr ⟨r, (path_done.mp h).2⟩
    | some n =>
      have hn : n ≠ 0 := by
        intro h0
        exact hr (h0 ▸ hmore)
      rw [collect_run fuel hmore hn] at h
      obtain ⟨a, tr', rfl, h'⟩ := path_ask.mp h
      obtain ⟨next, rfl, hnext⟩ := hw _ List.mem_cons_self
      rw [answered_toBytes, orElseDone_ok] at h'
      exact ih h' hnext fun e he => hw e (List.mem_cons_of_mem _ he)

/-- Given answers it can go on from, a call returns a response, if it returns. -/
theorem call_workable {fuel : ℕ} {c : Command} (hv : c.Valid) {tr : Trace Bytes Answer}
    {out : Run Response} (h : Path (call fuel c).run tr out) (hw : ∀ e ∈ tr, Workable e.2) :
    out = .error .running ∨ ∃ r, out = .ok r := by
  rw [call_run fuel hv] at h
  obtain ⟨a, rest, rfl, h'⟩ := path_ask.mp h
  obtain ⟨r, rfl, hr⟩ := hw _ List.mem_cons_self
  rw [answered_toBytes, orElseDone_ok, afterFirst] at h'
  cases hle : r.status.correctLe with
  | none =>
    rw [hle] at h'
    exact collect_workable h' hr fun e he => hw e (List.mem_cons_of_mem _ he)
  | some le =>
    rw [hle] at h'
    obtain ⟨b, rest', rfl, h''⟩ := path_ask.mp h'
    obtain ⟨r', rfl, hr'⟩ := hw _ (List.mem_cons_of_mem _ List.mem_cons_self)
    rw [answered_toBytes, orElseDone_ok] at h''
    exact collect_workable h'' hr' fun e he =>
      hw e (List.mem_cons_of_mem _ (List.mem_cons_of_mem _ he))

/-- A call that also asks for success sends what the call sends. -/
theorem path_callOk {fuel : ℕ} {c : Command} {tr : Trace Bytes Answer} {out : Run Bytes} :
    Path (callOk fuel c).run tr out ↔
      ∃ r, Path (call fuel c).run tr r ∧ out = r.bind Response.intoData := by
  rw [callOk, path_exceptT_bind]
  constructor
  · rintro (⟨stop, rfl, h⟩ | ⟨tr₁, response, tr₂, rfl, h₁, h₂⟩)
    · exact ⟨_, h, rfl⟩
    · obtain ⟨rfl, rfl⟩ := path_done.mp h₂
      exact ⟨_, by rwa [List.append_nil], rfl⟩
  · rintro ⟨stop | response, h, rfl⟩
    · exact .inl ⟨stop, rfl, h⟩
    · exact .inr ⟨tr, response, [], (List.append_nil tr).symm, h, .done _⟩

end Card

/-! ### The scripted transport -/

/-- `MockTransport`: replays a script and records what was sent. -/
structure MockTransport where
  responses : List Bytes
  sent : List Bytes
  deriving DecidableEq, Repr

namespace MockTransport

/-- `MockTransport::new`. -/
def new (responses : List Bytes) : MockTransport := ⟨responses, []⟩

/-- `MockTransport::transmit`. An exhausted script answers `6F00`. -/
def transmit (apdu : Bytes) (t : MockTransport) : Answer × MockTransport :=
  match t.responses with
  | [] => (.ok [0x6F, 0x00], ⟨[], t.sent ++ [apdu]⟩)
  | r :: rs => (.ok r, ⟨rs, t.sent ++ [apdu]⟩)

@[simp] theorem transmit_cons (apdu r : Bytes) (rs sent : List Bytes) :
    transmit apdu ⟨r :: rs, sent⟩ = (.ok r, ⟨rs, sent ++ [apdu]⟩) := rfl

end MockTransport

/-! ### Chains -/

/-- The responses of one chained exchange: at most one `6Cxx`, any number of `61xx`, and one
response that ends it. The `6Cxx` and the `61xx` are kept as data field and `xx`. -/
structure Chain where
  correct : Option (Bytes × UInt8)
  links : List (Bytes × UInt8)
  last : Response
  sw1_ne_61 : last.status.sw1 ≠ 0x61
  sw1_ne_6C : last.status.sw1 ≠ 0x6C

namespace Chain

open Dialogue

/-- The response `data 61xx`. -/
def link (l : Bytes × UInt8) : Response := ⟨l.1, .ofBytes 0x61 l.2⟩

/-- The response `data 6Cxx`. -/
def correction (l : Bytes × UInt8) : Response := ⟨l.1, .ofBytes 0x6C l.2⟩

/-- The responses after any `6Cxx`, in order. -/
def linkResponses (ch : Chain) : List Response := ch.links.map link ++ [ch.last]

/-- The whole script, in order. -/
def responses (ch : Chain) : List Bytes :=
  (ch.correct.toList.map correction ++ ch.linkResponses).map Response.toBytes

/-- The data fields of all the responses but the `6Cxx`, in order. -/
def data (ch : Chain) : Bytes := (ch.linkResponses.map Response.data).flatten

/-- GET RESPONSE for the `xx` bytes of a `61xx`, where `00` stands for 256. -/
def getResponseFor (l : Bytes × UInt8) : Command :=
  Command.withLe 0x00 0xC0 0x00 0x00 (shortLe l.2)

/-- The commands the two conventions call for: the command, the command with `Le` corrected if a
`6Cxx` asks for it, and one GET RESPONSE for each `61xx`. -/
def commands (c : Command) (ch : Chain) : List Command :=
  c :: (ch.correct.toList.map fun l => { c with le := some (shortLe l.2) }) ++
    ch.links.map getResponseFor

/-- A call on the chain gives its data and its last status, and transmits what the conventions call
for. -/
def Reassembled (fuel : ℕ) (c : Command) (ch : Chain) : Prop :=
  (Card.call fuel c).run.run MockTransport.transmit (.new ch.responses) =
    (.ok ⟨ch.data, ch.last.status⟩, ⟨[], (ch.commands c).map Command.encoding⟩)

theorem link_moreDataAvailable (l : Bytes × UInt8) :
    (link l).status.moreDataAvailable = some l.2 := by
  simp [link, StatusWord.moreDataAvailable]

theorem link_correctLe (l : Bytes × UInt8) : (link l).status.correctLe = none := by
  simp [link, StatusWord.correctLe]

theorem correction_correctLe (l : Bytes × UInt8) :
    (correction l).status.correctLe = some l.2 := by
  simp [correction, StatusWord.correctLe]

theorem last_moreDataAvailable (ch : Chain) : ch.last.status.moreDataAvailable = none := by
  simp [StatusWord.moreDataAvailable, ch.sw1_ne_61]

theorem last_correctLe (ch : Chain) : ch.last.status.correctLe = none := by
  simp [StatusWord.correctLe, ch.sw1_ne_6C]

theorem getResponseFor_eq {l : Bytes × UInt8} (h : l.2 ≠ 0) :
    getResponseFor l = Card.getResponse l.2 := by
  simp [getResponseFor, Card.getResponse, shortLe, h, Cla.user, Ins.getResponse]

/-- The first response of a chain's links, and the ones still to come. -/
theorem exists_head (links : List (Bytes × UInt8)) (last : Response) :
    ∃ head tail, links.map link ++ [last] = head :: tail := by
  cases links with
  | nil => exact ⟨last, [], rfl⟩
  | cons l links => exact ⟨link l, links.map link ++ [last], rfl⟩

/-- One round of the loop on a chain. -/
theorem collect_link (fuel : ℕ) {l : Bytes × UInt8} (hl : l.2 ≠ 0) (d : Bytes) (head : Response)
    (tail : List Response) (sent : List Bytes) :
    (Card.collect (fuel + 1) ⟨d ++ l.1, (link l).status⟩).run.run MockTransport.transmit
        ⟨(head :: tail).map Response.toBytes, sent⟩ =
      (Card.collect fuel ⟨d ++ l.1 ++ head.data, head.status⟩).run.run MockTransport.transmit
        ⟨tail.map Response.toBytes, sent ++ [(getResponseFor l).encoding]⟩ := by
  rw [Card.collect_run fuel (r := ⟨d ++ l.1, (link l).status⟩) (link_moreDataAvailable l) hl,
    getResponseFor_eq hl, List.map_cons, run_ask, MockTransport.transmit_cons]
  simp only [Card.answered_toBytes, orElseDone_ok]

/-- Once the first response of a chain is in hand, with `d` the data collected before it, the loop
collects the rest, if no link is a `6100`. -/
theorem collect_links {last : Response} (hlast : last.status.moreDataAvailable = none) {fuel : ℕ}
    {links : List (Bytes × UInt8)} (hfuel : links.length ≤ fuel) (hne : ∀ l ∈ links, l.2 ≠ 0)
    {head : Response} {tail : List Response} (hchain : links.map link ++ [last] = head :: tail)
    (d : Bytes) (sent : List Bytes) :
    (Card.collect fuel ⟨d ++ head.data, head.status⟩).run.run MockTransport.transmit
        ⟨tail.map Response.toBytes, sent⟩ =
      (.ok ⟨d ++ ((links.map link ++ [last]).map Response.data).flatten, last.status⟩,
        ⟨[], sent ++ (links.map getResponseFor).map Command.encoding⟩) := by
  induction links generalizing fuel head tail d sent with
  | nil =>
    obtain ⟨rfl, rfl⟩ := List.cons.inj hchain
    rw [Card.collect_done fuel (r := ⟨d ++ last.data, last.status⟩) hlast]
    simp
  | cons l links ih =>
    obtain ⟨rfl, rfl⟩ := List.cons.inj hchain
    obtain ⟨fuel, rfl⟩ : ∃ n, fuel = n + 1 := ⟨fuel - 1, by simp at hfuel; omega⟩
    obtain ⟨head, tail, hrest⟩ := exists_head links last
    have hstep := ih (show links.length ≤ fuel from by simpa using hfuel)
      (fun x hx => hne x (List.mem_cons_of_mem _ hx)) hrest (d ++ l.1)
      (sent ++ [(getResponseFor l).encoding])
    show (Card.collect (fuel + 1) ⟨d ++ l.1, (link l).status⟩).run.run MockTransport.transmit
      (⟨(links.map link ++ [last]).map Response.toBytes, sent⟩ : MockTransport) = _
    rw [hrest, collect_link fuel (hne l List.mem_cons_self), hstep]
    simp [hrest, link]

/-- The loop fails at a `6100`. -/
theorem collect_links_6100 {last : Response} {fuel : ℕ} {links : List (Bytes × UInt8)}
    (hzero : ∃ l ∈ links, l.2 = 0) {head : Response} {tail : List Response}
    (hchain : links.map link ++ [last] = head :: tail) (d : Bytes) (sent : List Bytes) :
    ∃ stop t, (Card.collect fuel ⟨d ++ head.data, head.status⟩).run.run MockTransport.transmit
        ⟨tail.map Response.toBytes, sent⟩ = (.error stop, t) := by
  induction links generalizing fuel head tail d sent with
  | nil => simp at hzero
  | cons l links ih =>
    obtain ⟨rfl, rfl⟩ := List.cons.inj hchain
    by_cases hl : l.2 = 0
    · have hmore : (link l).status.moreDataAvailable = some 0 := hl ▸ link_moreDataAvailable l
      obtain ⟨stop, hrun⟩ :=
        Card.collect_run_6100 fuel (r := ⟨d ++ (link l).data, (link l).status⟩) hmore
      exact ⟨stop, _, by rw [hrun]; rfl⟩
    · have hzero' : ∃ x ∈ links, x.2 = 0 := by
        obtain ⟨x, hx, hx0⟩ := hzero
        rcases List.mem_cons.mp hx with rfl | hx
        · exact absurd hx0 hl
        · exact ⟨x, hx, hx0⟩
      cases fuel with
      | zero =>
        rw [Card.collect_zero (r := ⟨d ++ (link l).data, _⟩) (link_moreDataAvailable l)]
        exact ⟨_, _, rfl⟩
      | succ fuel =>
        obtain ⟨head, tail, hrest⟩ := exists_head links last
        show ∃ stop t, (Card.collect (fuel + 1) ⟨d ++ l.1, (link l).status⟩).run.run
          MockTransport.transmit
          (⟨(links.map link ++ [last]).map Response.toBytes, sent⟩ : MockTransport) =
            (.error stop, t)
        rw [hrest, collect_link fuel hl]
        exact ih hzero' hrest (d ++ l.1) _

/-- The whole call on a chain, up to the loop. -/
theorem call_chain (fuel : ℕ) {c : Command} (hv : c.Valid) (ch : Chain) {head : Response}
    {tail : List Response} (hchain : ch.linkResponses = head :: tail) :
    (Card.call fuel c).run.run MockTransport.transmit (.new ch.responses) =
      (Card.collect fuel head).run.run MockTransport.transmit ⟨tail.map Response.toBytes,
        (c :: ch.correct.toList.map fun l => { c with le := some (shortLe l.2) }).map
          Command.encoding⟩ := by
  have hhead : head.status.correctLe = none := by
    unfold linkResponses at hchain
    cases hlinks : ch.links with
    | nil =>
      rw [hlinks] at hchain
      exact (List.cons.inj hchain).1 ▸ ch.last_correctLe
    | cons l links =>
      rw [hlinks] at hchain
      exact (List.cons.inj hchain).1 ▸ link_correctLe l
  rw [Card.call_run fuel hv, run_ask, MockTransport.new, responses, hchain]
  cases hcorrect : ch.correct with
  | none =>
    simp only [Option.toList_none, List.map_nil, List.nil_append, List.map_cons,
      MockTransport.transmit_cons, Card.answered_toBytes, orElseDone_ok, Card.afterFirst, hhead]
  | some l =>
    simp only [Option.toList_some, List.map_cons, List.map_nil, List.cons_append, List.nil_append,
      MockTransport.transmit_cons, Card.answered_toBytes, orElseDone_ok, Card.afterFirst,
      correction_correctLe, run_ask]
    rfl

/-- **A call reassembles a chain exactly when no link of it is a `6100`.** -/
theorem call_reassembles_iff (fuel : ℕ) (c : Command) (hv : c.Valid) (ch : Chain)
    (hfuel : ch.links.length ≤ fuel) :
    Reassembled fuel c ch ↔ ∀ l ∈ ch.links, l.2 ≠ 0 := by
  obtain ⟨head, tail, hchain⟩ := exists_head ch.links ch.last
  unfold Reassembled
  rw [call_chain fuel hv ch hchain]
  constructor
  · intro h l hl hzero
    obtain ⟨stop, t, hstop⟩ := @collect_links_6100 _ fuel _ ⟨l, hl, hzero⟩ _ _ hchain []
      ((c :: ch.correct.toList.map fun l => { c with le := some (shortLe l.2) }).map
          Command.encoding)
    rw [List.nil_append, h] at hstop
    simp at hstop
  · intro hne
    have hrun := collect_links ch.last_moreDataAvailable hfuel hne hchain []
      ((c :: ch.correct.toList.map fun l => { c with le := some (shortLe l.2) }).map
          Command.encoding)
    rw [List.nil_append] at hrun
    rw [hrun]
    simp [data, linkResponses, commands]

/-- READ BINARY answered `6C 04` and then, with that `Le`, `DE 61 02`, `AD BE 61 01` and
`EF 90 00`. -/
def correctedChain : Chain where
  correct := some ([], 0x04)
  links := [([0xDE], 0x02), ([0xAD, 0xBE], 0x01)]
  last := ⟨[0xEF], .success⟩
  sw1_ne_61 := by decide
  sw1_ne_6C := by decide

theorem call_reassembles_iff_readBinary :
    (Reassembled 2 (Command.withLe 0x00 0xB0 0x00 0x00 256) correctedChain ↔
        ∀ l ∈ correctedChain.links, l.2 ≠ 0) ∧
      Reassembled 2 (Command.withLe 0x00 0xB0 0x00 0x00 256) correctedChain ∧
      correctedChain.data = [0xDE, 0xAD, 0xBE, 0xEF] ∧
      (correctedChain.commands (Command.withLe 0x00 0xB0 0x00 0x00 256)).map Command.encoding =
        [[0x00, 0xB0, 0x00, 0x00, 0x00], [0x00, 0xB0, 0x00, 0x00, 0x04],
          [0x00, 0xC0, 0x00, 0x00, 0x02], [0x00, 0xC0, 0x00, 0x00, 0x01]] := by
  have hiff := call_reassembles_iff 2 (Command.withLe 0x00 0xB0 0x00 0x00 256) (by decide)
    correctedChain (by decide)
  exact ⟨hiff, hiff.mpr (by decide), rfl, rfl⟩

/-- READ BINARY answered `61 00` and then `AD 90 00`: the call returns an error instead of the
byte, and transmits no GET RESPONSE at all. -/
theorem not_reassembled_6100 :
    ¬ Reassembled 1 (Command.withLe 0x00 0xB0 0x00 0x00 256)
        ⟨none, [([], 0x00)], ⟨[0xAD], .success⟩, by decide, by decide⟩ ∧
      (Card.call 1 (Command.withLe 0x00 0xB0 0x00 0x00 256)).run.run MockTransport.transmit
          (.new [[0x61, 0x00], [0xAD, 0x90, 0x00]]) =
        (.error (.err (.expectedLengthOutOfRange 0)),
          ⟨[[0xAD, 0x90, 0x00]], [[0x00, 0xB0, 0x00, 0x00, 0x00]]⟩) := by
  refine ⟨?_, ?_⟩
  · intro h
    exact absurd (congrArg (fun x => x.1.toOption.isSome) h) (by decide)
  · rfl

end Chain

end MynaCard
