import MynaCard.CallReturns
import MynaCard.Mf
import MynaCard.OverflowReads

/-!
# How often the readers call the card

The lengths the readers go by come from the card and can be as large as `2^64`. What ends their loops
is that every turn but the last adds to what has been read, and that offsets and record numbers are
bounded. Against a card that returns from every single call, each reader is over within a fixed
number of commands (`readers_finish`).

A `Budget` says how many commands of each instruction an operation may come to. Budgets add along a
sequence of operations, so the budget of a loop is that of one turn and that of the turns after it.
-/

namespace MynaCard

open Dialogue

/-! ### Computations without a loop to wait for -/

theorem Returned.ended {α : Type} {x : Run α} (h : Returned x) : x ≠ .error .running := by
  intro hrunning
  obtain ⟨e, he⟩ := h _ hrunning
  cases he

theorem ended_totalLen (oc : OverflowChecks) (h : Ber.Header) :
    h.totalLen oc ≠ .error .running := by
  unfold Ber.Header.totalLen usizeAdd
  split
  · simp
  · cases oc
    all_goals simp

theorem ended_parse (oc : OverflowChecks) (data : Bytes) :
    Ber.parse oc data ≠ .error .running := by
  refine bind_ne_error (returned_parseHeader data).ended fun header _ => ?_
  refine bind_ne_error (ended_totalLen oc header) fun stop _ => ?_
  exact bind_ne_error (returned_orMalformed _ _).ended fun value _ => (returned_ok _).ended

theorem ended_parseCryptogram (oc : OverflowChecks) (response : Bytes) :
    parseCryptogram oc response ≠ .error .running := by
  refine bind_ne_error (ended_parse oc response) fun tlv _ => ?_
  split
  · exact (returned_malformed _).ended
  · split
    · exact (returned_malformed _).ended
    · split
      · exact (returned_ok _).ended
      · exact (returned_malformed _).ended

/-! ### Budgets -/

/-- How many commands of each instruction there may be. -/
abbrev Budget := UInt8 → ℕ

/-- At most `n` commands, all with the instruction `ins`. -/
def only (ins : UInt8) (n : ℕ) : Budget := fun i => if i = ins then n else 0

/-- The commands are within the budget. -/
def Within (b : Budget) (commands : List Command) : Prop :=
  ∀ ins, commands.countP (fun c => c.ins = ins) ≤ b ins

theorem only_add (ins : UInt8) (m n : ℕ) : only ins m + only ins n = only ins (m + n) := by
  funext i
  show (if i = ins then m else 0) + (if i = ins then n else 0) = if i = ins then m + n else 0
  split <;> rfl

theorem only_mono (ins : UInt8) {m n : ℕ} (h : m ≤ n) : only ins m ≤ only ins n := by
  intro i
  unfold only
  split
  · exact h
  · exact le_refl 0

theorem within_nil (b : Budget) : Within b [] := fun _ => Nat.zero_le _

theorem within_single (c : Command) : Within (only c.ins 1) [c] := by
  intro ins
  unfold only
  by_cases h : ins = c.ins
  · rw [if_pos h]
    exact List.countP_le_length
  · rw [if_neg h, List.countP_cons_of_neg (by simpa using fun heq => h heq.symm)]
    exact le_refl 0

theorem Within.append {b b' : Budget} {cs cs' : List Command} (h : Within b cs)
    (h' : Within b' cs') : Within (b + b') (cs ++ cs') := by
  intro ins
  rw [List.countP_append]
  exact Nat.add_le_add (h ins) (h' ins)

theorem Within.mono {b b' : Budget} {cs : List Command} (h : Within b cs) (hle : b ≤ b') :
    Within b' cs := fun ins => (h ins).trans (hle ins)

/-! ### Calls served by a card -/

/-- One call: its command, what it sent and was answered, and what it returned. -/
structure CardCall where
  command : Command
  trace : Trace Bytes Answer
  result : Run Response

/-- What the calls sent and were answered. -/
def traffic (calls : List CardCall) : Trace Bytes Answer := (calls.map CardCall.trace).flatten

theorem traffic_append (calls calls' : List CardCall) :
    traffic (calls ++ calls') = traffic calls ++ traffic calls' := by
  unfold traffic
  rw [List.map_append, List.flatten_append]

theorem traffic_single (call : CardCall) : traffic [call] = call.trace := List.append_nil _

section

variable {τ : Type} {answer : Bytes → τ → Answer × τ}

/-- The calls are made to the card from the state `s` on, within the budget, and are the same however
much longer they are let run. -/
structure Served (answer : Bytes → τ → Answer × τ) (s : τ) (b : Budget) (calls : List CardCall)
    (fuel : ℕ) : Prop where
  gives : Gives answer s (traffic calls)
  within : Within b (calls.map CardCall.command)
  made : ∀ fuel' ≥ fuel, ∀ call ∈ calls,
    Path (Card.call fuel' call.command).run call.trace call.result

theorem Served.nil (s : τ) (b : Budget) (fuel : ℕ) : Served answer s b [] fuel :=
  ⟨trivial, within_nil b, fun _ _ _ h => nomatch h⟩

theorem Served.append {s : τ} {b b' : Budget} {calls calls' : List CardCall} {fuel fuel' : ℕ}
    (h : Served answer s b calls fuel)
    (h' : Served answer (partyAfter answer s (traffic calls)) b' calls' fuel') :
    Served answer s (b + b') (calls ++ calls') (max fuel fuel') := by
  refine ⟨?_, ?_, ?_⟩
  · rw [traffic_append]
    exact gives_append h.gives h'.gives
  · rw [List.map_append]
    exact h.within.append h'.within
  · intro n hn call hcall
    rcases List.mem_append.mp hcall with hcall | hcall
    · exact h.made n (le_trans (le_max_left _ _) hn) call hcall
    · exact h'.made n (le_trans (le_max_right _ _) hn) call hcall

theorem Served.mono {s : τ} {b b' : Budget} {calls : List CardCall} {fuel : ℕ}
    (h : Served answer s b calls fuel) (hle : b ≤ b') : Served answer s b' calls fuel :=
  ⟨h.gives, h.within.mono hle, h.made⟩

/-- A call that returns is served as itself. -/
theorem served_call {c : Command} {s : τ} (h : Card.Returns answer c s) :
    ∃ tr out fuel, out ≠ .error .running ∧ Served answer s (only c.ins 1) [⟨c, tr, out⟩] fuel := by
  obtain ⟨tr, out, hout, hgives, fuel, hpath⟩ := h
  refine ⟨tr, out, fuel, hout, ?_, within_single c, ?_⟩
  · rw [traffic_single]
    exact hgives
  · intro n hn call hcall
    obtain rfl := List.mem_singleton.mp hcall
    exact hpath n hn

/-! ### Operations on the card -/

/-- From any state of the card the operation is over after calls within the budget, if these are let
run long enough. -/
def Finishes (answer : Bytes → τ → Answer × τ) (b : Budget) {α : Type} (x : ℕ → CardM α) : Prop :=
  ∀ s, ∃ calls out fuel, Served answer s b calls fuel ∧ out ≠ .error .running ∧
    ∀ fuel' ≥ fuel, Path (x fuel').run (traffic calls) out

variable {α β : Type} {b b' : Budget}

theorem Finishes.mono {x : ℕ → CardM α} (h : Finishes answer b x) (hle : b ≤ b') :
    Finishes answer b' x := by
  intro s
  obtain ⟨calls, out, fuel, hserved, hout⟩ := h s
  exact ⟨calls, out, fuel, hserved.mono hle, hout⟩

theorem Finishes.of_run {x : Run α} (h : x ≠ .error .running) :
    Finishes answer b fun _ => (liftM x : CardM α) := by
  intro s
  exact ⟨[], x, 0, .nil s b 0, h, fun _ _ => .done _⟩

theorem Finishes.pure (a : α) : Finishes answer b fun _ => (pure a : CardM α) :=
  .of_run (x := .ok a) (by simp)

theorem Finishes.throw {stop : Stop} (h : stop ≠ .running) :
    Finishes answer b fun _ => (throw stop : CardM α) :=
  .of_run (x := .error stop) (by simpa using h)

/-- The budgets of a sequence add up. -/
theorem Finishes.bind {x : ℕ → CardM α} {f : ℕ → α → CardM β} (hx : Finishes answer b x)
    (hf : ∀ a, Finishes answer b' fun fuel => f fuel a) :
    Finishes answer (b + b') fun fuel => x fuel >>= f fuel := by
  intro s
  obtain ⟨calls, out, fuel, hserved, hout, hpath⟩ := hx s
  cases out with
  | error stop =>
    have hle : b ≤ b + b' := le_add_of_nonneg_right fun i => Nat.zero_le _
    refine ⟨calls, .error stop, fuel, hserved.mono hle, ?_, ?_⟩
    · intro hstop
      exact hout (congrArg Except.error (Except.error.inj hstop))
    · intro n hn
      exact path_exceptT_bind.mpr (.inl ⟨stop, rfl, hpath n hn⟩)
  | ok a =>
    obtain ⟨calls', out', fuel', hserved', hout', hpath'⟩ :=
      hf a (partyAfter answer s (traffic calls))
    refine ⟨calls ++ calls', out', max fuel fuel', hserved.append hserved', hout', ?_⟩
    intro n hn
    rw [traffic_append]
    exact path_exceptT_bind.mpr (.inr ⟨_, a, _, rfl, hpath n (le_trans (le_max_left _ _) hn),
      hpath' n (le_trans (le_max_right _ _) hn)⟩)

theorem Finishes.attempt {x : ℕ → CardM α} (hx : Finishes answer b x) :
    Finishes answer b fun fuel => attempt (x fuel) := by
  intro s
  obtain ⟨calls, out, fuel, hserved, hout, hpath⟩ := hx s
  match out, hout, hpath with
  | .ok a, _, hpath =>
    exact ⟨calls, .ok (.ok a), fuel, hserved, by simp,
      fun n hn => path_attempt.mpr (.inl ⟨a, rfl, hpath n hn⟩)⟩
  | .error (.err e), _, hpath =>
    exact ⟨calls, .ok (.error e), fuel, hserved, by simp,
      fun n hn => path_attempt.mpr (.inr (.inl ⟨e, rfl, hpath n hn⟩))⟩
  | .error (.panic why), _, hpath =>
    exact ⟨calls, .error (.panic why), fuel, hserved, by simp,
      fun n hn => path_attempt.mpr (.inr (.inr ⟨_, by simp, rfl, hpath n hn⟩))⟩
  | .error .abort, _, hpath =>
    exact ⟨calls, .error .abort, fuel, hserved, by simp,
      fun n hn => path_attempt.mpr (.inr (.inr ⟨_, by simp, rfl, hpath n hn⟩))⟩
  | .error .running, hout, _ => exact absurd rfl hout

theorem Finishes.call (hreturns : ∀ c s, Card.Returns answer c s) (c : Command) :
    Finishes answer (only c.ins 1) fun fuel => Card.call fuel c := by
  intro s
  obtain ⟨tr, out, fuel, hout, hserved⟩ := served_call (hreturns c s)
  refine ⟨[⟨c, tr, out⟩], out, fuel, hserved, hout, ?_⟩
  intro n hn
  rw [traffic_single]
  exact hserved.made n hn _ (List.mem_singleton_self _)

theorem Finishes.callOk (hreturns : ∀ c s, Card.Returns answer c s) (c : Command) :
    Finishes answer (only c.ins 1) fun fuel => Card.callOk fuel c := by
  have hdata : ∀ r : Response, Finishes answer 0 fun _ => (liftM r.intoData : CardM Bytes) :=
    fun r => .of_run (Card.returned_intoData r).ended
  exact (Finishes.call hreturns c).bind hdata

/-- What a reader does with an error: the end of the file ends the read, others are passed on. -/
theorem finishes_endOfFile (e : Error) (out : Bytes) :
    Finishes answer b
      fun _ => (if e.isEndOfFile then pure out else throw (.err e) : CardM Bytes) := by
  by_cases hend : e.isEndOfFile = true
  · simp only [if_pos hend]
    exact .pure out
  · simp only [if_neg hend]
    exact .throw (by simp)

/-! ### Transparent files -/

section

variable (hreturns : ∀ c s, Card.Returns answer c s)

include hreturns

/-- One chunk is one command, and none past the addresses of the command. -/
theorem finishes_readBinaryChunk (offset : ℕ) (le : UInt32) :
    Finishes answer (only Ins.readBinary (min 1 (32768 - offset)))
      fun fuel => Card.readBinaryChunk fuel offset le := by
  by_cases hoff : offset > maxOffset
  · have heq : (fun fuel => Card.readBinaryChunk fuel offset le) =
        fun _ => throw (.err (.offsetOutOfRange offset)) := by
      funext fuel
      rw [Card.readBinaryChunk, if_pos hoff]
      rfl
    rw [heq]
    exact .throw (by simp)
  · have hcall := Finishes.callOk hreturns (.withLe Cla.user Ins.readBinary
      (UInt16.ofNat offset >>> 8).toUInt8 (UInt16.ofNat offset).toUInt8 le)
    have heq : (fun fuel => Card.readBinaryChunk fuel offset le) =
        fun fuel => Card.callOk fuel (.withLe Cla.user Ins.readBinary
          (UInt16.ofNat offset >>> 8).toUInt8 (UInt16.ofNat offset).toUInt8 le) := by
      funext fuel
      rw [Card.readBinaryChunk, if_neg hoff]
    unfold maxOffset at hoff
    rw [heq, show min 1 (32768 - offset) = 1 from by omega]
    exact hcall

/-- A turn of a reader at `pos`, and then the turns after it. -/
theorem finishes_turn (pos : ℕ) {le : UInt32} {f : ℕ → Except Error Bytes → CardM Bytes}
    (hf : ∀ r, Finishes answer (only Ins.readBinary (32768 - (pos + 1))) fun fuel => f fuel r) :
    Finishes answer (only Ins.readBinary (32768 - pos))
      fun fuel => attempt (Card.readBinaryChunk fuel pos le) >>= f fuel := by
  refine ((finishes_readBinaryChunk hreturns pos le).attempt.bind hf).mono ?_
  rw [only_add]
  exact only_mono _ (by omega)

theorem finishes_readBinaryLoop (offset length : ℕ) (out : Bytes) :
    Finishes answer (only Ins.readBinary (32768 - (offset + out.length)))
      fun fuel => Card.readBinaryLoop fuel offset length out := by
  induction hmeasure : length - out.length using Nat.strong_induction_on generalizing out with
  | _ n ih =>
    subst hmeasure
    by_cases hmore : out.length < length
    · simp only [Card.readBinaryLoop_more _ _ hmore]
      refine finishes_turn hreturns _ fun r => ?_
      cases r with
      | ok chunk =>
        by_cases hnil : chunk = []
        · simp only [if_pos hnil]
          exact .pure out
        · have hpos := List.length_pos_iff.mpr hnil
          simp only [if_neg hnil]
          refine (ih _ (by rw [List.length_append]; omega) (out ++ chunk) rfl).mono ?_
          rw [List.length_append]
          exact only_mono _ (by omega)
      | error e => exact finishes_endOfFile e out
    · simp only [Card.readBinaryLoop_done _ _ hmore]
      exact .pure out

theorem finishes_readBinary (pf : Platform) (offset length : ℕ) :
    Finishes answer (only Ins.readBinary (32768 - offset))
      fun fuel => Card.readBinary pf fuel offset length := by
  simp only [Card.readBinary_eq]
  split_ifs
  · exact .throw (by simp)
  · exact .throw (by simp)
  · exact finishes_readBinaryLoop hreturns offset length []

theorem finishes_readToEnd (out : Bytes) :
    Finishes answer (only Ins.readBinary (32768 - out.length))
      fun fuel => Card.readToEnd fuel out := by
  induction hmeasure : maxOffset + 1 - out.length using Nat.strong_induction_on
    generalizing out with
  | _ n ih =>
    subst hmeasure
    by_cases hmore : out.length ≤ maxOffset
    · simp only [Card.readToEnd_more _ hmore]
      refine finishes_turn hreturns _ fun r => ?_
      cases r with
      | ok chunk =>
        by_cases hnil : chunk = []
        · simp only [if_pos hnil]
          exact .pure out
        · have hpos := List.length_pos_iff.mpr hnil
          simp only [if_neg hnil]
          by_cases hshort : chunk.length < maxChunk
          · simp only [if_pos hshort]
            exact .pure _
          · simp only [if_neg hshort]
            refine (ih _ (by rw [List.length_append]; omega) (out ++ chunk) rfl).mono ?_
            rw [List.length_append]
            exact only_mono _ (by omega)
      | error e => exact finishes_endOfFile e out
    · simp only [Card.readToEnd_done _ hmore]
      exact .pure out

theorem finishes_readOn (pf : Platform) (out : Bytes) :
    Finishes answer (only Ins.readBinary 32767) fun fuel => Card.readOn pf fuel out := by
  cases out with
  | nil => exact .pure []
  | cons first tail =>
    have hpos : 32768 - (first :: tail).length ≤ 32767 := by
      rw [List.length_cons]
      omega
    cases hheader : Ber.parseHeader (first :: tail) with
    | error stop =>
      have heq : (fun fuel => Card.readOn pf fuel (first :: tail)) =
          fun fuel => Card.readToEnd fuel (first :: tail) := by
        funext fuel
        simp only [Card.readOn, hheader]
        rfl
      rw [heq]
      exact (finishes_readToEnd hreturns _).mono (only_mono _ hpos)
    | ok header =>
      have heq : (fun fuel => Card.readOn pf fuel (first :: tail)) =
          fun fuel => (liftM (header.totalLen pf) : CardM ℕ) >>= fun total =>
            if total ≤ (first :: tail).length then pure ((first :: tail).take total)
            else Card.readBinary pf fuel (first :: tail).length (total - (first :: tail).length) >>=
              fun rest => pure (first :: tail ++ rest) := by
        funext fuel
        simp only [Card.readOn, hheader]
        rfl
      rw [heq, ← zero_add (only Ins.readBinary 32767)]
      refine (Finishes.of_run (ended_totalLen _ header)).bind fun total => ?_
      by_cases hall : total ≤ (first :: tail).length
      · simp only [if_pos hall]
        exact .pure _
      · simp only [if_neg hall]
        rw [← add_zero (only Ins.readBinary 32767)]
        exact ((finishes_readBinary hreturns pf _ _).mono (only_mono _ hpos)).bind fun rest => .pure _

theorem finishes_readBinaryAll (pf : Platform) :
    Finishes answer (only Ins.readBinary 32768) fun fuel => Card.readBinaryAll pf fuel := by
  refine finishes_turn hreturns 0 fun r => ?_
  cases r with
  | ok out => exact finishes_readOn hreturns pf out
  | error e => exact finishes_endOfFile e []

/-! ### Record files -/

theorem finishes_readRecord (record : UInt8) :
    Finishes answer (only Ins.readRecord 1) fun fuel => Card.readRecord fuel record := by
  by_cases hzero : record = 0
  · have heq : (fun fuel => Card.readRecord fuel record) =
        fun _ => throw (.err .invalidRecordNumber) := by
      funext fuel
      rw [Card.readRecord, if_pos hzero]
      rfl
    rw [heq]
    exact .throw (by simp)
  · simp only [Card.readRecord, if_neg hzero]
    exact Finishes.callOk hreturns (.withLe Cla.user Ins.readRecord record 0x04 256)

/-- One command for each record number left, at most. -/
theorem finishes_readRecordsUntil (records : List UInt8) (out : Bytes) :
    Finishes answer (only Ins.readRecord records.length)
      fun fuel => MasterFile.readRecordsUntil fuel records out := by
  induction records generalizing out with
  | nil => exact .pure out
  | cons record records ih =>
    rw [List.length_cons, Nat.add_comm, ← only_add]
    refine (finishes_readRecord hreturns record).attempt.bind fun r => ?_
    cases r with
    | ok data =>
      by_cases hnil : data = []
      · simp only [if_pos hnil]
        exact .pure out
      · simp only [if_neg hnil]
        exact ih (out ++ data)
    | error e =>
      by_cases hend : e = .status ⟨0x6A83⟩
      · simp only [if_pos hend]
        exact .pure out
      · simp only [if_neg hend]
        exact .throw (by simp)

theorem finishes_readSelectedRecords :
    Finishes answer (only Ins.readRecord 256) fun fuel => MasterFile.readSelectedRecords fuel := by
  rw [← only_add Ins.readRecord 1 255]
  have hmulti : Finishes answer (only Ins.readRecord 1) fun fuel => Card.readRecordsFrom fuel 1 :=
    Finishes.callOk hreturns (.withLe Cla.user Ins.readRecord 1 0x05 256)
  refine hmulti.attempt.bind fun r => ?_
  cases r with
  | ok data => exact .pure data
  | error e =>
    by_cases hend : e = .status ⟨0x6A81⟩
    · simp only [if_pos hend]
      have hlen : ((List.range' 1 255).map UInt8.ofNat).length = 255 := by
        rw [List.length_map, List.length_range']
      have huntil := finishes_readRecordsUntil hreturns ((List.range' 1 255).map UInt8.ofNat) []
      rw [hlen] at huntil
      exact huntil
    · simp only [if_neg hend]
      exact .throw (by simp)

theorem finishes_readAllRecords (id : UInt16) :
    Finishes answer (only Ins.selectFile 1 + only Ins.readRecord 256)
      fun fuel => MasterFile.readAllRecords fuel id := by
  have hselect : Finishes answer (only Ins.selectFile 1) fun fuel => Card.selectEf fuel id := by
    rw [← add_zero (only Ins.selectFile 1)]
    exact (Finishes.callOk hreturns
      (.withData Cla.user Ins.selectFile 0x02 0x0C (u16Bytes id))).bind fun _ => .pure ()
  exact hselect.bind fun _ => finishes_readSelectedRecords hreturns

end

/-! ### Sessions -/

/-- The traffic of a session as the card sees it. -/
def unlabelled (tr : Trace Sent Answer) : Trace Bytes Answer := tr.map fun e => (e.1.apdu, e.2)

theorem unlabelled_append (tr tr' : Trace Sent Answer) :
    unlabelled (tr ++ tr') = unlabelled tr ++ unlabelled tr' := List.map_append

theorem unlabelled_labelled (n : UInt32) (tr : Trace Bytes Answer) :
    unlabelled (labelled n tr) = tr := by
  induction tr with
  | nil => rfl
  | cons e tr ih =>
    rw [labelled_cons]
    exact congrArg (e :: ·) ih

/-- In the session `s`, with the card in the state `t`, the operation makes these calls, within the
budget, and is over. -/
def SessionServed (answer : Bytes → τ → Answer × τ) (b : Budget) {α : Type} (x : ℕ → SessionM α)
    (s : SecureSession) (t : τ) (calls : List CardCall) : Prop :=
  ∃ tr out s' fuel, Served answer t b calls fuel ∧ out ≠ .error .running ∧
    unlabelled tr = traffic calls ∧ ∀ fuel' ≥ fuel, Steps (x fuel') s tr out s'

/-- From any state of the session and of the card the operation is over after calls within the
budget, if these are let run long enough. -/
def SessionFinishes (answer : Bytes → τ → Answer × τ) (b : Budget) {α : Type}
    (x : ℕ → SessionM α) : Prop :=
  ∀ (s : SecureSession) (t : τ), ∃ calls, SessionServed answer b x s t calls

/-- What comes after the first part of an operation adds calls to those of the first part. -/
theorem SessionServed.bind {x : ℕ → SessionM α} {f : ℕ → α → SessionM β} {s : SecureSession} {t : τ}
    {calls : List CardCall} (hx : SessionServed answer b x s t calls)
    (hf : ∀ a, SessionFinishes answer b' fun fuel => f fuel a) :
    ∃ calls', SessionServed answer (b + b') (fun fuel => x fuel >>= f fuel) s t
      (calls ++ calls') := by
  obtain ⟨tr, out, s₁, fuel, hserved, hout, htr, hsteps⟩ := hx
  cases out with
  | error stop =>
    have hle : b ≤ b + b' := le_add_of_nonneg_right fun i => Nat.zero_le _
    refine ⟨[], tr, .error stop, s₁, fuel, ?_, ?_, ?_, ?_⟩
    · rw [List.append_nil]
      exact hserved.mono hle
    · intro hstop
      exact hout (congrArg Except.error (Except.error.inj hstop))
    · rw [List.append_nil]
      exact htr
    · intro n hn
      exact steps_bind.mpr (.inl ⟨stop, rfl, hsteps n hn⟩)
  | ok a =>
    obtain ⟨calls', tr', out', s', fuel', hserved', hout', htr', hsteps'⟩ :=
      hf a s₁ (partyAfter answer t (traffic calls))
    refine ⟨calls', tr ++ tr', out', s', max fuel fuel', hserved.append hserved', hout', ?_, ?_⟩
    · rw [unlabelled_append, traffic_append, htr, htr']
    · intro n hn
      exact steps_bind.mpr (.inr ⟨tr, a, s₁, tr', rfl, hsteps n (le_trans (le_max_left _ _) hn),
        hsteps' n (le_trans (le_max_right _ _) hn)⟩)

theorem SessionServed.get_bind {f : ℕ → SecureSession → SessionM α} {s : SecureSession} {t : τ}
    {calls : List CardCall} (h : SessionServed answer b (fun fuel => f fuel s) s t calls) :
    SessionServed answer b (fun fuel => get >>= f fuel) s t calls := by
  obtain ⟨tr, out, s', fuel, hserved, hout, htr, hsteps⟩ := h
  exact ⟨tr, out, s', fuel, hserved, hout, htr, fun n hn => steps_get_bind.mpr (hsteps n hn)⟩

theorem SessionFinishes.mono {x : ℕ → SessionM α} (h : SessionFinishes answer b x) (hle : b ≤ b') :
    SessionFinishes answer b' x := by
  intro s t
  obtain ⟨calls, tr, out, s', fuel, hserved, hout⟩ := h s t
  exact ⟨calls, tr, out, s', fuel, hserved.mono hle, hout⟩

theorem SessionFinishes.liftRun {x : Run α} (h : x ≠ .error .running) :
    SessionFinishes answer b fun _ => MynaCard.liftRun x := by
  intro s t
  exact ⟨[], [], x, s, 0, .nil t b 0, h, rfl, fun _ _ => steps_liftRun.mpr ⟨rfl, rfl, rfl⟩⟩

theorem SessionFinishes.pure (a : α) : SessionFinishes answer b fun _ => (pure a : SessionM α) := by
  intro s t
  exact ⟨[], [], .ok a, s, 0, .nil t b 0, by simp, rfl,
    fun _ _ => steps_pure.mpr ⟨rfl, rfl, rfl⟩⟩

theorem SessionFinishes.throw {stop : Stop} (h : stop ≠ .running) :
    SessionFinishes answer b fun _ => (throw stop : SessionM α) := by
  intro s t
  exact ⟨[], [], .error stop, s, 0, .nil t b 0, by simpa using h, rfl,
    fun _ _ => steps_throw.mpr ⟨rfl, rfl, rfl⟩⟩

theorem SessionFinishes.bind {x : ℕ → SessionM α} {f : ℕ → α → SessionM β}
    (hx : SessionFinishes answer b x) (hf : ∀ a, SessionFinishes answer b' fun fuel => f fuel a) :
    SessionFinishes answer (b + b') fun fuel => x fuel >>= f fuel := by
  intro s t
  obtain ⟨calls, hserved⟩ := hx s t
  obtain ⟨calls', h⟩ := hserved.bind hf
  exact ⟨calls ++ calls', h⟩

theorem SessionFinishes.get_bind {f : ℕ → SecureSession → SessionM α}
    (hf : ∀ s, SessionFinishes answer b fun fuel => f fuel s) :
    SessionFinishes answer b fun fuel => get >>= f fuel := by
  intro s t
  obtain ⟨calls, h⟩ := hf s s t
  exact ⟨calls, h.get_bind⟩

theorem finishes_advance (oc : OverflowChecks) (sw : StatusWord) :
    SessionFinishes answer 0 fun _ => SecureSession.advance oc sw := by
  intro s t
  cases hsucc : counterSucc oc s.counter with
  | ok n =>
    exact ⟨[], [], .ok (), _, 0, .nil t 0 0, by simp, rfl,
      fun _ _ => steps_advance_iff.mpr ⟨rfl, .inr ⟨n, hsucc, rfl, rfl⟩⟩⟩
  | error stop =>
    have hstop : stop ≠ .running := by
      rintro rfl
      rcases counterSucc_eq oc s.counter with ⟨-, -, heq⟩ | ⟨-, heq⟩
      · rw [heq] at hsucc
        cases hsucc
      · rw [heq] at hsucc
        cases hsucc
    exact ⟨[], [], .error stop, s, 0, .nil t 0 0, by simpa using hstop, rfl,
      fun _ _ => steps_advance_iff.mpr ⟨rfl, .inl ⟨stop, hsucc, rfl, rfl⟩⟩⟩

section

variable (hreturns : ∀ c s, Card.Returns answer c s)

include hreturns

/-- A secure call of a session that is not broken calls the card with the same command. -/
theorem served_secureCall (oc : OverflowChecks) (c : Command) {s : SecureSession}
    (hb : s.broken = false) (t : τ) :
    ∃ call calls, call.command = c ∧ SessionServed answer (only c.ins 1)
      (fun fuel => SecureSession.call oc fuel c) s t (call :: calls) := by
  obtain ⟨tr, out, fuel, hout, hserved⟩ := served_call (hreturns c t)
  have hcard : SessionServed answer (only c.ins 1) (fun fuel => liftCard (Card.call fuel c)) s t
      [⟨c, tr, out⟩] := by
    refine ⟨labelled s.counter tr, out, s, fuel, hserved, hout, ?_, ?_⟩
    · rw [unlabelled_labelled, traffic_single]
    · intro n hn
      exact steps_liftCard.mpr ⟨rfl, tr, rfl, hserved.made n hn _ (List.mem_singleton_self _)⟩
  have hafter : ∀ response : Response, SessionFinishes answer (0 + 0) fun _ =>
      SecureSession.advance oc response.status >>= fun _ => liftRun response.intoData :=
    fun response => (finishes_advance oc response.status).bind fun _ =>
      SessionFinishes.liftRun (Card.returned_intoData response).ended
  obtain ⟨calls, hcalls⟩ := hcard.bind hafter
  refine ⟨⟨c, tr, out⟩, calls, rfl, SessionServed.get_bind ?_⟩
  simp only [if_neg (show ¬ s.broken = true by simp [hb])]
  exact hcalls

/-- A secure call is one command, or none once the session is broken. -/
theorem finishes_secureCall (oc : OverflowChecks) (c : Command) :
    SessionFinishes answer (only c.ins 1) fun fuel => SecureSession.call oc fuel c := by
  intro s t
  cases hb : s.broken with
  | true =>
    have hlatched : SessionFinishes answer (only c.ins 1) fun _ =>
        (throw (.err (.status ⟨0x69FC⟩)) : SessionM Bytes) := .throw (by simp)
    obtain ⟨calls, hthrow⟩ := hlatched s t
    refine ⟨calls, SessionServed.get_bind ?_⟩
    simp only [if_pos hb]
    exact hthrow
  | false =>
    obtain ⟨call, calls, -, h⟩ := served_secureCall hreturns oc c hb t
    exact ⟨call :: calls, h⟩

variable (aes : Aes128) (oc : OverflowChecks)

theorem finishes_secureSelectEf (id : UInt16) :
    SessionFinishes answer (only Ins.selectFile 1)
      fun fuel => SecureSession.selectEf aes oc fuel id := by
  refine SessionFinishes.get_bind fun s => ?_
  rw [← add_zero (only Ins.selectFile 1)]
  exact (finishes_secureCall hreturns oc (SecureSession.selectEfCommand aes s id)).bind
    fun _ => .pure ()

theorem finishes_secureReadBinary (offset length : UInt16) :
    SessionFinishes answer (only Ins.readBinary 1)
      fun fuel => SecureSession.readBinary aes oc fuel offset length := by
  rw [← add_zero (only Ins.readBinary 1)]
  refine (finishes_secureCall hreturns oc (SecureSession.readBinaryCommand offset length)).bind
    fun response => SessionFinishes.get_bind fun s => SessionFinishes.liftRun ?_
  exact bind_ne_error (ended_parseCryptogram oc response)
    fun cryptogram _ => (SecureSession.returned_decrypt aes _ _ cryptogram).ended

/-- The offset grows with every turn of the loop but the last, and two bytes hold 65536 of them. -/
theorem finishes_readEfLoop (total : ℕ) (out : Bytes) :
    SessionFinishes answer (only Ins.readBinary (65536 - out.length))
      fun fuel => SecureSession.readEfLoop aes oc fuel total out := by
  induction hmeasure : total - out.length using Nat.strong_induction_on generalizing out with
  | _ n ih =>
    subst hmeasure
    by_cases hmore : out.length < total
    · obtain hlarge | hsmall := Nat.lt_or_ge 0xFFFF out.length
      · simp only [SecureSession.readEfLoop_refused _ _ hmore (Nat.not_le_of_lt hlarge)]
        exact .throw (by simp)
      · simp only [SecureSession.readEfLoop_step _ _ hmore hsmall]
        have hrest : ∀ chunk, SessionFinishes answer (only Ins.readBinary (65535 - out.length))
            fun fuel => if chunk = [] then pure out
              else SecureSession.readEfLoop aes oc fuel total (out ++ chunk) := by
          intro chunk
          by_cases hnil : chunk = []
          · simp only [if_pos hnil]
            exact .pure out
          · have hpos := List.length_pos_iff.mpr hnil
            simp only [if_neg hnil]
            refine (ih _ (by rw [List.length_append]; omega) (out ++ chunk) rfl).mono ?_
            rw [List.length_append]
            exact only_mono _ (by omega)
        refine ((finishes_secureReadBinary hreturns aes oc _ _).bind hrest).mono ?_
        rw [only_add]
        exact only_mono _ (by omega)
    · simp only [SecureSession.readEfLoop_done _ _ hmore]
      exact .pure out

theorem finishes_readEfOn (out : Bytes) :
    SessionFinishes answer (only Ins.readBinary 65535)
      fun fuel => SecureSession.readEfOn aes oc fuel out := by
  by_cases hnil : out = []
  · simp only [SecureSession.readEfOn, if_pos hnil]
    exact .pure out
  · have hpos := List.length_pos_iff.mpr hnil
    cases hheader : Ber.parseHeader out with
    | error stop =>
      simp only [SecureSession.readEfOn, if_neg hnil, hheader]
      exact .pure out
    | ok header =>
      simp only [SecureSession.readEfOn, if_neg hnil, hheader]
      rw [← zero_add (only Ins.readBinary 65535)]
      refine (SessionFinishes.liftRun (ended_totalLen oc header)).bind fun total => ?_
      by_cases hall : total ≤ out.length
      · simp only [if_pos hall]
        exact .pure _
      · simp only [if_neg hall]
        exact (finishes_readEfLoop hreturns aes oc total out).mono (only_mono _ (by omega))

theorem finishes_readEf (id : UInt16) :
    SessionFinishes answer (only Ins.selectFile 1 + only Ins.readBinary 65536)
      fun fuel => SecureSession.readEf aes oc fuel id := by
  rw [← only_add Ins.readBinary 1 65535, ← add_assoc]
  exact ((finishes_secureSelectEf hreturns aes oc id).bind fun _ =>
    finishes_secureReadBinary hreturns aes oc 0 0).bind fun out =>
      finishes_readEfOn hreturns aes oc out

/-- A `read_ef` of a session that is not broken starts with its SELECT FILE. -/
theorem served_readEf (id : UInt16) {s : SecureSession} (hb : s.broken = false) (t : τ) :
    ∃ call calls, call.command = SecureSession.selectEfCommand aes s id ∧
      SessionServed answer (only Ins.selectFile 1 + only Ins.readBinary 65536)
        (fun fuel => SecureSession.readEf aes oc fuel id) s t (call :: calls) := by
  obtain ⟨call, calls₁, hcommand, hcall⟩ :=
    served_secureCall hreturns oc (SecureSession.selectEfCommand aes s id) hb t
  have hunit : ∀ _ : Bytes, SessionFinishes answer 0 fun _ => (pure () : SessionM Unit) :=
    fun _ => .pure ()
  obtain ⟨calls₂, hselect⟩ := hcall.bind hunit
  have hselectEf : SessionServed answer (only Ins.selectFile 1 + 0)
      (fun fuel => SecureSession.selectEf aes oc fuel id) s t (call :: calls₁ ++ calls₂) :=
    hselect.get_bind
  obtain ⟨calls₃, hfirst⟩ := hselectEf.bind fun _ => finishes_secureReadBinary hreturns aes oc 0 0
  obtain ⟨calls₄, hread⟩ := hfirst.bind fun out => finishes_readEfOn hreturns aes oc out
  rw [add_zero, add_assoc, only_add] at hread
  exact ⟨call, _, hcommand, hread⟩

end

/-- **The readers are over within a fixed number of commands.** Against a card that returns from
every single call, whatever it answers, `read_binary`, `read_binary_all` and `read_binary_physical`
come to at most 32768 READ BINARY commands and no other, `read_all_records` to at most one SELECT
FILE and 256 READ RECORD commands, and `read_ef` to at most one SELECT FILE, with which it starts
unless the session is broken, and 65536 READ BINARY commands. -/
theorem readers_finish (hreturns : ∀ c s, Card.Returns answer c s) :
    (∀ pf offset length, Finishes answer (only Ins.readBinary 32768)
      fun fuel => Card.readBinary pf fuel offset length) ∧
    (∀ pf, Finishes answer (only Ins.readBinary 32768) fun fuel => Card.readBinaryAll pf fuel) ∧
    (Finishes answer (only Ins.readBinary 32768) fun fuel => Card.readBinaryPhysical fuel) ∧
    (∀ id, Finishes answer (only Ins.selectFile 1 + only Ins.readRecord 256)
      fun fuel => MasterFile.readAllRecords fuel id) ∧
    ∀ aes oc id,
      SessionFinishes answer (only Ins.selectFile 1 + only Ins.readBinary 65536)
        (fun fuel => SecureSession.readEf aes oc fuel id) ∧
      ∀ (s : SecureSession) (t : τ), s.broken = false → ∃ call calls,
        call.command = SecureSession.selectEfCommand aes s id ∧
          SessionServed answer (only Ins.selectFile 1 + only Ins.readBinary 65536)
            (fun fuel => SecureSession.readEf aes oc fuel id) s t (call :: calls) := by
  refine ⟨?_, finishes_readBinaryAll hreturns, finishes_readToEnd hreturns [],
    finishes_readAllRecords hreturns, ?_⟩
  · intro pf offset length
    exact (finishes_readBinary hreturns pf offset length).mono (only_mono _ (Nat.sub_le _ _))
  · intro aes oc id
    refine ⟨finishes_readEf hreturns aes oc id, ?_⟩
    intro s t hb
    exact served_readEf hreturns aes oc id hb t

end

/-- A card that answers everything with one byte and `90 00`. -/
def byteCard (_ : Bytes) (_ : Unit) : Answer × Unit := (.ok [0x00, 0x90, 0x00], ())

theorem returns_byteCard (c : Command) (s : Unit) : Card.Returns byteCard c s := by
  rw [Card.call_returns_iff]
  intro hboth
  have hfirst := hboth.2 0
  exact absurd hfirst (show ¬ (Card.moreOf (.ok [0x00, 0x90, 0x00])).isSome = true by decide)

/-- Asked for the whole address space, that card is read one byte at a time, and the read is over.
So is a read of its records. -/
theorem readers_finish_byteCard :
    (Finishes byteCard (only Ins.readBinary 32768) fun fuel => Card.readBinary .checked fuel 0 32768) ∧
      Finishes byteCard (only Ins.selectFile 1 + only Ins.readRecord 256)
        fun fuel => MasterFile.readAllRecords fuel 0x0001 :=
  ⟨(readers_finish returns_byteCard).1 .checked 0 32768,
    (readers_finish returns_byteCard).2.2.2.1 0x0001⟩

end MynaCard
