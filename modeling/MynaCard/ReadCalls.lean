import MynaCard.SessionExchange

/-!
# The readers as calls one after the other

`read_binary`, `read_binary_all`, `read_binary_physical` and `read_ef` are made of single reads that
each begin where the bytes before end. The loops append whatever a read gives, so that a reader
returns more than the length it goes by exactly when a read has given more than was missing
(`returned_bounded_iff`).
-/

namespace MynaCard

open Dialogue

/-- The APDUs of a session's traffic. -/
def sentApdus (tr : Trace Sent Answer) : List Bytes := tr.map fun e => e.1.apdu

/-! ### Reads one after the other -/

/-- One call of a read: the offset it is for and how many bytes it asks for, the state it begins in,
what it sends and is answered, what it gives and the state it leaves. -/
structure ReadCall (σ Q : Type) where
  offset : ℕ
  asked : ℕ
  before : σ
  trace : Trace Q Answer
  out : Run Bytes
  after : σ

/-- How many bytes were given. -/
def delivered : Run Bytes → ℕ
  | .ok bytes => bytes.length
  | .error _ => 0

section

variable {σ Q : Type}

/-- Each call is for the offset where the bytes given by the calls before it end, and begins where
the one before it stopped. -/
def Consecutive : ℕ → σ → List (ReadCall σ Q) → Prop
  | _, _, [] => True
  | offset, s, call :: calls =>
    call.offset = offset ∧ call.before = s ∧
      Consecutive (offset + delivered call.out) call.after calls

/-- The exchange is that of consecutive calls, all with `K`, from an offset and a state on. -/
def ReadsFrom (K : ReadCall σ Q → Prop) (start : ℕ) (s : σ) (tr : Trace Q Answer) : Prop :=
  ∃ calls : List (ReadCall σ Q), tr = (calls.map ReadCall.trace).flatten ∧
    Consecutive start s calls ∧ ∀ call ∈ calls, K call

variable {K : ReadCall σ Q → Prop} {start asked : ℕ} {s s₁ : σ} {tr₁ rest : Trace Q Answer}
  {out : Run Bytes}

theorem ReadsFrom.nil : ReadsFrom K start s [] :=
  ⟨[], rfl, trivial, fun _ h => nomatch h⟩

theorem ReadsFrom.cons (hcall : K ⟨start, asked, s, tr₁, out, s₁⟩)
    (hrest : ReadsFrom K (start + delivered out) s₁ rest) : ReadsFrom K start s (tr₁ ++ rest) := by
  obtain ⟨calls, rfl, hconsecutive, hK⟩ := hrest
  refine ⟨⟨start, asked, s, tr₁, out, s₁⟩ :: calls, rfl, ⟨rfl, rfl, hconsecutive⟩, ?_⟩
  intro call hmem
  obtain rfl | hmem := List.mem_cons.mp hmem
  · exact hcall
  · exact hK call hmem

/-- Where nothing more is sent. -/
theorem ReadsFrom.of_done {α : Type} {a b : α} {tr : Trace Q Answer} (h : Path (done a) tr b) :
    ReadsFrom K start s tr := by
  obtain ⟨rfl, -⟩ := path_done.mp h
  exact .nil

theorem ReadsFrom.single (hcall : K ⟨start, asked, s, tr₁, out, s₁⟩) : ReadsFrom K start s tr₁ := by
  have hone := ReadsFrom.cons hcall .nil
  rwa [List.append_nil] at hone

theorem ReadsFrom.imp {K' : ReadCall σ Q → Prop} {tr : Trace Q Answer} (h : ReadsFrom K start s tr)
    (hK : ∀ call, K call → K' call) : ReadsFrom K' start s tr := by
  obtain ⟨calls, heq, hconsecutive, hcalls⟩ := h
  exact ⟨calls, heq, hconsecutive, fun call hmem => hK call (hcalls call hmem)⟩

/-! ### Reads and what is returned -/

/-- At most `n` bytes are returned. -/
def AtMost (n : ℕ) (res : Run Bytes) : Prop := ∀ data, res = .ok data → data.length ≤ n

/-- No call gives bytes from `limit` on. -/
def NoneBeyond (limit : ℕ) (calls : List (ReadCall σ Q)) : Prop :=
  ∀ call ∈ calls, call.offset + delivered call.out ≤ limit

/-- The exchange is that of consecutive calls, all with `K`, from an offset and a state on, and it
is these calls on which it depends whether at most `n` bytes are returned. -/
def Bounded (K : ReadCall σ Q → Prop) (start : ℕ) (s : σ) (limit n : ℕ) (tr : Trace Q Answer)
    (res : Run Bytes) : Prop :=
  ∃ calls : List (ReadCall σ Q), tr = (calls.map ReadCall.trace).flatten ∧
    Consecutive start s calls ∧ (∀ call ∈ calls, K call) ∧ (AtMost n res ↔ NoneBeyond limit calls)

theorem atMost_ok {n : ℕ} {data : Bytes} : AtMost n (.ok data) ↔ data.length ≤ n := by
  constructor
  · intro h
    exact h data rfl
  · intro h data' heq
    rw [← Except.ok.inj heq]
    exact h

theorem atMost_error (n : ℕ) (stop : Stop) : AtMost n (.error stop) := fun _ h => nomatch h

theorem noneBeyond_cons {limit : ℕ} {call : ReadCall σ Q} {calls : List (ReadCall σ Q)} :
    NoneBeyond limit (call :: calls) ↔
      call.offset + delivered call.out ≤ limit ∧ NoneBeyond limit calls :=
  List.forall_mem_cons

variable {limit n : ℕ} {tr : Trace Q Answer} {res : Run Bytes}

theorem Bounded.readsFrom (h : Bounded K start s limit n tr res) : ReadsFrom K start s tr := by
  obtain ⟨calls, heq, hconsecutive, hK, -⟩ := h
  exact ⟨calls, heq, hconsecutive, hK⟩

theorem Bounded.nil (h : AtMost n res) : Bounded K start s limit n [] res := by
  refine ⟨[], rfl, trivial, ?_, iff_of_true h ?_⟩
  · exact List.forall_mem_nil K
  · exact List.forall_mem_nil _

/-- A call that keeps to the limit leaves it to the calls after it. -/
theorem Bounded.cons (hcall : K ⟨start, asked, s, tr₁, out, s₁⟩)
    (hfits : start + delivered out ≤ limit)
    (hrest : Bounded K (start + delivered out) s₁ limit n rest res) :
    Bounded K start s limit n (tr₁ ++ rest) res := by
  obtain ⟨calls, rfl, hconsecutive, hK, hiff⟩ := hrest
  refine ⟨⟨start, asked, s, tr₁, out, s₁⟩ :: calls, rfl, ⟨rfl, rfl, hconsecutive⟩, ?_, ?_⟩
  · intro call hmem
    obtain rfl | hmem := List.mem_cons.mp hmem
    · exact hcall
    · exact hK call hmem
  · rw [hiff, noneBeyond_cons]
    exact (and_iff_right hfits).symm

/-- The last call, if it keeps to the limit. -/
theorem Bounded.last (hcall : K ⟨start, asked, s, tr₁, out, s₁⟩)
    (hfits : start + delivered out ≤ limit) (h : AtMost n res) :
    Bounded K start s limit n tr₁ res := by
  have hone := Bounded.cons hcall hfits (.nil h)
  rwa [List.append_nil] at hone

/-- The last call, if it gives too much. -/
theorem Bounded.beyond (hcall : K ⟨start, asked, s, tr₁, out, s₁⟩)
    (hbeyond : limit < start + delivered out) (h : ¬ AtMost n res) :
    Bounded K start s limit n tr₁ res := by
  refine ⟨[⟨start, asked, s, tr₁, out, s₁⟩], by simp, ⟨rfl, rfl, trivial⟩, ?_, ?_⟩
  · intro call hmem
    rw [List.mem_singleton.mp hmem]
    exact hcall
  · refine iff_of_false h ?_
    intro hnone
    exact absurd (hnone _ (List.mem_singleton_self _)) (Nat.not_le_of_lt hbeyond)

/-- What is returned may be made longer or shorter after the calls. -/
theorem Bounded.congr {n' : ℕ} {res' : Run Bytes} (h : Bounded K start s limit n tr res)
    (hres : AtMost n' res' ↔ AtMost n res) : Bounded K start s limit n' tr res' := by
  obtain ⟨calls, heq, hconsecutive, hK, hiff⟩ := h
  exact ⟨calls, heq, hconsecutive, hK, hres.trans hiff⟩

end

theorem ReadsFrom.of_steps_pure {α : Type} {K : ReadCall SecureSession Sent → Prop} {start : ℕ}
    {a : α} {s₀ s s' : SecureSession} {tr : Trace Sent Answer} {out : Run α}
    (h : Steps (pure a) s tr out s') : ReadsFrom K start s₀ tr := by
  obtain ⟨rfl, -⟩ := steps_pure.mp h
  exact .nil

theorem Bounded.of_steps_pure {K : ReadCall SecureSession Sent → Prop} {start limit n : ℕ}
    {a : Bytes} {s₀ s s' : SecureSession} {tr : Trace Sent Answer} {res : Run Bytes}
    (h : Steps (pure a) s tr res s') (hfits : a.length ≤ n) :
    Bounded K start s₀ limit n tr res := by
  obtain ⟨rfl, rfl, -⟩ := steps_pure.mp h
  exact .nil (atMost_ok.mpr hfits)

/-! ### The readers of `Card` -/

/-- The call is one of `read_binary_chunk`, for no more than one command can ask for. The card's end
of it is in no state. -/
def IsChunk (fuel : ℕ) (call : ReadCall Unit Bytes) : Prop :=
  0 < call.asked ∧ call.asked ≤ maxChunk ∧
    Path (Card.readBinaryChunk fuel call.offset (UInt32.ofNat call.asked)).run call.trace call.out

section

variable {pf : Platform} {fuel offset length : ℕ} {out : Bytes} {tr : Trace Bytes Answer}
  {res : Run Bytes}

/-- One turn of the loop of `read_binary`: nothing is missing, or one chunk is asked for, and then
the loop goes on with it or is over. -/
theorem readBinaryLoop_turn
    (h : Path (Card.readBinaryLoop fuel offset length out).run tr res) :
    (length ≤ out.length ∧ tr = [] ∧ res = .ok out) ∨
      ∃ tr₁ r tr₂, out.length < length ∧ tr = tr₁ ++ tr₂ ∧
        Path (Card.readBinaryChunk fuel (offset + out.length)
          (UInt32.ofNat (min (length - out.length) maxChunk))).run tr₁ r ∧
        ((∃ chunk, r = .ok chunk ∧ chunk ≠ [] ∧
            Path (Card.readBinaryLoop fuel offset length (out ++ chunk)).run tr₂ res) ∨
          (tr₂ = [] ∧ (r = .ok [] ∨ ∃ stop, r = .error stop) ∧
            (res = .ok out ∨ ∃ stop, res = .error stop))) := by
  by_cases hmore : out.length < length
  · rw [Card.readBinaryLoop_more fuel offset hmore] at h
    obtain ⟨tr₁, r, tr₂, rfl, hchunk, hrest⟩ := path_attempt_bind h
    refine .inr ⟨tr₁, r, tr₂, hmore, rfl, hchunk, ?_⟩
    obtain ⟨chunk, rfl, hrest⟩ | ⟨e, rfl, hrest⟩ | ⟨stop, -, rfl, rfl, rfl⟩ := hrest
    · dsimp only at hrest
      by_cases hnil : chunk = []
      · rw [if_pos hnil] at hrest
        obtain ⟨rfl, rfl⟩ := path_done.mp hrest
        exact .inr ⟨rfl, .inl (congrArg Except.ok hnil), .inl rfl⟩
      · rw [if_neg hnil] at hrest
        exact .inl ⟨chunk, rfl, hnil, hrest⟩
    · dsimp only at hrest
      split at hrest
      · obtain ⟨rfl, rfl⟩ := path_done.mp hrest
        exact .inr ⟨rfl, .inr ⟨_, rfl⟩, .inl rfl⟩
      · obtain ⟨rfl, rfl⟩ := path_done.mp hrest
        exact .inr ⟨rfl, .inr ⟨_, rfl⟩, .inr ⟨_, rfl⟩⟩
    · exact .inr ⟨rfl, .inr ⟨stop, rfl⟩, .inr ⟨stop, rfl⟩⟩
  · rw [Card.readBinaryLoop_done fuel offset hmore] at h
    obtain ⟨rfl, rfl⟩ := path_done.mp h
    exact .inl ⟨by omega, rfl, rfl⟩

/-- The loop, as long as what it has is not more than was asked for. -/
theorem readBinaryLoop_bounded (hfits : out.length ≤ length)
    (h : Path (Card.readBinaryLoop fuel offset length out).run tr res) :
    Bounded (IsChunk fuel) (offset + out.length) () (offset + length) length tr res := by
  induction hmeasure : length - out.length using Nat.strong_induction_on generalizing out tr with
  | _ n ih =>
    subst hmeasure
    obtain ⟨-, rfl, rfl⟩ | ⟨tr₁, r, tr₂, hmore, rfl, hchunk, hturn⟩ := readBinaryLoop_turn h
    · exact .nil (atMost_ok.mpr hfits)
    have hcall : IsChunk fuel
        ⟨offset + out.length, min (length - out.length) maxChunk, (), tr₁, r, ()⟩ :=
      ⟨lt_min (by omega) (by decide), min_le_right _ _, hchunk⟩
    obtain ⟨chunk, rfl, hne, hrest⟩ | ⟨rfl, hr, hres⟩ := hturn
    · have hpos := List.length_pos_iff.mpr hne
      have hlength : (out ++ chunk).length = out.length + chunk.length := List.length_append
      by_cases hmuch : length < (out ++ chunk).length
      · -- what the chunk is too long by is returned with the rest
        obtain ⟨-, rfl, rfl⟩ | ⟨-, -, -, hmore', -⟩ := readBinaryLoop_turn hrest
        · rw [List.append_nil]
          refine .beyond hcall ?_ ?_
          · show offset + length < offset + out.length + chunk.length
            omega
          · rw [atMost_ok]
            exact Nat.not_le_of_lt hmuch
        · omega
      · have hfrom := ih _ (by omega) (by omega) hrest rfl
        rw [hlength, ← Nat.add_assoc] at hfrom
        refine .cons hcall ?_ hfrom
        show offset + out.length + chunk.length ≤ offset + length
        omega
    · have hnone : delivered r = 0 := by
        obtain rfl | ⟨stop, rfl⟩ := hr
        · rfl
        · rfl
      rw [List.append_nil]
      refine .last hcall ?_ ?_
      · rw [hnone]
        omega
      · obtain rfl | ⟨stop, rfl⟩ := hres
        · exact atMost_ok.mpr hfits
        · exact atMost_error _ stop

theorem readBinary_bounded (h : Path (Card.readBinary pf fuel offset length).run tr res) :
    Bounded (IsChunk fuel) offset () (offset + length) length tr res := by
  rw [Card.readBinary_eq] at h
  split_ifs at h
  · obtain ⟨rfl, rfl⟩ := path_done.mp h
    exact .nil (atMost_error _ _)
  · obtain ⟨rfl, rfl⟩ := path_done.mp h
    exact .nil (atMost_error _ _)
  · exact readBinaryLoop_bounded (Nat.zero_le _) h

theorem readBinary_readsFrom (h : Path (Card.readBinary pf fuel offset length).run tr res) :
    ReadsFrom (IsChunk fuel) offset () tr :=
  (readBinary_bounded h).readsFrom

/-- One turn of the loop of `read_binary_physical`. -/
theorem readToEnd_turn (h : Path (Card.readToEnd fuel out).run tr res) :
    (maxOffset < out.length ∧ tr = [] ∧ res = .ok out) ∨
      ∃ tr₁ r tr₂, out.length ≤ maxOffset ∧ tr = tr₁ ++ tr₂ ∧
        Path (Card.readBinaryChunk fuel out.length 256).run tr₁ r ∧
        ((∃ chunk, r = .ok chunk ∧ chunk ≠ [] ∧
            Path (Card.readToEnd fuel (out ++ chunk)).run tr₂ res) ∨
          (tr₂ = [] ∧ ((∃ chunk, r = .ok chunk ∧ chunk.length < maxChunk ∧ res = .ok (out ++ chunk)) ∨
            res = .ok out ∨ ∃ stop, r = .error stop ∧ res = .error stop))) := by
  by_cases hmore : out.length ≤ maxOffset
  · rw [Card.readToEnd_more fuel hmore] at h
    obtain ⟨tr₁, r, tr₂, rfl, hchunk, hrest⟩ := path_attempt_bind h
    refine .inr ⟨tr₁, r, tr₂, hmore, rfl, hchunk, ?_⟩
    obtain ⟨chunk, rfl, hrest⟩ | ⟨e, rfl, hrest⟩ | ⟨stop, -, rfl, rfl, rfl⟩ := hrest
    · dsimp only at hrest
      by_cases hnil : chunk = []
      · rw [if_pos hnil] at hrest
        obtain ⟨rfl, rfl⟩ := path_done.mp hrest
        exact .inr ⟨rfl, .inr (.inl rfl)⟩
      rw [if_neg hnil] at hrest
      by_cases hshort : chunk.length < maxChunk
      · rw [if_pos hshort] at hrest
        obtain ⟨rfl, rfl⟩ := path_done.mp hrest
        exact .inr ⟨rfl, .inl ⟨chunk, rfl, hshort, rfl⟩⟩
      · rw [if_neg hshort] at hrest
        exact .inl ⟨chunk, rfl, hnil, hrest⟩
    · dsimp only at hrest
      split at hrest
      · obtain ⟨rfl, rfl⟩ := path_done.mp hrest
        exact .inr ⟨rfl, .inr (.inl rfl)⟩
      · obtain ⟨rfl, rfl⟩ := path_done.mp hrest
        exact .inr ⟨rfl, .inr (.inr ⟨_, rfl, rfl⟩)⟩
    · exact .inr ⟨rfl, .inr (.inr ⟨stop, rfl, rfl⟩)⟩
  · rw [Card.readToEnd_done fuel hmore] at h
    obtain ⟨rfl, rfl⟩ := path_done.mp h
    exact .inl ⟨by omega, rfl, rfl⟩

theorem readToEnd_readsFrom (h : Path (Card.readToEnd fuel out).run tr res) :
    ReadsFrom (IsChunk fuel) out.length () tr := by
  induction hmeasure : maxOffset + 1 - out.length using Nat.strong_induction_on
    generalizing out tr with
  | _ n ih =>
    subst hmeasure
    obtain ⟨-, rfl, -⟩ | ⟨tr₁, r, tr₂, hmore, rfl, hchunk, hturn⟩ := readToEnd_turn h
    · exact .nil
    have hcall : IsChunk fuel ⟨out.length, maxChunk, (), tr₁, r, ()⟩ :=
      ⟨show 0 < maxChunk by decide, le_refl _, hchunk⟩
    refine .cons hcall ?_
    obtain ⟨chunk, rfl, hne, hrest⟩ | ⟨rfl, -⟩ := hturn
    · have hpos := List.length_pos_iff.mpr hne
      have hfrom := ih _ (by rw [List.length_append]; omega) hrest rfl
      rwa [List.length_append] at hfrom
    · exact .nil

theorem readOn_readsFrom (h : Path (Card.readOn pf fuel out).run tr res) :
    ReadsFrom (IsChunk fuel) out.length () tr := by
  unfold Card.readOn at h
  split at h
  · exact .of_done h
  · split at h
    · obtain ⟨stop, -, h⟩ | ⟨tr₁, total, tr₂, rfl, h₁, h₂⟩ := path_exceptT_bind.mp h
      · exact .of_done h
      · obtain ⟨rfl, -⟩ := path_done.mp h₁
        split at h₂
        · exact .of_done h₂
        · obtain ⟨stop, -, h⟩ | ⟨tr₃, rest, tr₄, rfl, h₃, h₄⟩ := path_exceptT_bind.mp h₂
          · exact readBinary_readsFrom h
          · obtain ⟨rfl, -⟩ := path_done.mp h₄
            rw [List.nil_append, List.append_nil]
            exact readBinary_readsFrom h₃
    · exact readToEnd_readsFrom h

theorem readBinaryAll_readsFrom (h : Path (Card.readBinaryAll pf fuel).run tr res) :
    ReadsFrom (IsChunk fuel) 0 () tr := by
  unfold Card.readBinaryAll at h
  obtain ⟨tr₁, r, tr₂, rfl, hchunk, hrest⟩ := path_attempt_bind h
  have hcall : IsChunk fuel ⟨0, maxChunk, (), tr₁, r, ()⟩ :=
    ⟨show 0 < maxChunk by decide, le_refl _, hchunk⟩
  refine .cons hcall ?_
  obtain ⟨chunk, rfl, hrest⟩ | ⟨e, rfl, hrest⟩ | ⟨stop, -, rfl, rfl, -⟩ := hrest
  · have hfrom := readOn_readsFrom hrest
    rwa [← Nat.zero_add chunk.length] at hfrom
  · dsimp only at hrest
    split at hrest
    all_goals
      exact .of_done hrest
  · exact .nil

end

/-! ### The reader of a session -/

section

variable {aes : Aes128} {oc : OverflowChecks} {fuel : ℕ} {s s' : SecureSession}
  {tr : Trace Sent Answer}

/-- The call is one of `SecureSession::read_binary`, on a session that is not broken. -/
def IsSecureRead (aes : Aes128) (oc : OverflowChecks) (fuel : ℕ)
    (call : ReadCall SecureSession Sent) : Prop :=
  ∃ offset length : UInt16, offset.toNat = call.offset ∧ length.toNat = call.asked ∧
    call.before.broken = false ∧
    Steps (SecureSession.readBinary aes oc fuel offset length) call.before call.trace call.out
      call.after

/-- A secure call that succeeds leaves the session unbroken. -/
theorem unbroken_of_call_ok {c : Command} {data : Bytes}
    (h : Steps (SecureSession.call oc fuel c) s tr (.ok data) s') : s'.broken = false := by
  obtain ⟨-, -, hout, -⟩ | ⟨hb, tr', r, -, -, hr⟩ := call_steps h
  · cases hout
  · obtain ⟨stop, -, hout, -⟩ | ⟨response, -, ⟨hout, -⟩ | ⟨-, hout, rfl⟩⟩ := hr
    · cases hout
    · cases hout
    · rw [(Response.intoData_eq_ok.mp hout.symm).1]
      show (s.broken || false) = false
      rw [hb]
      rfl

theorem unbroken_of_selectEf_ok {id : UInt16}
    (h : Steps (SecureSession.selectEf aes oc fuel id) s tr (.ok ()) s') : s'.broken = false := by
  obtain ⟨stop, hout, -⟩ | ⟨tr₁, data, s₁, tr₂, -, h₁, h₂⟩ := steps_bind.mp (steps_get_bind.mp h)
  · cases hout
  · obtain ⟨-, -, rfl⟩ := steps_pure.mp h₂
    exact unbroken_of_call_ok h₁

theorem unbroken_of_readBinary_ok {offset length : UInt16} {data : Bytes}
    (h : Steps (SecureSession.readBinary aes oc fuel offset length) s tr (.ok data) s') :
    s'.broken = false := by
  obtain ⟨r, hcall, hout⟩ := readBinary_steps.mp h
  cases r with
  | error stop => cases hout
  | ok response => exact unbroken_of_call_ok hcall

/-- The loop of `read_ef`, as long as what it has is not more than the object. -/
theorem readEfLoop_bounded {total : ℕ} {out : Bytes} {res : Run Bytes} (hb : s.broken = false)
    (hfits : out.length ≤ total)
    (h : Steps (SecureSession.readEfLoop aes oc fuel total out) s tr res s') :
    Bounded (IsSecureRead aes oc fuel) out.length s total total tr res := by
  induction hmeasure : total - out.length using Nat.strong_induction_on generalizing out s tr with
  | _ n ih =>
    subst hmeasure
    by_cases hmore : out.length < total
    · obtain hlarge | hsmall := Nat.lt_or_ge 0xFFFF out.length
      · rw [SecureSession.readEfLoop_refused oc fuel hmore (Nat.not_le_of_lt hlarge)] at h
        obtain ⟨rfl, rfl, -⟩ := steps_throw.mp h
        exact .nil (atMost_error _ _)
      rw [SecureSession.readEfLoop_step oc fuel hmore hsmall] at h
      have hoffset : (UInt16.ofNat out.length).toNat = out.length := by
        rw [UInt16.toNat_ofNat']
        omega
      obtain ⟨stop, rfl, hread⟩ | ⟨tr₁, chunk, s₁, tr₂, rfl, hread, hrest⟩ := steps_bind.mp h
      · have hcall : IsSecureRead aes oc fuel ⟨out.length, _, s, tr, .error stop, s'⟩ :=
          ⟨_, _, hoffset, rfl, hb, hread⟩
        exact .last hcall hfits (atMost_error _ stop)
      · have hcall : IsSecureRead aes oc fuel ⟨out.length, _, s, tr₁, .ok chunk, s₁⟩ :=
          ⟨_, _, hoffset, rfl, hb, hread⟩
        have hlength : (out ++ chunk).length = out.length + chunk.length := List.length_append
        by_cases hnil : chunk = []
        · subst hnil
          rw [if_pos rfl] at hrest
          exact .cons hcall hfits (.of_steps_pure hrest hfits)
        · have hpos := List.length_pos_iff.mpr hnil
          rw [if_neg hnil] at hrest
          by_cases hmuch : total < (out ++ chunk).length
          · -- what the chunk is too long by is returned with the rest
            rw [SecureSession.readEfLoop_done oc fuel (Nat.not_lt_of_lt hmuch)] at hrest
            obtain ⟨rfl, rfl, -⟩ := steps_pure.mp hrest
            rw [List.append_nil]
            refine .beyond hcall ?_ ?_
            · show total < out.length + chunk.length
              omega
            · rw [atMost_ok]
              exact Nat.not_le_of_lt hmuch
          · have hfrom := ih _ (by omega) (unbroken_of_readBinary_ok hread) (by omega) hrest rfl
            rw [hlength] at hfrom
            refine .cons hcall ?_ hfrom
            show out.length + chunk.length ≤ total
            omega
    · rw [SecureSession.readEfLoop_done oc fuel hmore] at h
      exact .of_steps_pure h hfits

theorem readEfOn_readsFrom {out : Bytes} {res : Run Bytes} (hb : s.broken = false)
    (h : Steps (SecureSession.readEfOn aes oc fuel out) s tr res s') :
    ReadsFrom (IsSecureRead aes oc fuel) out.length s tr := by
  unfold SecureSession.readEfOn at h
  split at h
  · exact .of_steps_pure h
  · split at h
    · obtain ⟨stop, -, h⟩ | ⟨tr₁, total, s₁, tr₂, rfl, h₁, h₂⟩ := steps_bind.mp h
      · obtain ⟨rfl, -⟩ := steps_liftRun.mp h
        exact .nil
      · obtain ⟨rfl, -, rfl⟩ := steps_liftRun.mp h₁
        split at h₂
        · exact .of_steps_pure h₂
        · exact (readEfLoop_bounded hb (by omega) h₂).readsFrom
    · exact .of_steps_pure h

/-- `read_ef_physical` is a SELECT FILE and then, if that succeeds, one read at offset 0. -/
theorem readEfPhysical_steps {id : UInt16} {first : Run Bytes}
    (h : Steps (SecureSession.readEfPhysical aes oc fuel id) s tr first s') :
    ∃ tr₁ tr₂ selected s₁, tr = tr₁ ++ tr₂ ∧
      Steps (SecureSession.selectEf aes oc fuel id) s tr₁ selected s₁ ∧
      ((tr₂ = [] ∧ ∃ stop, first = .error stop) ∨ (s₁.broken = false ∧
        Steps (SecureSession.readBinary aes oc fuel 0 0) s₁ tr₂ first s')) := by
  obtain ⟨stop, rfl, hfail⟩ | ⟨tr₁, u, s₁, tr₂, rfl, h₁, h₂⟩ := steps_bind.mp h
  · exact ⟨tr, [], _, s', (List.append_nil tr).symm, hfail, .inl ⟨rfl, stop, rfl⟩⟩
  · exact ⟨tr₁, tr₂, _, s₁, rfl, h₁, .inr ⟨unbroken_of_selectEf_ok h₁, h₂⟩⟩

/-- `read_ef` is a SELECT FILE and then consecutive reads from the front of the file. -/
theorem readEf_readsFrom {id : UInt16} {res : Run Bytes}
    (h : Steps (SecureSession.readEf aes oc fuel id) s tr res s') :
    ∃ tr₁ tr₂ selected s₁, tr = tr₁ ++ tr₂ ∧
      Steps (SecureSession.selectEf aes oc fuel id) s tr₁ selected s₁ ∧
      ReadsFrom (IsSecureRead aes oc fuel) 0 s₁ tr₂ := by
  obtain ⟨stop, rfl, hfail⟩ | ⟨tr₀, out, s₀, tr₃, rfl, hphysical, hrest⟩ := steps_bind.mp h
  · obtain ⟨tr₁, tr₂, selected, s₁, rfl, hselect, ⟨rfl, -⟩ | ⟨hb, hread⟩⟩ :=
      readEfPhysical_steps hfail
    · exact ⟨tr₁, [], selected, s₁, rfl, hselect, .nil⟩
    · exact ⟨tr₁, tr₂, selected, s₁, rfl, hselect,
        .single (⟨0, 0, rfl, rfl, hb, hread⟩ :
          IsSecureRead aes oc fuel ⟨0, 0, s₁, tr₂, .error stop, s'⟩)⟩
  · obtain ⟨tr₁, tr₂, selected, s₁, rfl, hselect, ⟨-, stop, hstop⟩ | ⟨hb, hread⟩⟩ :=
      readEfPhysical_steps hphysical
    · cases hstop
    · refine ⟨tr₁, tr₂ ++ tr₃, selected, s₁, List.append_assoc _ _ _, hselect, ?_⟩
      have hcall : IsSecureRead aes oc fuel ⟨0, 0, s₁, tr₂, .ok out, s₀⟩ :=
        ⟨0, 0, rfl, rfl, hb, hread⟩
      refine .cons hcall ?_
      have hfrom := readEfOn_readsFrom (unbroken_of_readBinary_ok hread) hrest
      rwa [← Nat.zero_add out.length] at hfrom

end

/-! ### How much the readers return -/

/-- The bytes start with the header of an object that takes up `total` bytes. -/
def Declares (oc : OverflowChecks) (chunk : Bytes) (total : ℕ) : Prop :=
  ∃ header, Ber.parseHeader chunk = .ok header ∧ header.totalLen oc = .ok total

theorem Declares.ne_nil {oc : OverflowChecks} {chunk : Bytes} {total : ℕ}
    (h : Declares oc chunk total) : chunk ≠ [] := by
  rintro rfl
  obtain ⟨header, hheader, -⟩ := h
  cases hheader

/-- What `read_binary_all` does with a first chunk that declares how much there is. -/
theorem readOn_declared {pf : Platform} {fuel total : ℕ} {chunk : Bytes}
    (h : Declares pf chunk total) :
    Card.readOn pf fuel chunk =
      if total ≤ chunk.length then pure (chunk.take total)
      else Card.readBinary pf fuel chunk.length (total - chunk.length) >>=
        fun rest => pure (chunk ++ rest) := by
  have hne : ¬ chunk.isEmpty = true := by
    rw [List.isEmpty_iff]
    exact h.ne_nil
  obtain ⟨header, hheader, htotal⟩ := h
  rw [Card.readOn, if_neg hne, hheader]
  dsimp only
  rw [htotal]
  rfl

theorem readOn_bounded {pf : Platform} {fuel total : ℕ} {chunk : Bytes}
    {tr : Trace Bytes Answer} {res : Run Bytes} (hdeclares : Declares pf chunk total)
    (h : Path (Card.readOn pf fuel chunk).run tr res) :
    Bounded (IsChunk fuel) chunk.length () total total tr res := by
  rw [readOn_declared hdeclares] at h
  by_cases hall : total ≤ chunk.length
  · rw [if_pos hall] at h
    obtain ⟨rfl, rfl⟩ := path_done.mp h
    refine .nil (atMost_ok.mpr ?_)
    exact List.length_take_le total chunk
  · rw [if_neg hall] at h
    have hlimit : chunk.length + (total - chunk.length) = total := by omega
    obtain ⟨stop, rfl, hread⟩ | ⟨tr₁, rest, tr₂, rfl, hread, hpure⟩ := path_exceptT_bind.mp h
    · have hbounded := readBinary_bounded hread
      rw [hlimit] at hbounded
      exact hbounded.congr (iff_of_true (atMost_error _ stop) (atMost_error _ stop))
    · obtain ⟨rfl, rfl⟩ := path_done.mp hpure
      have hbounded := readBinary_bounded hread
      rw [hlimit] at hbounded
      rw [List.append_nil]
      refine hbounded.congr ?_
      rw [atMost_ok, atMost_ok, List.length_append]
      omega

/-- What `read_ef` does with a first response that declares how much there is. -/
theorem readEfOn_bounded {aes : Aes128} {oc : OverflowChecks} {fuel total : ℕ} {out : Bytes}
    {s s' : SecureSession} {tr : Trace Sent Answer} {res : Run Bytes} (hb : s.broken = false)
    (hdeclares : Declares oc out total)
    (h : Steps (SecureSession.readEfOn aes oc fuel out) s tr res s') :
    Bounded (IsSecureRead aes oc fuel) out.length s total total tr res := by
  have hne := hdeclares.ne_nil
  obtain ⟨header, hheader, htotal⟩ := hdeclares
  rw [SecureSession.readEfOn, if_neg hne, hheader] at h
  dsimp only at h
  rw [htotal] at h
  obtain ⟨stop, -, h⟩ | ⟨tr₁, total', s₁, tr₂, rfl, h₁, h₂⟩ := steps_bind.mp h
  · cases (steps_liftRun.mp h).2.1
  · obtain ⟨rfl, htotal', rfl⟩ := steps_liftRun.mp h₁
    obtain rfl := Except.ok.inj htotal'
    rw [List.nil_append]
    by_cases hall : total' ≤ out.length
    · rw [if_pos hall] at h₂
      exact .of_steps_pure h₂ (List.length_take_le _ _)
    · rw [if_neg hall] at h₂
      exact readEfLoop_bounded hb (by omega) h₂

end MynaCard
