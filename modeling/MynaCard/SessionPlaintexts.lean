import MynaCard.SessionCounters

/-!
# One plaintext for each counter

An initial vector is a function of the key and the counter, so two plaintexts encrypted for one
counter share one. A session uses a counter again after a call that returned an error once its APDU
was out: the transport failed, a response was too short to be one, or a `6100` could not be followed
up. If that happens to no encrypted command, and the counter does not wrap, no counter of the
session carries two plaintexts (`counter_determines_plaintext`). What becomes of a READ BINARY does
not matter, since it carries none.
-/

namespace MynaCard

open Dialogue

/-! ### Exchanges of encrypted commands -/

/-- The latest secure APDU among some. -/
def lastSecure (sent : List Sent) : Option Sent := (sent.filter Sent.isSecure).getLast?

/-- The APDU `q`, sent after `past`, belongs to the exchange of an encrypted command. -/
def inEncryptedExchange (past : Trace Sent Answer) (q : Sent) : Bool :=
  (lastSecure (past.map Prod.fst ++ [q])).any Sent.isEncrypted

/-- If all that was secure lately was encrypted, the latest secure APDU is. -/
theorem lastSecure_any {old new : List Sent} (hsome : ∃ q ∈ new, q.isSecure = true)
    (hall : ∀ q ∈ new, q.isSecure = true → q.isEncrypted = true) :
    (lastSecure (old ++ new)).any Sent.isEncrypted = true := by
  obtain ⟨q, hq, hsecure⟩ := hsome
  have hne : new.filter Sent.isSecure ≠ [] := by
    intro hnil
    have hmem : q ∈ new.filter Sent.isSecure := List.mem_filter.mpr ⟨hq, hsecure⟩
    rw [hnil] at hmem
    cases hmem
  rw [lastSecure, List.filter_append, List.getLast?_append_of_ne_nil _ hne,
    List.getLast?_eq_some_getLast hne, Option.any_some]
  have hlast := List.mem_filter.mp (List.getLast_mem hne)
  exact hall _ hlast.1 hlast.2

/-! ### The invariant -/

section Invariant

variable (aes : Aes128) (oc : OverflowChecks) (key : Block)

/-- Two APDUs for one counter carry one plaintext. -/
def SamePlaintext (q q' : Sent) : Prop :=
  q.counter = q'.counter → ∀ m m', Carries aes key q m → Carries aes key q' m' → m = m'

/-- An encrypted APDU carries a plaintext, and the one every APDU before it for the same counter
carries; if the exchange of every encrypted command comes to its end, and the counter of an
unchecked build has not wrapped to zero. -/
def plaintextMonitor : Monitor (Trace Sent Answer) Sent Answer :=
  .ofHistory
    (fun past q => (q.isEncrypted = true → ∃ m, Carries aes key q m) ∧
      ∀ e ∈ past, SamePlaintext aes key e.1 q)
    fun past q a => (inEncryptedExchange past q = true → Card.Workable a) ∧
      (oc = .off → q.isSecure = true → q.counter ≠ 0)

/-- No plaintext has been sent for the counter the session is at, or for a later one, unless the
counter has wrapped. -/
def CounterFresh (s : SecureSession) (past : Trace Sent Answer) : Prop :=
  s.key = key ∧ (oc = .on → s.counter ≠ 0) ∧
    (s.counter ≠ 0 → ∀ e ∈ past, ∀ m, Carries aes key e.1 m →
      e.1.counter.toNat < s.counter.toNat)

end Invariant

theorem toNat_succ_of_ne_zero {n : UInt32} (h : n + 1 ≠ 0) : (n + 1).toNat = n.toNat + 1 := by
  have hne : (n + 1).toNat ≠ 0 := fun h0 => h (UInt32.toNat_inj.mp h0)
  have hn := n.toNat_lt
  rw [UInt32.toNat_add, UInt32.toNat_one] at hne ⊢
  omega

section Call

variable {aes : Aes128} {oc : OverflowChecks} {key : Block} {fuel : ℕ} {s s' : SecureSession}
  {c : Command} {past : Trace Sent Answer} {tr : Trace Bytes Answer}

/-- What a call sends for a counter no plaintext has been sent for. -/
theorem call_samePlaintext (hc : SessionCommand aes s c) (hfrom : ∀ e ∈ tr, Card.FromCall c e.1)
    (hfresh : ∀ e ∈ past, ∀ m, Carries aes key e.1 m → e.1.counter.toNat < s.counter.toNat)
    {x : Bytes × Answer} (hx : x ∈ tr) {e : Sent × Answer}
    (he : e ∈ past ∨ e ∈ labelled s.counter tr) :
    SamePlaintext aes key e.1 ⟨x.1, s.counter⟩ := by
  intro hcounter m m' hm hm'
  rcases he with he | he
  · have hlt := hfresh e he m hm
    rw [hcounter] at hlt
    exact absurd hlt (lt_irrefl s.counter.toNat)
  · obtain ⟨y, hy, rfl⟩ := mem_labelled.mp he
    apply aes.encrypt_injective key s.counter
    apply cryptogramObject_injective
    rw [← data_of_carries hc.valid (hfrom y hy) hm, ← data_of_carries hc.valid (hfrom x hx) hm']

/-- The answers of an encrypted command's exchange are ones it can go on from. -/
theorem call_workable_of_assumed (hc : SessionCommand aes s c) (hins : c.ins ≠ Ins.readBinary)
    {a : Answer} {rest : Trace Bytes Answer}
    (hfrom : ∀ e ∈ (c.encoding, a) :: rest, Card.FromCall c e.1)
    (hassume : ∀ tr₁ q b tr₂, labelled s.counter ((c.encoding, a) :: rest) = tr₁ ++ (q, b) :: tr₂ →
      inEncryptedExchange (past ++ tr₁) q = true → Card.Workable b) :
    ∀ e ∈ (c.encoding, a) :: rest, Card.Workable e.2 := by
  intro e he
  obtain ⟨tr₁, tr₂, htr⟩ := List.append_of_mem he
  refine hassume (labelled s.counter tr₁) ⟨e.1, s.counter⟩ e.2 (labelled s.counter tr₂)
    (by rw [htr, labelled_append, labelled_cons]) ?_
  rw [inEncryptedExchange, List.map_append, List.append_assoc]
  apply lastSecure_any
  · refine ⟨⟨c.encoding, s.counter⟩, ?_, hc.isSecure s.counter⟩
    cases tr₁ with
    | nil =>
      obtain ⟨rfl, -⟩ := List.cons.inj htr
      simp
    | cons x tr₁ =>
      obtain ⟨rfl, -⟩ := List.cons.inj htr
      simp
  · intro q hq hsecure
    obtain ⟨y, hy, rfl⟩ : ∃ y ∈ (c.encoding, a) :: rest, q = ⟨y.1, s.counter⟩ := by
      rcases List.mem_append.mp hq with hq | hq
      · obtain ⟨z, hz, rfl⟩ := List.mem_map.mp hq
        obtain ⟨y, hy, rfl⟩ := mem_labelled.mp hz
        exact ⟨y, htr ▸ List.mem_append_left _ hy, rfl⟩
      · exact ⟨e, he, List.mem_singleton.mp hq⟩
    exact isEncrypted_of_fromCall hc.cla_eq hins (hfrom y hy) hsecure

/-- The session after a call that returned has a fresh counter again. -/
theorem counterFresh_advanced (sw : StatusWord) (hkey : s.key = key)
    (hfrom : ∀ e ∈ labelled s.counter tr, e.1.counter = s.counter)
    (hfresh : ∀ e ∈ past, ∀ m, Carries aes key e.1 m → e.1.counter.toNat < s.counter.toNat)
    (hoc : oc = .off ∨ s.counter.toNat < 2 ^ 32 - 1) :
    CounterFresh aes oc key (s.advanced sw) (past ++ labelled s.counter tr) := by
  refine ⟨hkey, ?_, ?_⟩
  · intro hon hzero
    rcases hoc with hoff | hlt
    · rw [hon] at hoff
      cases hoff
    · have hsucc := toNat_succ_counter hlt
      have : (s.counter + 1).toNat = 0 := by
        rw [show s.counter + 1 = 0 from hzero]
        rfl
      omega
  · intro hne e he m hm
    have hsucc := toNat_succ_of_ne_zero (show s.counter + 1 ≠ 0 from hne)
    show e.1.counter.toNat < (s.counter + 1).toNat
    rcases List.mem_append.mp he with he | he
    · have hlt := hfresh e he m hm
      omega
    · rw [hfrom e he]
      omega

theorem call_plaintext (hc : SessionCommand aes s c) :
    Keeps (plaintextMonitor aes oc key) (CounterFresh aes oc key) s
      (SecureSession.call oc fuel c) := by
  intro past tr out s' hI hsteps hassume
  rcases call_steps hsteps with ⟨-, rfl, -, rfl⟩ | ⟨-, tr', r, rfl, hpath, hr⟩
  · exact ⟨trivial, fun _ => hI⟩
  have hassume := (Monitor.ofHistory_assumed _ _).mp hassume
  have hfrom := Card.call_fromCall hc.valid hpath
  obtain ⟨hkey, hon, hfresh⟩ := hI
  obtain ⟨a, rest, rfl, -⟩ := Card.call_transmits hc.valid hpath
  -- the first APDU is secure, so the counter has not wrapped
  have hne : s.counter ≠ 0 := by
    have hfirst := (hassume [] ⟨c.encoding, s.counter⟩ a (labelled s.counter rest) rfl).2
    cases oc with
    | on => exact hon rfl
    | off => exact hfirst rfl (hc.isSecure s.counter)
  have hfresh := hfresh hne
  refine ⟨(Monitor.ofHistory_safe _ _).mpr ?_, ?_⟩
  · intro tr₁ q b tr₂ htr
    obtain ⟨x, hx, hxq⟩ : ∃ x ∈ (c.encoding, a) :: rest, (Sent.mk x.1 s.counter, x.2) = (q, b) :=
      mem_labelled.mp (htr ▸ List.mem_append_right _ List.mem_cons_self)
    obtain ⟨rfl, rfl⟩ := Prod.mk.inj hxq
    refine ⟨?_, ?_⟩
    · intro hencrypted
      rcases hc.encrypted_or_read with ⟨-, m, hdata⟩ | ⟨hread, -⟩
      · rw [hkey] at hdata
        exact ⟨m, carries_of_isEncrypted hc.valid hc.cla_eq (hfrom x hx) hdata hencrypted⟩
      · rw [not_isEncrypted_of_fromCall hread (hfrom x hx)] at hencrypted
        cases hencrypted
    · intro e he
      refine call_samePlaintext hc hfrom hfresh hx ?_
      rw [htr]
      exact (List.mem_append.mp he).imp id fun h => List.mem_append_left _ h
  · intro hreturned
    rw [plaintextMonitor, Monitor.ofHistory_after]
    rcases hr with ⟨stop, rfl, rfl, rfl⟩ | ⟨response, rfl, ⟨rfl, -⟩ | ⟨hoc, rfl, rfl⟩⟩
    · rcases hc.encrypted_or_read with ⟨hins, -⟩ | ⟨-, hdata⟩
      · have hworkable := call_workable_of_assumed hc hins hfrom
          fun tr₁ q b tr₂ htr => (hassume tr₁ q b tr₂ htr).1
        exact absurd hreturned (not_returned_of_workable hc.valid hpath hworkable)
      · refine ⟨hkey, hon, ?_⟩
        intro _ e he m hm
        rcases List.mem_append.mp he with he | he
        · exact hfresh e he m hm
        · obtain ⟨y, hy, rfl⟩ := mem_labelled.mp he
          exact absurd (data_of_carries hc.valid (hfrom y hy) hm) (hdata _)
    · exact absurd hreturned (not_returned_panic _)
    · refine counterFresh_advanced response.status hkey ?_ hfresh hoc
      intro e he
      obtain ⟨y, -, rfl⟩ := mem_labelled.mp he
      rfl

end Call

/-- Every encrypted APDU of the run carries a plaintext, and no two APDUs of the run carry different
plaintexts for one counter. -/
def OnePlaintextPerCounter (aes : Aes128) (key : Block) (tr : Trace Sent Answer) : Prop :=
  (∀ e ∈ tr, e.1.isEncrypted = true → ∃ m, Carries aes key e.1 m) ∧
  ∀ e ∈ tr, ∀ e' ∈ tr, SamePlaintext aes key e.1 e'.1

theorem carries_unique {aes : Aes128} {key : Block} {q : Sent} {m m' : Bytes}
    (h : Carries aes key q m) (h' : Carries aes key q m') : m = m' := by
  obtain ⟨_, c, hc, -, hdata⟩ := h
  obtain ⟨_, c', hc', -, hdata'⟩ := h'
  obtain ⟨-, rfl⟩ := Prod.mk.inj (Option.some.inj (hc.symm.trans hc'))
  exact aes.encrypt_injective key q.counter (cryptogramObject_injective (hdata.symm.trans hdata'))

/-- **The counter determines the plaintext** in every run in which each APDU of an encrypted
command's exchange is answered by a response other than `6100`, and in a build without overflow
checks no secure APDU is sent at a counter that has wrapped to zero. -/
theorem counter_determines_plaintext (aes : Aes128) (oc : OverflowChecks) (fuel : ℕ) (key : Block)
    (ops : List SessionOperation) (tr : Trace Sent Answer) (out : Run Unit) (s' : SecureSession)
    (hrun : Steps (performAll aes oc fuel ops) (.opened key) tr out s')
    (hanswers : ∀ tr₁ q a tr₂, tr = tr₁ ++ (q, a) :: tr₂ → inEncryptedExchange tr₁ q = true →
      Card.Workable a)
    (hwrap : oc = .off → ∀ e ∈ tr, e.1.isSecure = true → e.1.counter ≠ 0) :
    OnePlaintextPerCounter aes key tr := by
  have hassume : (plaintextMonitor aes oc key).Assumed [] tr := by
    refine (Monitor.ofHistory_assumed _ _).mpr ?_
    intro tr₁ q a tr₂ htr
    refine ⟨hanswers tr₁ q a tr₂ htr, ?_⟩
    intro hoff hq
    exact hwrap hoff (q, a) (htr ▸ List.mem_append_right _ List.mem_cons_self) hq
  have hfresh : CounterFresh aes oc key (.opened key) [] :=
    ⟨rfl, fun _ => show (1 : UInt32) ≠ 0 by decide, fun _ e he => nomatch he⟩
  obtain ⟨hsafe, -⟩ := performAll_keeps (fun s c hc => call_plaintext hc) ops (.opened key) []
    tr out s' hfresh hrun hassume
  have hsafe := (Monitor.ofHistory_safe _ _).mp hsafe
  refine ⟨?_, ?_⟩
  · intro e he hencrypted
    obtain ⟨tr₁, tr₂, htr⟩ := List.append_of_mem he
    exact (hsafe tr₁ e.1 e.2 tr₂ htr).1 hencrypted
  · intro e he e' he'
    obtain ⟨tr₁, tr₂, htr⟩ := List.append_of_mem he'
    rw [htr] at he
    rcases List.mem_append.mp he with hbefore | hfrom
    · exact (hsafe tr₁ e'.1 e'.2 tr₂ htr).2 e hbefore
    rcases List.mem_cons.mp hfrom with rfl | hafter
    · exact fun _ m m' => carries_unique
    · obtain ⟨tr₃, tr₄, htr'⟩ := List.append_of_mem hafter
      have hsplit : tr = (tr₁ ++ e' :: tr₃) ++ (e.1, e.2) :: tr₄ := by
        rw [htr, htr', List.append_assoc, List.cons_append]
      intro hcounter m m' hm hm'
      exact ((hsafe _ e.1 e.2 tr₄ hsplit).2 e' (by simp) hcounter.symm m' m hm' hm).symm

/-! ### Two PINs -/

/-- The PIN `5678`. -/
def pin5678 : Pin := ⟨[0x35, 0x36, 0x37, 0x38], by decide, by decide, by decide +kernel⟩

/-- The VERIFY with `pin5678` of a session that is at 2. -/
def secondVerify : Sent :=
  ⟨[0x08, 0x20, 0x00, 0x91, 0x13, 0x86, 0x11, 0x01, 0x5F, 0x4F, 0xC0, 0xFC, 0x31, 0x4B, 0x96, 0x00,
    0x12, 0xCE, 0x56, 0xE1, 0xED, 0xE5, 0x79, 0xFD], 2⟩

/-- Two VERIFYs, both accepted. -/
def twoVerifies : Trace Sent Answer :=
  [(firstVerify, .ok [0x90, 0x00]), (secondVerify, .ok [0x90, 0x00])]

theorem counter_determines_plaintext_twoVerifies :
    Steps (performAll aes128 .on 0 [.verify 0x0011 pin1234, .verify 0x0011 pin5678])
        (.opened Block.zero) twoVerifies (.ok ()) ⟨Block.zero, 3, false⟩ ∧
      OnePlaintextPerCounter aes128 Block.zero twoVerifies := by
  have hrun : Steps (performAll aes128 .on 0 [.verify 0x0011 pin1234, .verify 0x0011 pin5678])
      (.opened Block.zero) twoVerifies (.ok ()) ⟨Block.zero, 3, false⟩ :=
    path_of_replay [.ok [0x90, 0x00], .ok [0x90, 0x00]] (by decide +kernel)
  refine ⟨hrun, counter_determines_plaintext aes128 .on 0 Block.zero
    [.verify 0x0011 pin1234, .verify 0x0011 pin5678] _ _ _ hrun ?_ (by simp)⟩
  intro tr₁ q a tr₂ htr _
  have hmem : (q, a) ∈ twoVerifies := htr ▸ List.mem_append_right _ List.mem_cons_self
  have hsuccess : a = .ok [0x90, 0x00] := by
    rcases List.mem_pair.mp hmem with heq | heq
    · exact (Prod.mk.inj heq).2
    · exact (Prod.mk.inj heq).2
  subst hsuccess
  exact ⟨⟨[], .success⟩, rfl, by decide⟩

/-! ### A VERIFY the transport failed on -/

/-- The VERIFY with `pin5678` of a session that is still at 1. -/
def verifyAgain : Sent :=
  ⟨[0x08, 0x20, 0x00, 0x91, 0x13, 0x86, 0x11, 0x01, 0x11, 0xDD, 0x13, 0xBE, 0x3A, 0x0A, 0x1C, 0x1C,
    0x2F, 0x6A, 0xEB, 0x55, 0xA3, 0xAC, 0xE2, 0x15], 1⟩

/-- A VERIFY the transport fails on once it is out, and a VERIFY with another PIN. -/
def failedVerify : Trace Sent Answer :=
  [(firstVerify, .error (.pcsc 0x8010002F)), (verifyAgain, .ok [0x90, 0x00])]

/-- The two PINs are encrypted for one counter, under one key. -/
theorem failedVerify_two_plaintexts :
    Steps (performAll aes128 .on 0 [.verify 0x0011 pin1234, .verify 0x0011 pin5678])
        (.opened Block.zero) failedVerify (.ok ()) ⟨Block.zero, 2, false⟩ ∧
      Carries aes128 Block.zero firstVerify pin1234.bytes ∧
      Carries aes128 Block.zero verifyAgain pin5678.bytes ∧
      ¬ OnePlaintextPerCounter aes128 Block.zero failedVerify := by
  have hfirst : Carries aes128 Block.zero firstVerify pin1234.bytes :=
    ⟨.case3S, ⟨0x08, 0x20, 0x00, 0x91, firstVerify.apdu.drop 5, none⟩, by rfl, by rfl,
      by decide +kernel⟩
  have hagain : Carries aes128 Block.zero verifyAgain pin5678.bytes :=
    ⟨.case3S, ⟨0x08, 0x20, 0x00, 0x91, verifyAgain.apdu.drop 5, none⟩, by rfl, by rfl,
      by decide +kernel⟩
  refine ⟨path_of_replay [.error (.pcsc 0x8010002F), .ok [0x90, 0x00]] (by decide +kernel), hfirst,
    hagain, ?_⟩
  intro h
  have heq := h.2 _ List.mem_cons_self _ (List.mem_cons_of_mem _ List.mem_cons_self) rfl _ _
    hfirst hagain
  exact absurd heq (by decide)

end MynaCard
