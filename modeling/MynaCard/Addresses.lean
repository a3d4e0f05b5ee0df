import MynaCard.ReadCalls
import MynaCard.SessionCounters

/-!
# What a READ BINARY addresses

P1 of a READ BINARY is half an address, or with bit 8 set the name of a file. A call is `Addressed`
if it transmits nothing and fails, or what it transmits reads the current EF at the offset asked
for. Every chunk of `Card` is, and the readers are made of chunks that each begin where the bytes
before end. A secure read is not at an offset from `8000` on, and `read_ef` comes to one when the
card has given that many bytes (`readBinary_addressed_iff`).
-/

namespace MynaCard

open Dialogue

/-! ### Addresses on the wire -/

/-- INS=B0. -/
def IsReadBinary (apdu : Bytes) : Prop := apdu[1]? = some Ins.readBinary

/-- A READ BINARY of the current EF: bit 8 of P1 is clear, and P1-P2 is the offset. -/
def ReadsCurrentAt (offset : ℕ) (apdu : Bytes) : Prop :=
  ∃ cla p1 p2 rest, apdu = cla :: Ins.readBinary :: p1 :: p2 :: rest ∧ p1 &&& 0x80 = 0 ∧
    (u16OfBytes p1 p2).toNat = offset

/-- Nothing is transmitted and an error is returned, or the first APDU transmitted is a READ BINARY,
and it and every other one reads the current EF at the offset. -/
def Addressed (offset : ℕ) (apdus : List Bytes) (out : Run Bytes) : Prop :=
  (apdus = [] ∧ ∃ e, out = .error (.err e)) ∨
    (offset ≤ maxOffset ∧ (∃ first rest, apdus = first :: rest ∧ IsReadBinary first) ∧
      ∀ apdu ∈ apdus, IsReadBinary apdu → ReadsCurrentAt offset apdu)

theorem high_bit_clear {p : UInt8} (h : p.toNat < 0x80) : p &&& 0x80 = 0 := by
  revert p
  decide +kernel

/-- The high byte of an offset that can be addressed. -/
theorem high_byte_clear {offset : UInt16} (h : offset.toNat ≤ maxOffset) :
    (offset >>> 8).toUInt8 &&& 0x80 = 0 := by
  apply high_bit_clear
  unfold maxOffset at h
  rw [u16_hi_toNat]
  omega

/-- A call of a READ BINARY for an address sends it, and repeats it, for that address. -/
theorem readsCurrentAt_of_fromCall {c : Command} {address : UInt16} {apdu : Bytes}
    (hins : c.ins = Ins.readBinary) (hp1 : c.p1 = (address >>> 8).toUInt8)
    (hp2 : c.p2 = address.toUInt8) (haddress : address.toNat ≤ maxOffset)
    (hfrom : Card.FromCall c apdu) (hread : IsReadBinary apdu) :
    ReadsCurrentAt address.toNat apdu := by
  have hbytes : (u16OfBytes c.p1 c.p2).toNat = address.toNat := by
    rw [hp1, hp2, u16OfBytes_u16Bytes]
  have hclear : c.p1 &&& 0x80 = 0 := by
    rw [hp1]
    exact high_byte_clear haddress
  obtain rfl | ⟨le, rfl⟩ | ⟨available, rfl⟩ := hfrom
  · exact ⟨c.cla, c.p1, c.p2, _, by rw [← hins]; rfl, hclear, hbytes⟩
  · exact ⟨c.cla, c.p1, c.p2, _, by rw [← hins]; rfl, hclear, hbytes⟩
  · rw [Card.getResponse_encoding] at hread
    have hins : some (0xC0 : UInt8) = some Ins.readBinary := hread
    exact absurd hins (by decide)

/-! ### One read -/

/-- A chunk of `Card` is addressed, whatever the offset. -/
theorem readBinaryChunk_addressed {fuel offset : ℕ} {le : UInt32} {tr : Trace Bytes Answer}
    {out : Run Bytes} (h : Path (Card.readBinaryChunk fuel offset le).run tr out) :
    Addressed offset (tr.map Prod.fst) out := by
  unfold Card.readBinaryChunk at h
  by_cases hoff : offset > maxOffset
  · rw [if_pos hoff] at h
    obtain ⟨rfl, rfl⟩ := path_done.mp h
    exact .inl ⟨rfl, _, rfl⟩
  rw [if_neg hoff] at h
  have hcall : Path (Card.callOk fuel (.withLe Cla.user Ins.readBinary
      (UInt16.ofNat offset >>> 8).toUInt8 (UInt16.ofNat offset).toUInt8 le)).run tr out := h
  obtain ⟨r, hpath, rfl⟩ := Card.path_callOk.mp hcall
  by_cases hv : (Command.withLe Cla.user Ins.readBinary
      (UInt16.ofNat offset >>> 8).toUInt8 (UInt16.ofNat offset).toUInt8 le).Valid
  · refine .inr ⟨by omega, ?_, ?_⟩
    · obtain ⟨a, rest, rfl, -⟩ := Card.call_transmits hv hpath
      exact ⟨_, _, rfl, rfl⟩
    · intro apdu hmem hread
      obtain ⟨e, he, rfl⟩ := List.mem_map.mp hmem
      have haddress : (UInt16.ofNat offset).toNat = offset := by
        unfold maxOffset at hoff
        rw [UInt16.toNat_ofNat']
        omega
      have hat : ReadsCurrentAt (UInt16.ofNat offset).toNat e.1 :=
        readsCurrentAt_of_fromCall rfl rfl rfl (by omega) (Card.call_fromCall hv hpath e he) hread
      rwa [haddress] at hat
  · obtain ⟨e, hrun⟩ := Card.call_run_not_valid fuel hv
    rw [hrun] at hpath
    obtain ⟨rfl, rfl⟩ := path_done.mp hpath
    exact .inl ⟨rfl, e, rfl⟩

/-- A secure read is addressed on a broken session, and below offset `8000`. -/
theorem secureRead_addressed_iff {aes : Aes128} {oc : OverflowChecks} {fuel : ℕ}
    {offset length : UInt16} {s s' : SecureSession} {tr : Trace Sent Answer} {out : Run Bytes}
    (h : Steps (SecureSession.readBinary aes oc fuel offset length) s tr out s') :
    Addressed offset.toNat (sentApdus tr) out ↔
      s.broken = true ∨ offset.toNat ≤ maxOffset := by
  have hv := (SessionCommand.readBinary offset length : SessionCommand aes s _).valid
  obtain ⟨r, hcall, rfl⟩ := readBinary_steps.mp h
  obtain ⟨hb, rfl, rfl, -⟩ | ⟨hb, tr', r', rfl, hpath, -⟩ := call_steps hcall
  · exact iff_of_true (.inl ⟨rfl, _, rfl⟩) (.inl hb)
  · have hfirst : ∃ first rest, sentApdus (labelled s.counter tr') = first :: rest ∧
        IsReadBinary first := by
      obtain ⟨a, rest, rfl, -⟩ := Card.call_transmits hv hpath
      exact ⟨_, _, rfl, rfl⟩
    rw [hb]
    constructor
    · intro haddressed
      obtain ⟨hnil, -⟩ | ⟨hoff, -⟩ := haddressed
      · obtain ⟨first, rest, heq, -⟩ := hfirst
        rw [hnil] at heq
        cases heq
      · exact .inr hoff
    · intro hoff
      obtain hbroken | hoff := hoff
      · cases hbroken
      · refine .inr ⟨hoff, hfirst, ?_⟩
        intro apdu hmem hread
        obtain ⟨e, he, rfl⟩ := List.mem_map.mp hmem
        obtain ⟨x, hx, rfl⟩ := mem_labelled.mp he
        exact readsCurrentAt_of_fromCall rfl rfl rfl hoff (Card.call_fromCall hv hpath x hx) hread

/-! ### Which reads are addressed -/

/-- A call of `read_binary_chunk`, and addressed. -/
def AddressedChunk (fuel : ℕ) (call : ReadCall Unit Bytes) : Prop :=
  IsChunk fuel call ∧ Addressed call.offset (call.trace.map Prod.fst) call.out

/-- A call of `SecureSession::read_binary`, and addressed just when its offset is below `8000`. -/
def AddressedBelow (aes : Aes128) (oc : OverflowChecks) (fuel : ℕ)
    (call : ReadCall SecureSession Sent) : Prop :=
  IsSecureRead aes oc fuel call ∧
    (Addressed call.offset (sentApdus call.trace) call.out ↔ call.offset ≤ maxOffset)

theorem IsChunk.addressed {fuel : ℕ} {call : ReadCall Unit Bytes} (h : IsChunk fuel call) :
    AddressedChunk fuel call :=
  ⟨h, readBinaryChunk_addressed h.2.2⟩

theorem IsSecureRead.addressedBelow {aes : Aes128} {oc : OverflowChecks} {fuel : ℕ}
    {call : ReadCall SecureSession Sent} (h : IsSecureRead aes oc fuel call) :
    AddressedBelow aes oc fuel call := by
  refine ⟨h, ?_⟩
  obtain ⟨offset, length, hoffset, -, hb, hread⟩ := h
  rw [← hoffset, secureRead_addressed_iff hread, hb]
  simp

/-- **Which READ BINARY commands are addressed.** Every chunk of `Card` is. The exchange of a reader
is that of its calls, each with its answers and for the offset where the bytes given by those before
it end, so every read of the readers of `Card` is. A secure read is on a broken session, and
otherwise at an offset below `8000`; those of `read_ef` are as long as fewer than 32768 bytes have
been given before. -/
theorem readBinary_addressed_iff (aes : Aes128) (oc : OverflowChecks) (pf : Platform) (fuel : ℕ) :
    (∀ offset le tr out, Path (Card.readBinaryChunk fuel offset le).run tr out →
      Addressed offset (tr.map Prod.fst) out) ∧
    (∀ offset length tr out, Path (Card.readBinary pf fuel offset length).run tr out →
      ReadsFrom (AddressedChunk fuel) offset () tr) ∧
    (∀ tr out, Path (Card.readBinaryAll pf fuel).run tr out →
      ReadsFrom (AddressedChunk fuel) 0 () tr) ∧
    (∀ tr out, Path (Card.readBinaryPhysical fuel).run tr out →
      ReadsFrom (AddressedChunk fuel) 0 () tr) ∧
    (∀ offset length s tr out s',
      Steps (SecureSession.readBinary aes oc fuel offset length) s tr out s' →
        (Addressed offset.toNat (sentApdus tr) out ↔
          s.broken = true ∨ offset.toNat ≤ maxOffset)) ∧
    ∀ id s tr out s', Steps (SecureSession.readEf aes oc fuel id) s tr out s' →
      ∃ tr₁ tr₂ selected s₁, tr = tr₁ ++ tr₂ ∧
        Steps (SecureSession.selectEf aes oc fuel id) s tr₁ selected s₁ ∧
        ReadsFrom (AddressedBelow aes oc fuel) 0 s₁ tr₂ := by
  refine ⟨?_, ?_, ?_, ?_, ?_, ?_⟩
  · intro offset le tr out h
    exact readBinaryChunk_addressed h
  · intro offset length tr out h
    exact (readBinary_readsFrom h).imp fun _ => IsChunk.addressed
  · intro tr out h
    exact (readBinaryAll_readsFrom h).imp fun _ => IsChunk.addressed
  · intro tr out h
    have hfrom := readToEnd_readsFrom h
    exact hfrom.imp fun _ => IsChunk.addressed
  · intro offset length s tr out s' h
    exact secureRead_addressed_iff h
  · intro id s tr out s' h
    obtain ⟨tr₁, tr₂, selected, s₁, htr, hselect, hfrom⟩ := readEf_readsFrom h
    exact ⟨tr₁, tr₂, selected, s₁, htr, hselect, hfrom.imp fun _ => IsSecureRead.addressedBelow⟩

/-- READ BINARY at offset `8000` on a new session: P1 is `80`, which names the current EF by its
short identifier and reads it from offset 0. -/
theorem secureRead_not_addressed :
    ∃ tr out s', Steps (SecureSession.readBinary aes128 .on 0 0x8000 1) (.opened Block.zero) tr out s' ∧
      sentApdus tr = [[0x08, 0xB0, 0x80, 0x00, 0x00, 0x00, 0x05, 0x96, 0x03, 0x00, 0x00, 0x01, 0x00,
        0x00]] ∧
      ¬ Addressed 0x8000 (sentApdus tr) out := by
  have hsteps : Steps (SecureSession.readBinary aes128 .on 0 0x8000 1) (.opened Block.zero)
      [(⟨(SecureSession.readBinaryCommand 0x8000 1).encoding, 1⟩, .ok [0x6B, 0x00])]
      (.error (.err (.status ⟨0x6B00⟩))) ⟨Block.zero, 2, false⟩ :=
    path_of_replay [.ok [0x6B, 0x00]] rfl
  refine ⟨_, _, _, hsteps, by decide +kernel, ?_⟩
  intro haddressed
  obtain ⟨hnil, -⟩ | ⟨hoff, -⟩ := haddressed
  · cases hnil
  · exact absurd hoff (by decide)

end MynaCard
