import MynaCard.Error

/-!
# APDUs

`apdu.rs`: the command APDU with its encoder, and the response APDU with the split into data field
and status word.
-/

namespace MynaCard

/-! ### CLA bytes -/

namespace Cla

/-- Commands complying with ISO/IEC 7816-4. -/
def user : UInt8 := 0x00

/-- Commands not complying with ISO/IEC 7816-4. -/
def system : UInt8 := 0x80

/-- Secure messaging applied, integrity check of the data field not required. -/
def smWithoutIntegrity : UInt8 := 0x08

end Cla

/-! ### Commands -/

/-- A command APDU. `le` is the number of bytes expected, 1 to 65536, not what goes on the wire. -/
structure Command where
  cla : UInt8
  ins : UInt8
  p1 : UInt8
  p2 : UInt8
  data : Bytes
  le : Option UInt32
  deriving DecidableEq, Repr

namespace Command

/-- `Command::new`: neither a data field nor `Le`. -/
def new (cla ins p1 p2 : UInt8) : Command := ⟨cla, ins, p1, p2, [], none⟩

/-- `Command::with_le`: `Le` only. -/
def withLe (cla ins p1 p2 : UInt8) (le : UInt32) : Command := ⟨cla, ins, p1, p2, [], some le⟩

/-- `Command::with_data`: a data field only. -/
def withData (cla ins p1 p2 : UInt8) (data : Bytes) : Command := ⟨cla, ins, p1, p2, data, none⟩

/-- `Command::with_data_le`: both. -/
def withDataLe (cla ins p1 p2 : UInt8) (data : Bytes) (le : UInt32) : Command :=
  ⟨cla, ins, p1, p2, data, some le⟩

/-- Whether the encoder takes the extended form. -/
def isExtended (c : Command) : Bool := c.data.length > 255 || c.le.any (· > 256)

/-- What the encoder writes before the data field. -/
def lcField (c : Command) : Bytes :=
  if c.data.isEmpty then []
  else if c.isExtended then 0x00 :: u16Bytes (UInt16.ofNat c.data.length)
  else [UInt8.ofNat c.data.length]

/-- What the encoder writes after it. The maxima 65536 and 256 wrap to zero. -/
def leField (c : Command) : Bytes :=
  match c.le with
  | none => []
  | some le =>
    if c.isExtended then
      -- without a data field the zero that would have introduced `Lc` is still required
      (if c.data.isEmpty then [0x00] else []) ++ u16Bytes le.toUInt16
    else [le.toUInt8]

/-- `Command::to_bytes`. -/
def toBytes (c : Command) : Run Bytes := do
  if c.data.length > 0xFFFF then throw (.err (.dataTooLong c.data.length))
  if let some le := c.le then
    if le = 0 ∨ le > 65536 then throw (.err (.expectedLengthOutOfRange le))
  pure ([c.cla, c.ins, c.p1, c.p2] ++ c.lcField ++ c.data ++ c.leField)

/-- The two limits the encoder checks. -/
def Valid (c : Command) : Prop :=
  c.data.length ≤ 0xFFFF ∧ ∀ le, c.le = some le → 1 ≤ le.toNat ∧ le.toNat ≤ 65536

/-- The bytes of a valid command. -/
def encoding (c : Command) : Bytes := [c.cla, c.ins, c.p1, c.p2] ++ c.lcField ++ c.data ++ c.leField

instance (c : Command) : Decidable c.Valid :=
  decidable_of_iff
    (c.data.length ≤ 0xFFFF ∧ c.le.all fun le => 1 ≤ le.toNat && le.toNat ≤ 65536) (by
      unfold Valid
      cases c.le <;> simp)

theorem le_out_of_range (le : UInt32) :
    (le = 0 ∨ le > 65536) ↔ ¬ (1 ≤ le.toNat ∧ le.toNat ≤ 65536) := by
  rw [← UInt32.toNat_inj, gt_iff_lt, UInt32.lt_iff_toNat_lt]
  simp only [UInt32.toNat_ofNat, Nat.reducePow, Nat.reduceMod]
  omega

theorem toBytes_of_valid {c : Command} (h : c.Valid) : c.toBytes = .ok c.encoding := by
  obtain ⟨hdata, hle⟩ := h
  unfold toBytes
  rw [if_neg (by omega)]
  cases hc : c.le with
  | none => rfl
  | some le =>
    have hok : ¬ (le = 0 ∨ le > 65536) := by
      rw [le_out_of_range, not_not]
      exact hle le hc
    simp only [hok, if_false]
    rfl

/-- A command no encoding can carry is refused. -/
theorem toBytes_of_not_valid {c : Command} (h : ¬ c.Valid) :
    ∃ e, c.toBytes = .error (.err e) := by
  unfold toBytes
  by_cases hdata : c.data.length > 0xFFFF
  · exact ⟨.dataTooLong c.data.length, by rw [if_pos hdata]; rfl⟩
  · rw [if_neg hdata]
    cases hc : c.le with
    | none => exact absurd ⟨by omega, by simp [hc]⟩ h
    | some le =>
      have hbad : le = 0 ∨ le > 65536 := by
        rw [le_out_of_range]
        intro hok
        refine h ⟨by omega, ?_⟩
        intro le' hle'
        rw [hc, Option.some.injEq] at hle'
        exact hle' ▸ hok
      exact ⟨.expectedLengthOutOfRange le, by simp only [hbad, if_true]; rfl⟩

end Command

/-! ### Responses -/

/-- A response APDU. -/
structure Response where
  data : Bytes
  status : StatusWord
  deriving DecidableEq, Repr

namespace Response

/-- `Response::parse`. -/
def parse (raw : Bytes) : Run Response :=
  if raw.length < 2 then .error (.err (.shortResponse raw.length))
  else
    match raw.drop (raw.length - 2) with
    | [hi, lo] => .ok ⟨raw.take (raw.length - 2), .ofBytes hi lo⟩
    | _ => .error (.err (.shortResponse raw.length))  -- not reached: two bytes remain

/-- The bytes of a response. -/
def toBytes (r : Response) : Bytes := r.data ++ [r.status.sw1, r.status.sw2]

/-- `Response::into_data`. -/
def intoData (r : Response) : Run Bytes :=
  if r.status.isSuccess then .ok r.data else .error (.err (.fromStatus r.status))

theorem parse_toBytes (r : Response) : parse r.toBytes = .ok r := by
  have hlen : r.toBytes.length - 2 = r.data.length := by simp [toBytes]
  unfold parse
  rw [if_neg (by simp [toBytes]), hlen]
  simp [toBytes, StatusWord.ofBytes_sw1_sw2]

theorem exists_of_two_le {raw : Bytes} (h : 2 ≤ raw.length) : ∃ r : Response, raw = r.toBytes := by
  have hlen : (raw.drop (raw.length - 2)).length = 2 := by
    rw [List.length_drop]
    omega
  obtain ⟨hi, lo, hdrop⟩ := List.length_eq_two.mp hlen
  refine ⟨⟨raw.take (raw.length - 2), .ofBytes hi lo⟩, ?_⟩
  rw [toBytes, StatusWord.sw1_ofBytes, StatusWord.sw2_ofBytes, ← hdrop, List.take_append_drop]

theorem parse_of_length_lt_two {raw : Bytes} (h : raw.length < 2) :
    parse raw = .error (.err (.shortResponse raw.length)) := if_pos h

theorem intoData_eq_ok {r : Response} {d : Bytes} :
    r.intoData = .ok d ↔ r.status = .success ∧ r.data = d := by
  unfold intoData
  rw [← StatusWord.isSuccess_iff]
  split <;> simp_all

end Response

end MynaCard
