import MynaCard.Apdu

/-!
# Command APDUs by the ISO 7816-4 case rules

The receiving side of `Apdu`, written from the case rules of the standard and not from the encoder:
which of the seven cases a byte string is, told from its length and its fifth to seventh bytes, and
the command it then carries. `Command.toBytes_faithful` is the agreement of the two.
-/

namespace MynaCard

/-- The seven forms a command APDU can have on the wire. -/
inductive IsoCase
  | case1
  | case2S
  | case3S
  | case4S
  | case2E
  | case3E
  | case4E
  deriving DecidableEq, Repr

namespace IsoCase

def isShort : IsoCase → Bool
  | case1 | case2S | case3S | case4S => true
  | case2E | case3E | case4E => false

/-- How many bytes the `Lc` field takes. -/
def lcWidth : IsoCase → ℕ
  | case1 | case2S | case2E => 0
  | case3S | case4S => 1
  | case3E | case4E => 3

/-- How many bytes the `Le` field takes. -/
def leWidth : IsoCase → ℕ
  | case1 | case3S | case3E => 0
  | case2S | case4S => 1
  | case2E => 3
  | case4E => 2

end IsoCase

/-- A one byte `Le`, whose zero is the maximum. -/
def shortLe (b : UInt8) : UInt32 := if b = 0 then 256 else b.toUInt32

/-- A two byte `Le`, whose zero is the maximum. -/
def extendedLe (hi lo : UInt8) : UInt32 :=
  if u16OfBytes hi lo = 0 then 65536 else (u16OfBytes hi lo).toUInt32

/-- A body of `lc` data bytes and at most one `Le` byte. -/
def decodeShortBody (cla ins p1 p2 : UInt8) (lc : ℕ) (body : Bytes) : Option (IsoCase × Command) :=
  if body.length = lc then some (.case3S, ⟨cla, ins, p1, p2, body, none⟩)
  else match body.drop lc with
    | [le] => some (.case4S, ⟨cla, ins, p1, p2, body.take lc, some (shortLe le)⟩)
    | _ => none

/-- A body of `lc` data bytes and nothing or two `Le` bytes. -/
def decodeExtendedBody (cla ins p1 p2 : UInt8) (lc : ℕ) (body : Bytes) :
    Option (IsoCase × Command) :=
  if body.length = lc then some (.case3E, ⟨cla, ins, p1, p2, body, none⟩)
  else match body.drop lc with
    | [hi, lo] => some (.case4E, ⟨cla, ins, p1, p2, body.take lc, some (extendedLe hi lo)⟩)
    | _ => none

/-- The case of a byte string and the command it carries. -/
def isoDecode : Bytes → Option (IsoCase × Command)
  | [cla, ins, p1, p2] => some (.case1, ⟨cla, ins, p1, p2, [], none⟩)
  | [cla, ins, p1, p2, le] => some (.case2S, ⟨cla, ins, p1, p2, [], some (shortLe le)⟩)
  | [cla, ins, p1, p2, b, hi, lo] =>
    if b = 0 then some (.case2E, ⟨cla, ins, p1, p2, [], some (extendedLe hi lo)⟩)
    else decodeShortBody cla ins p1 p2 b.toNat [hi, lo]
  | cla :: ins :: p1 :: p2 :: b :: body =>
    if b = 0 then
      match body with
      | hi :: lo :: rest =>
        if u16OfBytes hi lo = 0 then none
        else decodeExtendedBody cla ins p1 p2 (u16OfBytes hi lo).toNat rest
      | _ => none
    else decodeShortBody cla ins p1 p2 b.toNat body
  | _ => none

/-! ### The bodies -/

theorem decodeShortBody_data (cla ins p1 p2 : UInt8) (data : Bytes) :
    decodeShortBody cla ins p1 p2 data.length data =
      some (.case3S, ⟨cla, ins, p1, p2, data, none⟩) := if_pos rfl

theorem decodeShortBody_data_le (cla ins p1 p2 : UInt8) (data : Bytes) (le : UInt8) :
    decodeShortBody cla ins p1 p2 data.length (data ++ [le]) =
      some (.case4S, ⟨cla, ins, p1, p2, data, some (shortLe le)⟩) := by
  unfold decodeShortBody
  rw [if_neg (by simp), List.drop_left, List.take_left]

theorem decodeExtendedBody_data (cla ins p1 p2 : UInt8) (data : Bytes) :
    decodeExtendedBody cla ins p1 p2 data.length data =
      some (.case3E, ⟨cla, ins, p1, p2, data, none⟩) := if_pos rfl

theorem decodeExtendedBody_data_le (cla ins p1 p2 : UInt8) (data : Bytes) (hi lo : UInt8) :
    decodeExtendedBody cla ins p1 p2 data.length (data ++ [hi, lo]) =
      some (.case4E, ⟨cla, ins, p1, p2, data, some (extendedLe hi lo)⟩) := by
  unfold decodeExtendedBody
  rw [if_neg (by simp), List.drop_left, List.take_left]

/-- A nonzero fifth byte in front of a nonempty body announces a short data field. -/
theorem isoDecode_short (cla ins p1 p2 b x : UInt8) (body : Bytes) (hb : b ≠ 0) :
    isoDecode (cla :: ins :: p1 :: p2 :: b :: x :: body) =
      decodeShortBody cla ins p1 p2 b.toNat (x :: body) := by
  match body with
  | [] => simp [isoDecode, hb]
  | [y] => simp [isoDecode, hb]
  | y :: z :: body => simp [isoDecode, hb]

/-- Three bytes `00 hi lo` in front of a nonempty body announce an extended data field. -/
theorem isoDecode_extended (cla ins p1 p2 hi lo x : UInt8) (body : Bytes)
    (hlc : u16OfBytes hi lo ≠ 0) :
    isoDecode (cla :: ins :: p1 :: p2 :: 0 :: hi :: lo :: x :: body) =
      decodeExtendedBody cla ins p1 p2 (u16OfBytes hi lo).toNat (x :: body) := by
  simp [isoDecode, hlc]

/-! ### The `Le` conventions -/

theorem shortLe_toUInt8 {le : UInt32} (hpos : 1 ≤ le.toNat) (hle : le.toNat ≤ 256) :
    shortLe le.toUInt8 = le := by
  unfold shortLe
  apply UInt32.toNat_inj.mp
  by_cases hmax : le.toNat = 256
  · have h0 : le.toUInt8 = 0 := by
      apply UInt8.toNat_inj.mp
      simp [hmax]
    rw [if_pos h0, hmax]
    rfl
  · have hne : le.toUInt8 ≠ 0 := by
      intro h
      have := congrArg UInt8.toNat h
      simp at this
      omega
    rw [if_neg hne]
    simp
    omega

theorem extendedLe_toUInt16 {le : UInt32} (hpos : 1 ≤ le.toNat) (hle : le.toNat ≤ 65536) :
    extendedLe (le.toUInt16 >>> 8).toUInt8 le.toUInt16.toUInt8 = le := by
  unfold extendedLe
  rw [u16OfBytes_u16Bytes]
  apply UInt32.toNat_inj.mp
  by_cases hmax : le.toNat = 65536
  · have h0 : le.toUInt16 = 0 := by
      apply UInt16.toNat_inj.mp
      simp [hmax]
    rw [if_pos h0, hmax]
    rfl
  · have hne : le.toUInt16 ≠ 0 := by
      intro h
      have := congrArg UInt16.toNat h
      simp at this
      omega
    rw [if_neg hne]
    simp
    omega

/-! ### The encoder against the rules -/

namespace Command

/-- The fields of a command, all one after the other, with the widths of the case. -/
def Layout (c : Command) (k : IsoCase) (bs : Bytes) : Prop :=
  ∃ lc le, bs = [c.cla, c.ins, c.p1, c.p2] ++ lc ++ c.data ++ le ∧
    lc.length = k.lcWidth ∧ le.length = k.leWidth

theorem isExtended_eq_false {c : Command} :
    c.isExtended = false ↔ c.data.length ≤ 255 ∧ ∀ le, c.le = some le → le.toNat ≤ 256 := by
  unfold isExtended
  cases hle : c.le with
  | none => simp
  | some le => simp [UInt32.le_iff_toNat_le]

/-- The case the encoder chooses. -/
def isoCase (c : Command) : IsoCase :=
  match c.isExtended, c.data.isEmpty, c.le with
  | false, true, none => .case1
  | false, true, some _ => .case2S
  | false, false, none => .case3S
  | false, false, some _ => .case4S
  | true, true, _ => .case2E
  | true, false, none => .case3E
  | true, false, some _ => .case4E

theorem isoCase_isShort (c : Command) : c.isoCase.isShort = !c.isExtended := by
  unfold isoCase
  split <;> simp_all [IsoCase.isShort]

/-- An extended form without a data field has an `Le`. -/
theorem le_of_isExtended {c : Command} (h : c.isExtended = true) (hdata : c.data = []) :
    ∃ le, c.le = some le := by
  cases hle : c.le with
  | none => simp [isExtended, hle, hdata] at h
  | some le => exact ⟨le, rfl⟩

theorem lcField_length (c : Command) : c.lcField.length = c.isoCase.lcWidth := by
  unfold lcField isoCase
  cases c.isExtended <;> cases c.data <;> cases c.le <;> simp [IsoCase.lcWidth]

theorem leField_length (c : Command) : c.leField.length = c.isoCase.leWidth := by
  unfold leField isoCase
  cases hext : c.isExtended <;> cases hdata : c.data <;> cases hle : c.le <;>
    simp [IsoCase.leWidth]
  obtain ⟨le, h⟩ := le_of_isExtended hext hdata
  simp [hle] at h

theorem encoding_layout (c : Command) : c.Layout c.isoCase c.encoding :=
  ⟨c.lcField, c.leField, rfl, c.lcField_length, c.leField_length⟩

theorem isoDecode_encoding_short {c : Command} (hv : c.Valid) (hext : c.isExtended = false) :
    isoDecode c.encoding = some (c.isoCase, c) := by
  obtain ⟨hdata255, hle256⟩ := isExtended_eq_false.mp hext
  obtain ⟨cla, ins, p1, p2, data, le⟩ := c
  simp only at hdata255 hle256
  have hle : ∀ l, le = some l → shortLe l.toUInt8 = l := fun l hl =>
    shortLe_toUInt8 (hv.2 l hl).1 (hle256 l hl)
  cases data with
  | nil =>
    cases le with
    | none => simp [encoding, lcField, leField, isoCase, hext, isoDecode]
    | some l => simp [encoding, lcField, leField, isoCase, hext, isoDecode, hle l rfl]
  | cons x data =>
    have hlc : (UInt8.ofNat (x :: data).length).toNat = (x :: data).length := by
      rw [UInt8.toNat_ofNat']
      omega
    have hne : UInt8.ofNat (x :: data).length ≠ 0 := by
      intro h
      rw [h] at hlc
      simp at hlc
    cases le with
    | none =>
      have henc : encoding ⟨cla, ins, p1, p2, x :: data, none⟩ =
          cla :: ins :: p1 :: p2 :: UInt8.ofNat (x :: data).length :: x :: data := by
        simp [encoding, lcField, leField, hext]
      rw [henc, isoDecode_short _ _ _ _ _ _ _ hne, hlc, decodeShortBody_data]
      simp [isoCase, hext]
    | some l =>
      have henc : encoding ⟨cla, ins, p1, p2, x :: data, some l⟩ =
          cla :: ins :: p1 :: p2 :: UInt8.ofNat (x :: data).length :: x ::
            (data ++ [l.toUInt8]) := by
        simp [encoding, lcField, leField, hext]
      rw [henc, isoDecode_short _ _ _ _ _ _ _ hne, hlc, ← List.cons_append,
        decodeShortBody_data_le, hle l rfl]
      simp [isoCase, hext]

theorem isoDecode_encoding_extended {c : Command} (hv : c.Valid) (hext : c.isExtended = true) :
    isoDecode c.encoding = some (c.isoCase, c) := by
  obtain ⟨cla, ins, p1, p2, data, le⟩ := c
  have hdata := hv.1
  have hle : ∀ l, le = some l →
      extendedLe (l.toUInt16 >>> 8).toUInt8 l.toUInt16.toUInt8 = l := fun l hl =>
    extendedLe_toUInt16 (hv.2 l hl).1 (hv.2 l hl).2
  simp only at hdata
  cases data with
  | nil =>
    obtain ⟨l, hl⟩ := le_of_isExtended hext rfl
    simp only at hl
    subst hl
    have henc : encoding ⟨cla, ins, p1, p2, [], some l⟩ =
        [cla, ins, p1, p2, 0, (l.toUInt16 >>> 8).toUInt8, l.toUInt16.toUInt8] := by
      simp [encoding, lcField, leField, hext, u16Bytes]
    rw [henc]
    show some (IsoCase.case2E, Command.mk cla ins p1 p2 [] (some (extendedLe _ _))) = _
    rw [hle l rfl]
    simp [isoCase, hext]
  | cons x data =>
    have hlc : (UInt16.ofNat (x :: data).length).toNat = (x :: data).length := by
      rw [UInt16.toNat_ofNat']
      omega
    have hne : UInt16.ofNat (x :: data).length ≠ 0 := by
      intro h
      rw [h] at hlc
      simp at hlc
    have hu16 := u16OfBytes_u16Bytes (UInt16.ofNat (x :: data).length)
    cases le with
    | none =>
      have henc : encoding ⟨cla, ins, p1, p2, x :: data, none⟩ =
          cla :: ins :: p1 :: p2 :: 0 :: (UInt16.ofNat (x :: data).length >>> 8).toUInt8 ::
            (UInt16.ofNat (x :: data).length).toUInt8 :: x :: data := by
        simp [encoding, lcField, leField, hext, u16Bytes]
      rw [henc, isoDecode_extended _ _ _ _ _ _ _ _ (by rw [hu16]; exact hne), hu16, hlc,
        decodeExtendedBody_data]
      simp [isoCase, hext]
    | some l =>
      have henc : encoding ⟨cla, ins, p1, p2, x :: data, some l⟩ =
          cla :: ins :: p1 :: p2 :: 0 :: (UInt16.ofNat (x :: data).length >>> 8).toUInt8 ::
            (UInt16.ofNat (x :: data).length).toUInt8 :: x ::
              (data ++ [(l.toUInt16 >>> 8).toUInt8, l.toUInt16.toUInt8]) := by
        simp [encoding, lcField, leField, hext, u16Bytes]
      rw [henc, isoDecode_extended _ _ _ _ _ _ _ _ (by rw [hu16]; exact hne), hu16, hlc,
        ← List.cons_append, decodeExtendedBody_data_le, hle l rfl]
      simp [isoCase, hext]

theorem isoDecode_encoding {c : Command} (hv : c.Valid) :
    isoDecode c.encoding = some (c.isoCase, c) := by
  cases hext : c.isExtended with
  | false => exact isoDecode_encoding_short hv hext
  | true => exact isoDecode_encoding_extended hv hext

theorem encoding_inj {c c' : Command} (hv : c.Valid) (hv' : c'.Valid)
    (h : c.encoding = c'.encoding) : c = c' := by
  have hd := isoDecode_encoding hv
  rw [h, isoDecode_encoding hv'] at hd
  simp only [Option.some.injEq, Prod.mk.injEq] at hd
  exact hd.2.symm

/-- **The encoding is faithful.** A valid command is recovered from its bytes, which have the
layout of one of the seven cases; that case is a short one exactly when data field and `Le` are
both within the short form's limits; no other valid command has the same bytes; and what is not
valid is refused. -/
theorem toBytes_faithful (c : Command) :
    (c.Valid → ∃ bs k, c.toBytes = .ok bs ∧ isoDecode bs = some (k, c) ∧ c.Layout k bs ∧
      (k.isShort ↔ c.data.length ≤ 255 ∧ ∀ le, c.le = some le → le.toNat ≤ 256)) ∧
    (c.Valid → ∀ c' : Command, c'.Valid → c'.toBytes = c.toBytes → c' = c) ∧
    (¬ c.Valid → ∃ e, c.toBytes = .error (.err e)) := by
  refine ⟨fun hv => ?_, fun hv c' hv' h => ?_, toBytes_of_not_valid⟩
  · refine ⟨c.encoding, c.isoCase, toBytes_of_valid hv, isoDecode_encoding hv,
      encoding_layout c, ?_⟩
    rw [isoCase_isShort, ← isExtended_eq_false]
    cases c.isExtended <;> simp
  · rw [toBytes_of_valid hv, toBytes_of_valid hv'] at h
    exact encoding_inj hv' hv (Except.ok.inj h)

/-- READ BINARY for 256 bytes, whose `Le` goes on the wire as a zero. -/
theorem toBytes_faithful_readBinary :
    ∃ bs k, toBytes ⟨0x00, 0xB0, 0x00, 0x00, [], some 256⟩ = .ok bs ∧
      isoDecode bs = some (k, ⟨0x00, 0xB0, 0x00, 0x00, [], some 256⟩) ∧
      Layout ⟨0x00, 0xB0, 0x00, 0x00, [], some 256⟩ k bs ∧
      (k.isShort ↔ ([] : Bytes).length ≤ 255 ∧
        ∀ le : UInt32, some 256 = some le → le.toNat ≤ 256) :=
  (toBytes_faithful ⟨0x00, 0xB0, 0x00, 0x00, [], some 256⟩).1
    ⟨by decide, by rintro _ ⟨⟩; decide⟩

end Command

end MynaCard
