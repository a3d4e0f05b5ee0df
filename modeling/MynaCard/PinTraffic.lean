import MynaCard.Alike
import MynaCard.CardExchange
import MynaCard.WrapperRuns

/-!
# Where a PIN goes

A run of the wrappers' operations is told PINs, and sends them. `performFrom_alike` says that it sends
them in the data fields of VERIFY and of the two commands that replace a key, and that nothing else of
what it does depends on them but their lengths: with other PINs of the same lengths, and the same
answers, the run sends the same APDUs but for those data fields, and ends the same way.
-/

namespace MynaCard

open Dialogue

/-! ### APDUs that differ in a secret -/

/-- The instructions whose data field is a secret. -/
def BearsSecret (ins : UInt8) : Prop :=
  ins = Ins.verify ∨ ins = Ins.changeReferenceData ∨ ins = Ins.changeKey

/-- The same APDU, or one with another secret of the same length for its data field: the header, `Lc`
and what follows the data field, a byte of `Le` at most, are the same. -/
inductive AlikeButSecret : Bytes → Bytes → Prop
  | same (apdu : Bytes) : AlikeButSecret apdu apdu
  | secret (cla ins p1 p2 lc : UInt8) (data data' le : Bytes) (hins : BearsSecret ins)
      (hlen : data.length = lc.toNat) (hlen' : data'.length = lc.toNat) (hle : le.length ≤ 1) :
      AlikeButSecret (cla :: ins :: p1 :: p2 :: lc :: (data ++ le))
        (cla :: ins :: p1 :: p2 :: lc :: (data' ++ le))

/-- `Le` in the short form. -/
def leByte (c : Command) : Bytes := c.le.elim [] fun le => [le.toUInt8]

theorem leByte_length_le (c : Command) : (leByte c).length ≤ 1 := by
  unfold leByte
  cases c.le with
  | none => exact Nat.zero_le 1
  | some le => exact le_refl 1

/-- A command with a data field, in the short form. -/
theorem encoding_of_short {c : Command} (hdata : c.data ≠ []) (hext : c.isExtended = false) :
    c.encoding =
      c.cla :: c.ins :: c.p1 :: c.p2 :: UInt8.ofNat c.data.length :: (c.data ++ leByte c) := by
  have hempty : c.data.isEmpty = false := List.isEmpty_eq_false_iff.mpr hdata
  have hlc : c.lcField = [UInt8.ofNat c.data.length] := by
    rw [Command.lcField, hempty, hext]
    rfl
  have hle : c.leField = leByte c := by
    unfold Command.leField leByte
    rw [hext]
    cases c.le with
    | none => rfl
    | some le => rfl
  rw [Command.encoding, hlc, hle, List.append_assoc]
  rfl

/-- Two commands that differ in their data fields, of the same length. -/
theorem encoding_alike {c : Command} {data : Bytes} (hins : BearsSecret c.ins)
    (hlen : c.data.length = data.length) (hdata : c.data ≠ []) (hext : c.isExtended = false) :
    AlikeButSecret c.encoding { c with data := data }.encoding := by
  have hdata' : data ≠ [] := by
    rw [← List.length_pos_iff, ← hlen]
    exact List.length_pos_iff.mpr hdata
  have hext' : { c with data := data }.isExtended = false := by
    rw [← hext]
    show (decide (data.length > 255) || _) = (decide (c.data.length > 255) || _)
    rw [hlen]
  have hlc : (UInt8.ofNat c.data.length).toNat = c.data.length := by
    have hshort := (Command.isExtended_eq_false.mp hext).1
    rw [UInt8.toNat_ofNat']
    omega
  rw [encoding_of_short hdata hext, encoding_of_short (c := { c with data := data }) hdata' hext']
  show AlikeButSecret _
    (c.cla :: c.ins :: c.p1 :: c.p2 :: UInt8.ofNat data.length :: (data ++ leByte c))
  rw [← hlen]
  exact .secret c.cla c.ins c.p1 c.p2 _ c.data data _ hins hlc.symm (hlen.symm.trans hlc.symm)
    (leByte_length_le c)

/-- The command resent after `6Cxx` asks for no more than the short form can. -/
theorem retry_le_le (c : Command) (le : UInt8) :
    ∀ le', (Card.retry c le).le = some le' → le'.toNat ≤ 256 := by
  intro le' hle'
  obtain rfl := Option.some.inj hle'
  split
  · decide
  · rw [UInt8.toNat_toUInt32]
    exact le.toNat_lt.le

/-! ### Operations of a card -/

section

variable (fuel : ℕ)

theorem call_alike {c : Command} {data : Bytes} (hv : c.Valid) (hins : BearsSecret c.ins)
    (hlen : c.data.length = data.length) (hdata : c.data ≠ []) (hext : c.isExtended = false) :
    AlikeRun AlikeButSecret (Card.call fuel c) (Card.call fuel { c with data := data }) := by
  have hv' : { c with data := data }.Valid := ⟨by rw [← hlen]; exact hv.1, hv.2⟩
  unfold AlikeRun
  rw [Card.call_run fuel hv, Card.call_run fuel hv']
  refine .ask (encoding_alike hins hlen hdata hext) fun a => ?_
  cases Card.answered a with
  | error stop => exact .done rfl
  | ok r =>
    rw [orElseDone_ok, orElseDone_ok]
    unfold Card.afterFirst
    cases r.status.correctLe with
    | none => exact AlikeRun.refl .same (Card.collect fuel r)
    | some le =>
      -- the same command again, with a byte of `Le`
      have hext' : (Card.retry c le).isExtended = false :=
        Command.isExtended_eq_false.mpr
          ⟨(Command.isExtended_eq_false.mp hext).1, retry_le_le c le⟩
      refine .ask (encoding_alike (c := Card.retry c le) hins hlen hdata hext') fun b => ?_
      exact Alike.refl .same (fun _ => rfl) _

theorem callOk_alike {c : Command} {data : Bytes} (hv : c.Valid) (hins : BearsSecret c.ins)
    (hlen : c.data.length = data.length) (hdata : c.data ≠ []) (hext : c.isExtended = false) :
    AlikeRun AlikeButSecret (Card.callOk fuel c) (Card.callOk fuel { c with data := data }) :=
  (call_alike fuel hv hins hlen hdata hext).bind fun _ => .refl .same _

/-- Two PINs of which nothing but the length is the same. -/
def SameLength (p q : Pin) : Prop := p.bytes.length = q.bytes.length

variable {p q p' q' : Pin}

theorem pin_data_valid (cla ins p1 p2 : UInt8) (p : Pin) :
    (Command.withData cla ins p1 p2 p.bytes).Valid :=
  ⟨p.length_le.trans (by decide), by simp [Command.withData]⟩

theorem pin_data_short (cla ins p1 p2 : UInt8) (p : Pin) :
    (Command.withData cla ins p1 p2 p.bytes).isExtended = false :=
  Command.isExtended_eq_false.mpr ⟨p.length_le.trans (by decide), by simp [Command.withData]⟩

/-- Two PINs in the data field of one command. -/
theorem withPin_alike (cla ins p1 p2 : UInt8) (hins : BearsSecret ins) (h : SameLength p q) :
    AlikeRun AlikeButSecret (Card.callOk fuel (.withData cla ins p1 p2 p.bytes))
      (Card.callOk fuel (.withData cla ins p1 p2 q.bytes)) :=
  callOk_alike fuel (pin_data_valid _ _ _ _ p) hins h p.ne_nil (pin_data_short _ _ _ _ p)

theorem verify_alike (h : SameLength p q) :
    AlikeRun AlikeButSecret (Card.verify fuel p) (Card.verify fuel q) :=
  (withPin_alike fuel _ _ _ _ (.inl rfl) h).bind fun _ => .refl .same _

theorem changeReferenceData_alike (h : SameLength p q) :
    AlikeRun AlikeButSecret (Card.changeReferenceData fuel p) (Card.changeReferenceData fuel q) :=
  (withPin_alike fuel _ _ _ _ (.inr (.inl rfl)) h).bind fun _ => .refl .same _

theorem changeKey_alike (h : SameLength p q) :
    AlikeRun AlikeButSecret (Card.changeKey fuel p) (Card.changeKey fuel q) :=
  (withPin_alike fuel _ _ _ _ (.inr (.inr rfl)) h).bind fun _ => .refl .same _

theorem verifyKey_alike (id : UInt16) (h : SameLength p q) :
    AlikeRun AlikeButSecret (Ap.verifyKey fuel id p) (Ap.verifyKey fuel id q) :=
  (AlikeRun.refl .same (Card.selectEf fuel id)).bind fun _ => verify_alike fuel h

theorem changePin_alike (id : UInt16) (h : SameLength p q) {replace replace' : CardM Unit}
    (hreplace : AlikeRun AlikeButSecret replace replace') :
    AlikeRun AlikeButSecret (Ap.changePin fuel id p replace) (Ap.changePin fuel id q replace') :=
  (AlikeRun.refl .same (Card.selectEf fuel id)).bind fun _ =>
    (verify_alike fuel h).bind fun _ => hreplace

end

/-! ### Operations of the wrappers -/

inductive CommonOperation.SameButPins : CommonOperation → CommonOperation → Prop
  | same (op : CommonOperation) : SameButPins op op
  | verifyPin {p q : Pin} (h : SameLength p q) : SameButPins (.verifyPin p) (.verifyPin q)
  | changePin {p q p' q' : Pin} (h : SameLength p q) (h' : SameLength p' q') :
      SameButPins (.changePin p p') (.changePin q q')

inductive JukiOperation.SameButPins : JukiOperation → JukiOperation → Prop
  | same (op : JukiOperation) : SameButPins op op
  | verifyPin {p q : Pin} (h : SameLength p q) : SameButPins (.verifyPin p) (.verifyPin q)
  | changePin {p q p' q' : Pin} (h : SameLength p q) (h' : SameLength p' q') :
      SameButPins (.changePin p p') (.changePin q q')

inductive SurfaceOperation.SameButPins : SurfaceOperation → SurfaceOperation → Prop
  | same (op : SurfaceOperation) : SameButPins op op
  | verifyBirthDate {p q : Pin} (h : SameLength p q) :
      SameButPins (.verifyBirthDate p) (.verifyBirthDate q)
  | verifyCodeA {p q : Pin} (h : SameLength p q) : SameButPins (.verifyCodeA p) (.verifyCodeA q)
  | verifyCodeB {p q : Pin} (h : SameLength p q) : SameButPins (.verifyCodeB p) (.verifyCodeB q)

inductive TextOperation.SameButPins : TextOperation → TextOperation → Prop
  | same (op : TextOperation) : SameButPins op op
  | verifyPin {p q : Pin} (h : SameLength p q) : SameButPins (.verifyPin p) (.verifyPin q)
  | changePin {p q p' q' : Pin} (h : SameLength p q) (h' : SameLength p' q') :
      SameButPins (.changePin p p') (.changePin q q')
  | verifyCodeA {p q : Pin} (h : SameLength p q) : SameButPins (.verifyCodeA p) (.verifyCodeA q)
  | verifyCodeB {p q : Pin} (h : SameLength p q) : SameButPins (.verifyCodeB p) (.verifyCodeB q)

inductive JpkiOperation.SameButPins : JpkiOperation → JpkiOperation → Prop
  | same (op : JpkiOperation) : SameButPins op op
  | verifyAuthPin {p q : Pin} (h : SameLength p q) : SameButPins (.verifyAuthPin p) (.verifyAuthPin q)
  | verifySignPin {p q : Pin} (h : SameLength p q) : SameButPins (.verifySignPin p) (.verifySignPin q)
  | changeAuthPin {p q p' q' : Pin} (h : SameLength p q) (h' : SameLength p' q') :
      SameButPins (.changeAuthPin p p') (.changeAuthPin q q')
  | changeSignPin {p q p' q' : Pin} (h : SameLength p q) (h' : SameLength p' q') :
      SameButPins (.changeSignPin p p') (.changeSignPin q q')

/-- The same operation, with PINs of the same lengths. -/
inductive WrapperOperation.SameButPins : WrapperOperation → WrapperOperation → Prop
  | common {op op' : CommonOperation} (h : op.SameButPins op') : SameButPins (.common op) (.common op')
  | juki {op op' : JukiOperation} (h : op.SameButPins op') : SameButPins (.juki op) (.juki op')
  | surface {op op' : SurfaceOperation} (h : op.SameButPins op') :
      SameButPins (.surface op) (.surface op')
  | text {op op' : TextOperation} (h : op.SameButPins op') : SameButPins (.text op) (.text op')
  | jpki {op op' : JpkiOperation} (h : op.SameButPins op') : SameButPins (.jpki op) (.jpki op')
  | masterFile (op : MasterFileOperation) : SameButPins (.masterFile op) (.masterFile op)

section

variable (rsa : RsaCrate) (x509 : X509Crate) (pf : Platform) (fuel : ℕ)

theorem yielding_alike {α β : Type} {x y : CardM α} (h : AlikeRun AlikeButSecret x y) (f : α → β) :
    AlikeRun AlikeButSecret (yielding f x) (yielding f y) :=
  h.bind fun _ => .refl .same _

theorem WrapperOperation.perform_alike {op op' : WrapperOperation} (h : op.SameButPins op') :
    AlikeRun AlikeButSecret (op.perform rsa x509 pf fuel) (op'.perform rsa x509 pf fuel) := by
  cases h with
  | masterFile op => exact .refl .same _
  | common h =>
    cases h with
    | same op => exact .refl .same _
    | verifyPin h => exact yielding_alike (verifyKey_alike fuel _ h) _
    | changePin h h' => exact yielding_alike (changePin_alike fuel _ h (changeKey_alike fuel h')) _
  | juki h =>
    cases h with
    | same op => exact .refl .same _
    | verifyPin h => exact yielding_alike (verifyKey_alike fuel _ h) _
    | changePin h h' => exact yielding_alike (changePin_alike fuel _ h (changeKey_alike fuel h')) _
  | surface h =>
    cases h with
    | same op => exact .refl .same _
    | verifyBirthDate h | verifyCodeA h | verifyCodeB h =>
      exact yielding_alike (verifyKey_alike fuel _ h) _
  | text h =>
    cases h with
    | same op => exact .refl .same _
    | verifyPin h | verifyCodeA h | verifyCodeB h => exact yielding_alike (verifyKey_alike fuel _ h) _
    | changePin h h' =>
      exact yielding_alike (changePin_alike fuel _ h (changeReferenceData_alike fuel h')) _
  | jpki h =>
    cases h with
    | same op => exact .refl .same _
    | verifyAuthPin h | verifySignPin h => exact yielding_alike (verifyKey_alike fuel _ h) _
    | changeAuthPin h h' | changeSignPin h h' =>
      exact yielding_alike (changePin_alike fuel _ h (changeReferenceData_alike fuel h')) _

/-- The two APDUs come from the same place in the run. -/
def Issued.AlikeButSecret (q q' : Issued) : Prop :=
  q.index = q'.index ∧ MynaCard.AlikeButSecret q.apdu q'.apdu

theorem performFrom_alikeRun (n : ℕ) {ops ops' : List WrapperOperation}
    (h : List.Forall₂ WrapperOperation.SameButPins ops ops') :
    Alike Issued.AlikeButSecret (fun r s => r = s) (performFrom rsa x509 pf fuel n ops)
      (performFrom rsa x509 pf fuel n ops') := by
  induction h generalizing n with
  | nil => exact .done rfl
  | cons hop _ ih =>
    have hone := WrapperOperation.perform_alike rsa x509 pf fuel hop
    refine Alike.bind (hone.relabel fun q q' hq => ⟨rfl, hq⟩) fun r s hrs => ?_
    subst hrs
    split
    · exact .done rfl
    · refine Alike.bind (ih (n + 1)) fun rest rest' hrest => ?_
      subst hrest
      exact .done rfl

/-- **A run gives away no more of a PIN than its length**, but for the data fields of the commands
that carry it: with other PINs of the same lengths and the same answers, the run goes the same way,
sends the same APDUs otherwise, and every operation returns the same. -/
theorem performFrom_alike {ops ops' : List WrapperOperation}
    (h : List.Forall₂ WrapperOperation.SameButPins ops ops') {tr : Trace Issued Answer}
    {out : List (Run (Value x509))} (hpath : Path (performFrom rsa x509 pf fuel 0 ops) tr out) :
    ∃ tr', Path (performFrom rsa x509 pf fuel 0 ops') tr' out ∧
      List.Forall₂ (fun e e' => e.1.index = e'.1.index ∧ AlikeButSecret e.1.apdu e'.1.apdu ∧
        e.2 = e'.2) tr tr' := by
  obtain ⟨tr', out', hpath', htraces, rfl⟩ := (performFrom_alikeRun rsa x509 pf fuel 0 h).path hpath
  refine ⟨tr', hpath', ?_⟩
  refine htraces.imp ?_
  intro e e' he
  exact ⟨he.1.1, he.1.2, he.2⟩

end

/-- The PIN `0000`. -/
def pin0000 : Pin := ⟨[0x30, 0x30, 0x30, 0x30], by decide, by decide, by decide +kernel⟩

/-- Asked to verify and change `0000`, the wrappers send for `beforeChangeKey` what they send when
asked to verify and change `4321`. -/
theorem performFrom_alike_changeKey :
    ∃ tr', Path (performFrom .pkcs1 .blank .checked 0 0
        [.common (.verifyPin pin0000), .juki (.changePin pin0000 pin0000)]) tr'
        [.error (.err (.pinIncorrect (some 2))), .ok (.unit ())] ∧
      List.Forall₂ (fun e e' => e.1.index = e'.1.index ∧ AlikeButSecret e.1.apdu e'.1.apdu ∧
        e.2 = e'.2)
        (beforeChangeKey ++ [(⟨1, .juki (.changePin pin4321 pin4321), changeKeyApdu⟩,
          .ok [0x90, 0x00])]) tr' := by
  have hsame : SameLength pin4321 pin0000 := rfl
  have hops : List.Forall₂ WrapperOperation.SameButPins verifyThenChange
      [.common (.verifyPin pin0000), .juki (.changePin pin0000 pin0000)] :=
    .cons (.common (.verifyPin hsame)) (.cons (.juki (.changePin hsame hsame)) .nil)
  exact performFrom_alike _ _ .checked 0 hops (path_of_replay [.ok [0x90, 0x00], .ok [0x63, 0xC2],
    .ok [0x6C, 0x02], .ok [0x90, 0x00], .ok [0x90, 0x00], .ok [0x90, 0x00]] (by rfl))

end MynaCard
