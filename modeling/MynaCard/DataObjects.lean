import MynaCard.Deliveries
import MynaCard.Mf
import MynaCard.WrittenCertificates

/-!
# The data objects of the master file

GET DATA answers at the level of the master file for objects no file holds, the chain of
card-verifiable certificates and the answer to reset of the contacts among them. **The chain comes off
the card as it was issued, and verifies** (`certificateChain_vouches`), however the card hands out its
objects, whichever of the two the card has, and from whatever application the program comes. Of the
answer to reset a caller only gets what its checksum bears out (`contactAtr_checked`).
-/

namespace MynaCard

open Dialogue

section

variable {τ : Type} (answer : Bytes → τ → Answer × τ)

/-- The SELECT FILE of the Issuer Security Domain. -/
def selectDefaultCommand : Command :=
  .withData Cla.user Ins.selectFile 0x04 0x0C Ap.defaultDf

/-- The party has these objects, in the states of `I` and no others, and is brought there from any
state. -/
structure ServesObjects (I : τ → Prop) (fuel : ℕ) (objects : UInt16 → Option Bytes) : Prop where
  selects : ∀ s, ∃ r s', Delivers answer fuel selectDefaultCommand s r s' ∧ r.status = .success ∧ I s'
  gives : ∀ s tag data, I s → objects tag = some data →
    ∃ s', GivesObject answer fuel tag s data s' ∧ I s'
  lacks : ∀ s tag, I s → objects tag = none →
    ∃ r s', Delivers answer fuel (getDataCommand tag 256) s r s' ∧
      (r.status = ⟨0x6A88⟩ ∨ r.status = ⟨0x6A82⟩) ∧ I s'

end

/-- The objects that are there before the first that is not. -/
def present (objects : UInt16 → Option Bytes) : List UInt16 → List Bytes
  | [] => []
  | tag :: tags =>
    match objects tag with
    | none => []
    | some data => data :: present objects tags

section

variable {τ : Type} {answer : Bytes → τ → Answer × τ} {I : τ → Prop} {fuel : ℕ}
  {objects : UInt16 → Option Bytes} (h : ServesObjects answer I fuel objects)

include h

theorem ServesObjects.select_run (s : τ) :
    ∃ s', (MasterFile.select fuel).run.run answer s = (.ok (), s') ∧ I s' := by
  obtain ⟨r, s', hdelivers, hsuccess, hs'⟩ := h.selects s
  have hv : selectDefaultCommand.Valid := by decide
  have hname : ¬ (Ap.defaultDf.isEmpty = true ∨ Ap.defaultDf.length > 16) := by decide
  refine ⟨s', ?_, hs'⟩
  rw [MasterFile.select, Card.selectDf, if_neg hname]
  refine (run_bind_ok (a := r.data) ?_).trans rfl
  exact (hdelivers.callOk_run hv).trans
    (congrArg (·, s') (Response.intoData_eq_ok.mpr ⟨hsuccess, rfl⟩))

/-- The loop puts what it parses behind the certificates it has. -/
theorem ServesObjects.certificateChainFrom_run (oc : OverflowChecks) (tags : List UInt16)
    (chain : List CardVerifiableCertificate) {s : τ} (hs : I s) :
    ((MasterFile.certificateChainFrom oc fuel tags chain).run.run answer s).1 =
      (present objects tags).mapM (CardVerifiableCertificate.parse oc) >>= fun certificates =>
        .ok (chain ++ certificates) := by
  induction tags generalizing chain s with
  | nil =>
    show Except.ok chain = Except.ok (chain ++ [])
    rw [List.append_nil]
  | cons tag tags ih =>
    rw [MasterFile.certificateChainFrom, MasterFile.dataObject]
    cases hobject : objects tag with
    | none =>
      obtain ⟨r, s', hdelivers, hstatus, -⟩ := h.lacks s tag hs hobject
      have hrefused : (Card.getData fuel tag).run.run answer s =
          (.error (.err (.status r.status)), s') := by
        obtain hstatus | hstatus := hstatus
        all_goals
          have hnot : ¬ r.status.isSuccess = true := by rw [hstatus]; decide
          have hlong : r.status.value ≠ 0x6700 := by rw [hstatus]; decide
          rw [hdelivers.getData_refused hnot hlong, hstatus]
          rfl
      rw [run_bind_ok (run_attempt_err hrefused), present, hobject]
      dsimp only
      rw [if_pos (hstatus.imp (congrArg _) (congrArg _))]
      show Except.ok chain = Except.ok (chain ++ [])
      rw [List.append_nil]
    | some data =>
      obtain ⟨s', hgives, hs'⟩ := h.gives s tag data hs hobject
      rw [run_bind_ok (run_attempt_ok hgives.getData_run), present, hobject]
      dsimp only
      rw [List.mapM_cons]
      cases hparse : CardVerifiableCertificate.parse oc data with
      | error stop => rfl
      | ok certificate =>
        refine (ih (chain ++ [certificate]) hs').trans ?_
        show _ = (((present objects tags).mapM (CardVerifiableCertificate.parse oc) >>=
          fun certificates => .ok (certificate :: certificates)) >>= _)
        cases (present objects tags).mapM (CardVerifiableCertificate.parse oc) with
        | error stop => rfl
        | ok certificates =>
          show Except.ok (chain ++ [certificate] ++ certificates) =
            Except.ok (chain ++ certificate :: certificates)
          rw [List.append_assoc]
          rfl

/-- What is read is what the card has, the upper certificate and then the lower. -/
theorem ServesObjects.certificateChain_run (oc : OverflowChecks) (s : τ) :
    ((MasterFile.select fuel >>= fun _ => MasterFile.certificateChain oc fuel).run.run answer s).1 =
      (present objects [MasterFile.Tag.chainUpper, MasterFile.Tag.chainLower]).mapM
        (CardVerifiableCertificate.parse oc) := by
  obtain ⟨s', hselect, hs'⟩ := h.select_run s
  rw [run_bind_ok hselect, MasterFile.certificateChain, h.certificateChainFrom_run oc _ [] hs']
  exact bind_pure _

end

/-! ### The answer to reset of the contacts -/

/-- The exclusive-or of all bytes. -/
def checksum (bytes : Bytes) : UInt8 := bytes.foldl (fun acc b => acc ^^^ b) 0

theorem foldl_xor (bytes : Bytes) (acc : UInt8) :
    bytes.foldl (fun acc b => acc ^^^ b) acc = acc ^^^ checksum bytes := by
  induction bytes generalizing acc with
  | nil => exact (UInt8.xor_zero).symm
  | cons b bytes ih =>
    rw [checksum, List.foldl_cons, List.foldl_cons, ih, ih (0 ^^^ b), UInt8.zero_xor, UInt8.xor_assoc]

/-- A change of one byte changes the checksum. -/
theorem checksum_ne_of_one_changed {pre post : Bytes} {b b' : UInt8} (hne : b ≠ b') :
    checksum (pre ++ b :: post) ≠ checksum (pre ++ b' :: post) := by
  rw [checksum, checksum, List.foldl_append, List.foldl_append, List.foldl_cons, List.foldl_cons,
    foldl_xor post, foldl_xor post]
  intro heq
  exact hne (UInt8.xor_right_inj _ |>.mp (UInt8.xor_left_inj _ |>.mp heq))

section

variable {τ : Type} {answer : Bytes → τ → Answer × τ} {I : τ → Prop} {fuel : ℕ}
  {objects : UInt16 → Option Bytes} (h : ServesObjects answer I fuel objects)

include h

/-- It is given if its checksum is right. -/
theorem ServesObjects.contactAtr_eq_ok_iff {s : τ} (hs : I s) {stored : Bytes}
    (hobject : objects 0x5F51 = some stored) {atr : Bytes} :
    ((Card.contactAtr fuel).run.run answer s).1 = .ok atr ↔
      stored ≠ [] ∧ checksum stored = 0 ∧ atr = 0x3B :: stored := by
  obtain ⟨s', hgives, -⟩ := h.gives s 0x5F51 stored hs hobject
  rw [Card.contactAtr, run_bind_ok hgives.getData_run]
  rcases List.eq_nil_or_concat stored with rfl | ⟨body, tck, rfl⟩
  · exact iff_of_false (fun hok => by cases hok) fun hok => hok.1 rfl
  · have hsum : checksum (body ++ [tck]) = checksum body ^^^ tck := by
      rw [checksum, List.foldl_append]
      rfl
    rw [List.concat_eq_append, List.getLast?_concat]
    dsimp only
    rw [List.dropLast_concat, hsum, UInt8.xor_eq_zero_iff,
      show body.foldl (fun acc b => acc ^^^ b) 0 = checksum body from rfl]
    by_cases hcheck : checksum body = tck
    · rw [if_neg (not_not.mpr hcheck)]
      show Except.ok _ = Except.ok _ ↔ _
      rw [Except.ok.injEq]
      exact ⟨fun heq => ⟨by simp, hcheck, heq.symm⟩, fun hatr => hatr.2.2.symm⟩
    · rw [if_pos hcheck]
      exact iff_of_false (fun hok => by cases hok) fun hatr => hcheck hatr.2.1

/-- **What a card stores of the answer to reset is checked before it is given**: behind the byte that is
not stored, if the checksum is right, and never with one byte other than it was. -/
theorem contactAtr_checked {s : τ} (hs : I s) {stored : Bytes}
    (hobject : objects 0x5F51 = some stored) :
    (∀ atr, ((Card.contactAtr fuel).run.run answer s).1 = .ok atr ↔
      stored ≠ [] ∧ checksum stored = 0 ∧ atr = 0x3B :: stored) ∧
    ∀ pre b b' post, stored = pre ++ b' :: post → checksum (pre ++ b :: post) = 0 → b ≠ b' →
      ∀ atr, ((Card.contactAtr fuel).run.run answer s).1 ≠ .ok atr := by
  refine ⟨fun atr => h.contactAtr_eq_ok_iff hs hobject, ?_⟩
  intro pre b b' post hstored hright hne atr hok
  obtain ⟨-, hsum, -⟩ := (h.contactAtr_eq_ok_iff hs hobject).mp hok
  rw [hstored] at hsum
  exact checksum_ne_of_one_changed hne (hright.trans hsum.symm)

end

/-- **The chain comes off the card as it was issued, and verifies**, and its last certificate gives the
key of the last authority of the line. -/
theorem certificateChain_vouches {τ : Type} {answer : Bytes → τ → Answer × τ} {I : τ → Prop}
    {fuel : ℕ} {objects : UInt16 → Option Bytes} (h : ServesObjects answer I fuel objects)
    {rsa : RsaCrate} {ca : Authority} {line : List Authority} {last : Authority} {key : CaKey}
    (hknown : Ca.find ca.keyId = some key) (hkey : key.toPublicKey = ca.publicKey)
    (oc : OverflowChecks)
    (hforms : CardVerifiableCertificate.Forms rsa ca (line ++ [last])
      (present objects [MasterFile.Tag.chainUpper, MasterFile.Tag.chainLower])) (s : τ) :
    ((MasterFile.select fuel >>= fun _ => MasterFile.certificateChain oc fuel).run.run answer s).1 =
      .ok (CardVerifiableCertificate.chain rsa ca (line ++ [last])) ∧
    ∃ cert, CardVerifiableCertificate.verifyChain rsa
        (CardVerifiableCertificate.chain rsa ca (line ++ [last])) = .ok () ∧
      (CardVerifiableCertificate.chain rsa ca (line ++ [last])).getLast? = some cert ∧
      cert.subjectKeyId = last.keyId ∧ cert.publicKey = last.publicKey :=
  ⟨(h.certificateChain_run oc s).trans (hforms.parse_eq oc), hforms.vouch hknown hkey⟩

/-! ### A card with data objects -/

/-- The next 255 bytes of what is left to give, and how many more can be had. -/
def handOut (data : Bytes) : Answer × Bytes :=
  let rest := data.drop 255
  (.ok (Response.mk (data.take 255) (if rest = [] then .success
    else .ofBytes 0x61 (UInt8.ofNat (min 255 rest.length)))).toBytes, rest)

/-- A card with objects, which it hands out 255 bytes at a time. The state is what is left to give. -/
def objectCard (objects : UInt16 → Option Bytes) (apdu : Bytes) (left : Bytes) : Answer × Bytes :=
  match isoDecode apdu with
  | none => (.ok [0x67, 0x00], [])
  | some (_, c) =>
    if c.ins = Ins.getResponse then handOut left
    else if c.ins = Ins.getData then
      match objects (u16OfBytes c.p1 c.p2) with
      | none => (.ok [0x6A, 0x88], [])
      | some data => handOut data
    else (.ok [0x90, 0x00], [])

section

variable {objects : UInt16 → Option Bytes}

theorem objectCard_getData (tag : UInt16) (left : Bytes) :
    objectCard objects (getDataCommand tag 256).encoding left =
      match objects tag with
      | none => (.ok [0x6A, 0x88], [])
      | some data => handOut data := by
  have hother : ¬ Ins.getData = Ins.getResponse := by decide
  have hv : (getDataCommand tag 256).Valid := getDataCommand_valid tag (by decide) (by decide)
  rw [objectCard, Command.isoDecode_encoding hv]
  show (if Ins.getData = Ins.getResponse then _ else if Ins.getData = Ins.getData then
    match objects (u16OfBytes (tag >>> 8).toUInt8 tag.toUInt8) with
    | none => _
    | some data => _ else _) = _
  rw [if_neg hother, if_pos rfl, u16OfBytes_u16Bytes]

theorem handOut_pieces (data : Bytes) {apdu left : Bytes}
    (hanswer : objectCard objects apdu left = handOut data) :
    ∃ k ≤ data.length, Pieces (objectCard objects) k apdu left ⟨data, .success⟩ [] := by
  by_cases hrest : data.drop 255 = []
  · refine ⟨0, Nat.zero_le _, .success ?_⟩
    have hall : data.take 255 = data := List.take_of_length_le (List.drop_eq_nil_iff.mp hrest)
    rw [hanswer, handOut, if_pos hrest, hall, hrest]
  · have hlen : 255 < data.length := by
      by_contra hle
      exact hrest (List.drop_eq_nil_of_le (by omega))
    have hdrop : (data.drop 255).length = data.length - 255 := List.length_drop
    generalize hn : UInt8.ofNat (min 255 (data.drop 255).length) = n
    have hne : n ≠ 0 := by
      intro hzero
      have hnat : (UInt8.ofNat (min 255 (data.drop 255).length)).toNat = 0 := by
        rw [hn, hzero]
        rfl
      rw [UInt8.toNat_ofNat'] at hnat
      omega
    have hnext : objectCard objects (Card.getResponse n).encoding (data.drop 255) =
        handOut (data.drop 255) := by
      rw [objectCard, Command.isoDecode_encoding ((Card.getResponse_valid_iff n).mpr hne)]
      exact if_pos rfl
    obtain ⟨k, hk, hpieces⟩ := handOut_pieces (data.drop 255) hnext
    have hmore : Pieces (objectCard objects) (k + 1) apdu left
        ⟨data.take 255 ++ data.drop 255, .success⟩ [] :=
      .more (by rw [hanswer, handOut, if_neg hrest, hn]) hne hpieces
    rw [List.take_append_drop] at hmore
    exact ⟨k + 1, by omega, hmore⟩
termination_by data.length
decreasing_by omega

theorem objectCard_serves {fuel : ℕ}
    (hfuel : ∀ tag data, objects tag = some data → data.length ≤ fuel) :
    ServesObjects (objectCard objects) (fun _ => True) fuel objects where
  selects s := by
    refine ⟨⟨[], .success⟩, [], .asked (Nat.zero_le _) (.success ?_), rfl, trivial⟩
    rw [objectCard, Command.isoDecode_encoding (by decide : selectDefaultCommand.Valid)]
    rfl
  gives s tag data _ hobject := by
    have hanswer : objectCard objects (getDataCommand tag 256).encoding s = handOut data := by
      rw [objectCard_getData, hobject]
    obtain ⟨k, hk, hpieces⟩ := handOut_pieces data hanswer
    exact ⟨[], .short (.asked (hk.trans (hfuel tag data hobject)) hpieces), trivial⟩
  lacks s tag _ hobject := by
    refine ⟨⟨[], ⟨0x6A88⟩⟩, [], .asked (Nat.zero_le _) (.last ?_ rfl rfl), .inl rfl, trivial⟩
    rw [objectCard_getData, hobject]
    rfl

end

/-- An answer to reset without the byte that is not stored, and with its second byte changed. -/
def storedAtr (second : UInt8) (tag : UInt16) : Option Bytes :=
  if tag = 0x5F51 then some [0xE0, second, 0xFF, 0x81, 0x31, 0xFE, 0x45, 0x14] else none

theorem contactAtr_checked_stored :
    ((Card.contactAtr 8).run.run (objectCard (storedAtr 0x00)) []).1 =
        .ok [0x3B, 0xE0, 0x00, 0xFF, 0x81, 0x31, 0xFE, 0x45, 0x14] ∧
      ∀ atr, ((Card.contactAtr 8).run.run (objectCard (storedAtr 0x01)) []).1 ≠ .ok atr := by
  have hfuel : ∀ second tag data, storedAtr second tag = some data → data.length ≤ 8 := by
    intro second tag data hobject
    unfold storedAtr at hobject
    split at hobject
    · obtain rfl := Option.some.inj hobject
      exact le_refl 8
    · cases hobject
  refine ⟨?_, ?_⟩
  · exact ((contactAtr_checked (objectCard_serves (hfuel 0x00)) trivial rfl).1 _).mpr
      ⟨List.cons_ne_nil _ _, by decide, rfl⟩
  · exact (contactAtr_checked (objectCard_serves (hfuel 0x01)) trivial rfl).2 [0xE0] 0x00 0x01
      [0xFF, 0x81, 0x31, 0xFE, 0x45, 0x14] rfl (by decide) (by decide)

open CardVerifiableCertificate

/-- The two certificates of a card. -/
def twoCertificates (tag : UInt16) : Option Bytes :=
  if tag = MasterFile.Tag.chainUpper then
    some (bare .pkcs1 rootAuthority upperAuthority headerList [])
  else if tag = MasterFile.Tag.chainLower then
    some (bare .pkcs1 upperAuthority lowerAuthority headerList [])
  else none

/-- Both certificates come in three pieces. -/
theorem certificateChain_vouches_two :
    ((MasterFile.select 1000 >>= fun _ => MasterFile.certificateChain .on 1000).run.run
        (objectCard twoCertificates) []).1 =
      .ok (chain .pkcs1 rootAuthority ([upperAuthority] ++ [lowerAuthority])) ∧
    ∃ cert, verifyChain .pkcs1
        (chain .pkcs1 rootAuthority ([upperAuthority] ++ [lowerAuthority])) = .ok () ∧
      (chain .pkcs1 rootAuthority ([upperAuthority] ++ [lowerAuthority])).getLast? = some cert ∧
      cert.subjectKeyId = lowerAuthority.keyId ∧ cert.publicKey = lowerAuthority.publicKey := by
  have hfuel : ∀ tag data, twoCertificates tag = some data → data.length ≤ 1000 := by
    intro tag data hobject
    unfold twoCertificates at hobject
    split at hobject
    · obtain rfl := Option.some.inj hobject
      decide +kernel
    split at hobject
    · obtain rfl := Option.some.inj hobject
      decide +kernel
    · cases hobject
  have hknown : Ca.find rootAuthority.keyId = some ⟨_, Ca.modulus6000020, Ca.e65537⟩ := rfl
  have hupper : Form .pkcs1 rootAuthority upperAuthority
      (bare .pkcs1 rootAuthority upperAuthority headerList []) :=
    .bare _ [] headerList_beside (by decide +kernel) Ber.startsFiller_nil (by decide +kernel)
  exact certificateChain_vouches (objectCard_serves hfuel) hknown rfl .on
    (.cons upper_certifies upper_signed hupper
      (.cons lower_certifies lower_signed lower_form (.nil _))) []

end MynaCard
