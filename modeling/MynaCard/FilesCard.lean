import MynaCard.FileResults
import MynaCard.FileRights

/-!
# A card with keys and files

A card of `KeyCard` with files in its EFs that its keys open: one of the parties `GuardsFiles` speaks
of.
-/

namespace MynaCard

open Dialogue

/-- Keys, and those that are unlocked. -/
structure FilesCard where
  keys : KeyCard
  unlocked : List UInt16

instance (held : Holdings) (df : Bytes) (id : UInt16) (unlocked : List UInt16) :
    Decidable (held.Open df id {k | k ∈ unlocked}) :=
  inferInstanceAs (Decidable (_ ∨ ∃ k ∈ _, k ∈ unlocked))

namespace FilesCard

variable (apps : List Bytes) (held : Holdings)

/-- What a READ BINARY of the current EF is answered. -/
def read (card : FilesCard) (offset n : ℕ) : Response :=
  match card.keys.current with
  | none => ⟨[], ⟨0x6986⟩⟩
  | some id =>
    match held.files card.keys.vault.df id with
    | none => ⟨[], ⟨0x6986⟩⟩
    | some file =>
      if held.Open card.keys.vault.df id {k | k ∈ card.unlocked} then fullRead file offset n
      else ⟨[], ⟨0x6982⟩⟩

/-- The keys that are unlocked after a command that was answered `r` and left the card at `keys`. -/
def unlockedAfter (c : Command) (card : FilesCard) (r : Response) (keys : KeyCard) : List UInt16 :=
  if c.ins = Ins.selectFile ∧ c.p1 = 0x04 then
    if keys.vault.df = card.keys.vault.df then card.unlocked else []
  else if c.ins = Ins.verify ∧ c.data ≠ [] ∧ r.status = .success then
    keys.current.toList ++ card.unlocked
  else card.unlocked

/-- What the card answers to a command, and the card afterwards. -/
def respond (c : Command) (card : FilesCard) : Response × FilesCard :=
  if c.ins = Ins.readBinary then
    (card.read held (u16OfBytes c.p1 c.p2).toNat (c.le.elim 0 UInt32.toNat), card)
  else
    let p := KeyCard.respond apps c card.keys
    (p.1, ⟨p.2, unlockedAfter c card p.1 p.2⟩)

/-- The card as the other end of a transport. -/
def transmit (apdu : Bytes) (card : FilesCard) : Answer × FilesCard :=
  match isoDecode apdu with
  | some (_, c) => (.ok (respond apps held c card).1.toBytes, (respond apps held c card).2)
  | none => (.ok (Response.toBytes ⟨[], ⟨0x6700⟩⟩), card)

variable (card : FilesCard)

theorem transmit_encoding {c : Command} (hv : c.Valid) :
    transmit apps held c.encoding card =
      (.ok (respond apps held c card).1.toBytes, (respond apps held c card).2) := by
  rw [transmit, Command.isoDecode_encoding hv]

theorem respond_of_ne {c : Command} (hins : c.ins ≠ Ins.readBinary) :
    respond apps held c card = ((KeyCard.respond apps c card.keys).1,
      ⟨(KeyCard.respond apps c card.keys).2, unlockedAfter c card (KeyCard.respond apps c card.keys).1
        (KeyCard.respond apps c card.keys).2⟩) := if_neg hins

variable {apps held card}

/-- The card answers a command other than READ BINARY as its keys do. -/
theorem answers_keys {c : Command} {post : Response → KeyCard → Prop}
    (h : Answers (KeyCard.transmit apps) card.keys c post) (hv : c.Valid)
    (hins : c.ins ≠ Ins.readBinary) :
    Answers (transmit apps held) card c fun r card' => post r card'.keys := by
  obtain ⟨r, keys, hanswer, hle, hmore, hpost⟩ := h
  rw [KeyCard.transmit, Command.isoDecode_encoding hv] at hanswer
  obtain ⟨hr, rfl⟩ := Prod.mk.inj hanswer
  have hrespond := respond_of_ne apps held card hins
  refine ⟨r, (respond apps held c card).2, ?_, hle, hmore, ?_⟩
  · rw [transmit_encoding apps held card hv, hrespond]
    exact Prod.ext hr rfl
  · rw [hrespond]
    exact hpost

theorem transmit_keepsKeys : KeepsKeys (transmit apps held) FilesCard.keys where
  selectDf card name hne hle :=
    answers_keys ((KeyCard.transmit_keepsKeys apps).selectDf card.keys name hne hle)
      (withData_valid hle) (by show Ins.selectFile ≠ _; decide)
  selectEf card id :=
    answers_keys ((KeyCard.transmit_keepsKeys apps).selectEf card.keys id)
      (withData_valid (by simp)) (by show Ins.selectFile ≠ _; decide)
  present card p2 id key value hnamed hkey hne hle :=
    answers_keys ((KeyCard.transmit_keepsKeys apps).present card.keys p2 id key value hnamed hkey hne
      hle) (withData_valid hle) (by show Ins.verify ≠ _; decide)
  presentNothing card p2 id value hnamed hkey hne hle :=
    answers_keys ((KeyCard.transmit_keepsKeys apps).presentNothing card.keys p2 id value hnamed hkey
      hne hle) (withData_valid hle) (by show Ins.verify ≠ _; decide)
  query card p2 id key hnamed hkey :=
    answers_keys ((KeyCard.transmit_keepsKeys apps).query card.keys p2 id key hnamed hkey)
      ⟨Nat.zero_le _, by simp [Command.new]⟩ (by show Ins.verify ≠ _; decide)
  replace card c id key new hcurrent hverified hkey hne hle hc := by
    refine answers_keys ((KeyCard.transmit_keepsKeys apps).replace card.keys c id key new hcurrent
      hverified hkey hne hle hc) ?_ ?_
    · obtain rfl | rfl := hc
      · exact withData_valid hle
      · exact withData_valid hle
    · obtain rfl | rfl := hc
      · show Ins.changeReferenceData ≠ _
        decide
      · show Ins.changeKey ≠ _
        decide
  other card apdu hapdu := by
    have hkeys := (KeyCard.transmit_keepsKeys apps).other card.keys apdu hapdu
    obtain ⟨c, hc, -⟩ := hapdu
    unfold decoded at hc
    obtain ⟨p, hp, rfl⟩ := Option.map_eq_some_iff.mp hc
    rw [KeyCard.transmit, hp] at hkeys
    rw [transmit, hp]
    dsimp only
    by_cases hins : p.2.ins = Ins.readBinary
    · rw [respond, if_pos hins]
    · rw [respond_of_ne apps held card hins]
      exact hkeys

/-- What is unlocked after a command that neither selects an application nor presents a key. -/
theorem unlockedAfter_of_other {c : Command} (hc : c.LeavesVault ∨ c.IsChange) (r : Response)
    (keys : KeyCard) : unlockedAfter c card r keys = card.unlocked := by
  have hselect : ¬ (c.ins = Ins.selectFile ∧ c.p1 = 0x04) := by
    intro henters
    obtain hleaves | hchange | hchange := hc
    · exact hleaves.2 henters
    · rw [henters.1] at hchange
      revert hchange
      decide
    · rw [henters.1] at hchange
      revert hchange
      decide
  have hverify : ¬ (c.ins = Ins.verify ∧ c.data ≠ [] ∧ r.status = .success) := by
    intro hpresents
    obtain hleaves | hchange | hchange := hc
    · exact hleaves.1 (.inl ⟨hpresents.1, hpresents.2.1⟩)
    · rw [hpresents.1] at hchange
      revert hchange
      decide
    · rw [hpresents.1] at hchange
      revert hchange
      decide
  rw [unlockedAfter, if_neg hselect, if_neg hverify]

/-- A READ BINARY of an EF with a file. -/
theorem transmit_read {c : Command} {form : IsoCase} {apdu : Bytes} {le : UInt32} {df : Bytes}
    {id : UInt16} {file : Bytes} (hdecode : isoDecode apdu = some (form, c))
    (hins : c.ins = Ins.readBinary) (hle : c.le = some le) (hon : card.keys.On df id)
    (hfile : held.files df id = some file) :
    transmit apps held apdu card =
      (.ok (Response.toBytes (if held.Open df id {k | k ∈ card.unlocked} then
        fullRead file (u16OfBytes c.p1 c.p2).toNat le.toNat else ⟨[], ⟨0x6982⟩⟩)), card) := by
  obtain ⟨rfl, hcurrent⟩ := hon
  rw [transmit, hdecode]
  dsimp only
  rw [respond, if_pos hins, read, hcurrent, hle]
  dsimp only
  rw [hfile]
  rfl

/-- The card's keys open its files. -/
theorem transmit_guardsFiles :
    GuardsFiles held (transmit apps held) FilesCard.keys fun card => {k | k ∈ card.unlocked} where
  toKeepsKeys := transmit_keepsKeys
  enters card name hne hle := by
    have hv : (Command.withData Cla.user Ins.selectFile 0x04 0x0C name).Valid := withData_valid hle
    rw [transmit_encoding apps held card hv, respond_of_ne apps held card (by
      show Ins.selectFile ≠ _; decide)]
    dsimp only
    rw [unlockedAfter, if_pos ⟨rfl, rfl⟩]
    split
    · rfl
    · exact Set.eq_empty_of_forall_notMem fun k hk => List.not_mem_nil hk
  presents card p2 id value hnamed hne hle := by
    have hv : (Card.verifyCommand p2 value).Valid := withData_valid hle
    have hselect : ¬ ((Card.verifyCommand p2 value).ins = Ins.selectFile ∧
        (Card.verifyCommand p2 value).p1 = 0x04) :=
      fun henters => absurd henters.1 (by show Ins.verify ≠ Ins.selectFile; decide)
    rw [transmit_encoding apps held card hv, respond_of_ne apps held card (by
      show Ins.verify ≠ _; decide)]
    dsimp only
    rw [unlockedAfter, if_neg hselect]
    unfold Vault.Presented
    cases hkey : card.keys.vault.key id with
    | none =>
      rw [KeyCard.respond_noKey apps card.keys value hnamed hkey, if_neg]
      exact fun hpresents =>
        absurd hpresents.2.2 (by show (⟨0x6A88⟩ : StatusWord) ≠ .success; decide)
    | some key =>
      rw [KeyCard.respond_verify apps card.keys hne hnamed hkey]
      have hstatus := key.present_status_iff value
      by_cases haccepted : (key.present value).1 = .accepted
      · rw [if_pos ⟨rfl, hne, hstatus.mpr haccepted⟩]
        refine ⟨fun k hk => ?_, fun _ => List.mem_cons_self, fun hrefused => absurd haccepted hrefused⟩
        exact List.mem_cons.trans (or_iff_right hk)
      · rw [if_neg fun hpresents => haccepted (hstatus.mp hpresents.2.2)]
        exact ⟨fun k _ => Iff.rfl, fun h => absurd h haccepted, fun _ hk => hk⟩
  others card apdu hapdu := by
    obtain ⟨c, hc, hother⟩ := hapdu
    unfold decoded at hc
    obtain ⟨p, hp, rfl⟩ := Option.map_eq_some_iff.mp hc
    rw [transmit, hp]
    dsimp only
    by_cases hins : p.2.ins = Ins.readBinary
    · rw [respond, if_pos hins]
    · rw [respond_of_ne apps held card hins, unlockedAfter_of_other hother]
  holds card id r card' hfile hanswer := by
    have hv : (Command.withData Cla.user Ins.selectFile 0x02 0x0C (u16Bytes id)).Valid :=
      withData_valid (by simp)
    rw [transmit_encoding apps held card hv, respond_of_ne apps held card (by
      show Ins.selectFile ≠ _; decide)] at hanswer
    have hbytes : r.toBytes = Response.toBytes ⟨[], .success⟩ :=
      (Except.ok.inj (Prod.mk.inj hanswer).1).symm
    have hparse := r.parse_toBytes
    rw [hbytes, Response.parse_toBytes] at hparse
    rw [← Except.ok.inj hparse]
  reads df id file hfile := by
    intro apdu card form c le hon hdecode hcla hins hdata hle hpos hoff
    have hread : transmit apps held apdu card = _ := transmit_read hdecode hins hle hon.1 hfile
    rw [if_pos hon.2] at hread
    exact ⟨_, card, hread, hon, fullRead_inFull file _ _⟩
  refusesToRead df id file hfile := by
    intro apdu card form c le hon hdecode hcla hins hdata hle hpos hoff
    have hread : transmit apps held apdu card = _ := transmit_read hdecode hins hle hon.1 hfile
    rw [if_neg hon.2] at hread
    exact ⟨_, card, hread, hon, rfl⟩

end FilesCard

end MynaCard
