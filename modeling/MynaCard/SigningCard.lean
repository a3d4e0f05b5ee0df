import MynaCard.FilesCard
import MynaCard.Signers

/-!
# A card that signs

A party that keeps keys and files, with its COMPUTE SIGNATURE commands answered by another, still does
(`GuardsFiles.withSigner`). With the signatures of private keys that its keys open, the card of
`FilesCard` becomes one of the parties `GuardsSigners` speaks of.
-/

namespace MynaCard

open Dialogue

/-- A party with its COMPUTE SIGNATURE commands answered by another, which changes nothing. -/
def withSigner {τ : Type} (answer : Bytes → τ → Answer × τ) (signer : Command → τ → Response)
    (apdu : Bytes) (s : τ) : Answer × τ :=
  match isoDecode apdu with
  | some (_, c) =>
    if c.ins = Ins.computeSignature then (.ok (signer c s).toBytes, s) else answer apdu s
  | none => answer apdu s

section

variable {τ : Type} {answer : Bytes → τ → Answer × τ} {signer : Command → τ → Response}

theorem withSigner_of_ne {apdu : Bytes} {form : IsoCase} {c : Command}
    (hdecode : isoDecode apdu = some (form, c)) (hins : c.ins ≠ Ins.computeSignature) (s : τ) :
    withSigner answer signer apdu s = answer apdu s := by
  rw [withSigner, hdecode]
  exact if_neg hins

theorem withSigner_encoding {c : Command} (hv : c.Valid) (hins : c.ins ≠ Ins.computeSignature)
    (s : τ) : withSigner answer signer c.encoding s = answer c.encoding s :=
  withSigner_of_ne (Command.isoDecode_encoding hv) hins s

theorem Answers.withSigner {c : Command} {s : τ} {post : Response → τ → Prop}
    (h : Answers answer s c post) (hv : c.Valid) (hins : c.ins ≠ Ins.computeSignature) :
    Answers (withSigner answer signer) s c post := by
  obtain ⟨r, s', hanswer, hrest⟩ := h
  exact ⟨r, s', (withSigner_encoding hv hins s).trans hanswer, hrest⟩

/-- A command that is answered by the signer leaves the party in its state. -/
theorem withSigner_state (apdu : Bytes) (s : τ) :
    withSigner answer signer apdu s = answer apdu s ∨ (withSigner answer signer apdu s).2 = s := by
  unfold withSigner
  split
  · split
    · exact .inr rfl
    · exact .inl rfl
  · exact .inl rfl

theorem ReadsBy.withSigner {allowed : ℕ → ℕ → Response → Prop} {I : τ → Prop}
    (h : ReadsBy allowed answer I) : ReadsBy allowed (withSigner answer signer) I := by
  intro apdu s form c le hs hdecode hcla hins hrest
  have hother : c.ins ≠ Ins.computeSignature := by
    rw [hins]
    decide
  rw [withSigner_of_ne hdecode hother]
  exact h apdu s form c le hs hdecode hcla hins hrest

variable {held : Holdings} {view : τ → KeyCard} {unlocked : τ → Set UInt16}

theorem KeepsKeys.withSigner (h : KeepsKeys answer view) :
    KeepsKeys (withSigner answer signer) view where
  selectDf s name hne hle :=
    (h.selectDf s name hne hle).withSigner (withData_valid hle) (by show Ins.selectFile ≠ _; decide)
  selectEf s id :=
    (h.selectEf s id).withSigner (withData_valid (by simp)) (by show Ins.selectFile ≠ _; decide)
  present s p2 id key value hnamed hkey hne hle :=
    (h.present s p2 id key value hnamed hkey hne hle).withSigner (withData_valid hle)
      (by show Ins.verify ≠ _; decide)
  presentNothing s p2 id value hnamed hkey hne hle :=
    (h.presentNothing s p2 id value hnamed hkey hne hle).withSigner (withData_valid hle)
      (by show Ins.verify ≠ _; decide)
  query s p2 id key hnamed hkey :=
    (h.query s p2 id key hnamed hkey).withSigner ⟨Nat.zero_le _, by simp [Command.new]⟩
      (by show Ins.verify ≠ _; decide)
  replace s c id key new hcurrent hverified hkey hne hle hc := by
    refine (h.replace s c id key new hcurrent hverified hkey hne hle hc).withSigner ?_ ?_
    · obtain rfl | rfl := hc
      · exact withData_valid hle
      · exact withData_valid hle
    · obtain rfl | rfl := hc
      · show Ins.changeReferenceData ≠ _
        decide
      · show Ins.changeKey ≠ _
        decide
  other s apdu hapdu := by
    obtain hsame | hstate := withSigner_state apdu s
    · rw [hsame]
      exact h.other s apdu hapdu
    · rw [hstate]

theorem GuardsFiles.withSigner (h : GuardsFiles held answer view unlocked) :
    GuardsFiles held (withSigner answer signer) view unlocked where
  toKeepsKeys := h.toKeepsKeys.withSigner
  enters s name hne hle := by
    rw [withSigner_encoding (withData_valid hle) (by show Ins.selectFile ≠ _; decide)]
    exact h.enters s name hne hle
  presents s p2 id value hnamed hne hle := by
    have hv : (Card.verifyCommand p2 value).Valid := withData_valid hle
    rw [withSigner_encoding hv (by show Ins.verify ≠ _; decide)]
    exact h.presents s p2 id value hnamed hne hle
  others s apdu hapdu := by
    obtain hsame | hstate := withSigner_state apdu s
    · rw [hsame]
      exact h.others s apdu hapdu
    · rw [hstate]
  holds s id r s' hfile hanswer := by
    rw [withSigner_encoding (withData_valid (by simp)) (by show Ins.selectFile ≠ _; decide)]
      at hanswer
    exact h.holds s id r s' hfile hanswer
  reads df id file hfile := (h.reads df id file hfile).withSigner
  refusesToRead df id file hfile := (h.refusesToRead df id file hfile).withSigner

end

/-! ### Keys, files and private keys -/

def SignatureScheme.all : List SignatureScheme :=
  [.verbatim, .sha256Bare, .preHashedDigestInfo, .sha256DigestInfo, .preHashedPss, .sha256Pss]

theorem SignatureScheme.find?_p1 (scheme : SignatureScheme) :
    SignatureScheme.all.find? (·.p1 = scheme.p1) = some scheme := by
  cases scheme <;> rfl

namespace FilesCard

/-- What a card of `FilesCard` answers to COMPUTE SIGNATURE. -/
def sign (held : Holdings) (signers : Bytes → UInt8 → Option PrivateKey) (c : Command)
    (card : FilesCard) : Response :=
  match signers card.keys.vault.df c.p2, SignatureScheme.all.find? (·.p1 = c.p1) with
  | some key, some scheme =>
    if held.Open card.keys.vault.df key.ef {k | k ∈ card.unlocked} then
      ⟨key.sign scheme c.data, .success⟩
    else ⟨[], ⟨0x6982⟩⟩
  | _, _ => ⟨[], ⟨0x6A86⟩⟩

/-- The card with its private keys, as the other end of a transport. -/
def transmitSigning (apps : List Bytes) (held : Holdings)
    (signers : Bytes → UInt8 → Option PrivateKey) : Bytes → FilesCard → Answer × FilesCard :=
  withSigner (FilesCard.transmit apps held) (FilesCard.sign held signers)

theorem transmitSigning_signCommand {apps : List Bytes} {held : Holdings}
    {signers : Bytes → UInt8 → Option PrivateKey} {scheme : SignatureScheme} (p2 : UInt8)
    {key : PrivateKey} {data : Bytes} {card : FilesCard}
    (hkey : signers card.keys.vault.df p2 = some key) (hinput : scheme.checkInput data = .ok ()) :
    transmitSigning apps held signers (signCommand scheme.p1 p2 data).encoding card =
      (.ok (Response.toBytes (if held.Open card.keys.vault.df key.ef {k | k ∈ card.unlocked} then
        ⟨key.sign scheme data, .success⟩ else ⟨[], ⟨0x6982⟩⟩)), card) := by
  rw [transmitSigning, withSigner, Command.isoDecode_encoding (signCommand_valid p2 hinput)]
  have hins : (signCommand scheme.p1 p2 data).ins = Ins.computeSignature := rfl
  dsimp only
  rw [if_pos hins, sign, show (signCommand scheme.p1 p2 data).p2 = p2 from rfl, hkey,
    show (signCommand scheme.p1 p2 data).p1 = scheme.p1 from rfl, scheme.find?_p1]
  rfl

theorem transmitSigning_guardsSigners {apps : List Bytes} {held : Holdings}
    {signers : Bytes → UInt8 → Option PrivateKey} (fuel : ℕ) :
    GuardsSigners held signers (FilesCard.transmitSigning apps held signers) FilesCard.keys
      (fun card => {k | k ∈ card.unlocked}) fuel where
  toGuardsFiles := FilesCard.transmit_guardsFiles.withSigner
  signs card scheme p2 key data hkey hopen hinput := by
    refine ⟨card, .asked (Nat.zero_le _) (.success ?_)⟩
    rw [transmitSigning_signCommand p2 hkey hinput, if_pos hopen]
  refusesToSign card scheme p2 key data hkey hclosed hinput := by
    refine ⟨⟨[], ⟨0x6982⟩⟩, card, .asked (Nat.zero_le _) (.last ?_ rfl rfl), rfl⟩
    rw [transmitSigning_signCommand p2 hkey hinput, if_neg hclosed]

end FilesCard

end MynaCard
