import MynaCard.FileReads

/-!
# Responses in pieces

A card of any states that has a response for a command, and hands it out in pieces: `61xx` says that
there is more, and each GET RESPONSE gets the next piece. Before that it may have asked, once, for the
command with another `Le`. **A call comes back with the whole response** (`Delivers.call_run`), and a
GET DATA with the whole object (`GivesObject.getData_run`), also on a card that refuses a short `Le`
for it.
-/

namespace MynaCard

open Dialogue

section

variable {τ : Type} (answer : Bytes → τ → Answer × τ)

/-- An APDU is answered by a response in pieces, with so many GET RESPONSE commands. -/
inductive Pieces : ℕ → Bytes → τ → Response → τ → Prop
  | last {apdu : Bytes} {s s' : τ} {r : Response} (hanswer : answer apdu s = (.ok r.toBytes, s'))
      (hle : r.status.correctLe = none) (hmore : r.status.moreDataAvailable = none) :
      Pieces 0 apdu s r s'
  | more {k : ℕ} {apdu part : Bytes} {n : UInt8} {s s₁ s' : τ} {r : Response}
      (hanswer : answer apdu s = (.ok (Response.mk part (.ofBytes 0x61 n)).toBytes, s₁))
      (hn : n ≠ 0) (hrest : Pieces k (Card.getResponse n).encoding s₁ r s') :
      Pieces (k + 1) apdu s ⟨part ++ r.data, r.status⟩ s'

/-- A command is answered by a response, in at most so many pieces behind the first, and after one
correction of its `Le` at most. -/
inductive Delivers (fuel : ℕ) (c : Command) (s : τ) (r : Response) (s' : τ) : Prop
  | asked {k : ℕ} (hk : k ≤ fuel) (hpieces : Pieces answer k c.encoding s r s')
  | corrected {k : ℕ} {le : UInt8} {data : Bytes} {s₁ : τ} (hk : k ≤ fuel)
      (hanswer : answer c.encoding s = (.ok (Response.mk data (.ofBytes 0x6C le)).toBytes, s₁))
      (hpieces : Pieces answer k (Card.retry c le).encoding s₁ r s')

/-- GET DATA of an object, with this `Le`. -/
def getDataCommand (tag : UInt16) (le : UInt32) : Command :=
  .withLe Cla.user Ins.getData (tag >>> 8).toUInt8 tag.toUInt8 le

/-- An object is given, if not with a short `Le` then with an extended one. -/
inductive GivesObject (fuel : ℕ) (tag : UInt16) (s : τ) (data : Bytes) (s' : τ) : Prop
  | short (h : Delivers answer fuel (getDataCommand tag 256) s ⟨data, .success⟩ s')
  | extended {refused : Bytes} {s₁ : τ}
      (hrefused : Delivers answer fuel (getDataCommand tag 256) s ⟨refused, ⟨0x6700⟩⟩ s₁)
      (h : Delivers answer fuel (getDataCommand tag 65536) s₁ ⟨data, .success⟩ s')

end

section

variable {τ : Type} {answer : Bytes → τ → Answer × τ} {fuel : ℕ} {s s' : τ}

/-- A response of success is handed out at once. -/
theorem Pieces.success {apdu data : Bytes}
    (hanswer : answer apdu s = (.ok (Response.mk data .success).toBytes, s')) :
    Pieces answer 0 apdu s ⟨data, .success⟩ s' := by
  have hfinal : StatusWord.success.correctLe = none ∧ StatusWord.success.moreDataAvailable = none := by
    decide
  exact .last hanswer hfinal.1 hfinal.2

/-- The loop collects the pieces, behind the data it has. -/
theorem Pieces.collect_run {k : ℕ} {apdu : Bytes} {r : Response} (h : Pieces answer k apdu s r s')
    (hk : k ≤ fuel) (d : Bytes) :
    (ask apdu fun a => orElseDone (fun next => (Card.collect fuel ⟨d ++ next.data, next.status⟩).run)
      (Card.answered a)).run answer s = (.ok ⟨d ++ r.data, r.status⟩, s') := by
  induction h generalizing fuel d with
  | @last _ _ _ r hanswer hle hmore =>
    rw [run_ask, hanswer]
    simp only [Card.answered_toBytes, orElseDone_ok]
    rw [Card.collect_done fuel (r := ⟨d ++ r.data, r.status⟩) hmore]
    rfl
  | @more k _ part n _ _ _ r hanswer hn hrest ih =>
    obtain ⟨fuel, rfl⟩ : ∃ m, fuel = m + 1 := ⟨fuel - 1, by omega⟩
    have hmore : (StatusWord.ofBytes 0x61 n).moreDataAvailable = some n := by
      simp [StatusWord.moreDataAvailable]
    rw [run_ask, hanswer]
    simp only [Card.answered_toBytes, orElseDone_ok]
    rw [Card.collect_run fuel (r := ⟨d ++ part, .ofBytes 0x61 n⟩) hmore hn]
    have hcollected := ih (by omega : k ≤ fuel) (d ++ part)
    rw [List.append_assoc] at hcollected
    exact hcollected

/-- The first piece asks for no other `Le`. -/
theorem Pieces.first {k : ℕ} {apdu : Bytes} {r : Response} (h : Pieces answer k apdu s r s') :
    ∃ first s₁, answer apdu s = (.ok (Response.toBytes first), s₁) ∧
      first.status.correctLe = none := by
  cases h with
  | last hanswer hle hmore => exact ⟨_, _, hanswer, hle⟩
  | more hanswer hn hrest => exact ⟨_, _, hanswer, by simp [StatusWord.correctLe]⟩

/-- The loop of a call collects the pieces. -/
theorem Pieces.answered_run {k : ℕ} {apdu : Bytes} {r : Response} (h : Pieces answer k apdu s r s')
    (hk : k ≤ fuel) :
    (ask apdu fun a => orElseDone (fun next => (Card.collect fuel next).run)
      (Card.answered a)).run answer s = (.ok r, s') := h.collect_run hk []

/-- **A call comes back with the whole response.** -/
theorem Delivers.call_run {c : Command} {r : Response} (h : Delivers answer fuel c s r s')
    (hv : c.Valid) : (Card.call fuel c).run.run answer s = (.ok r, s') := by
  rw [Card.call_run fuel hv]
  cases h with
  | asked hk hpieces =>
    obtain ⟨first, s₁, hanswer, hle⟩ := hpieces.first
    rw [← hpieces.answered_run hk, run_ask, run_ask, hanswer]
    simp only [Card.answered_toBytes, orElseDone_ok, Card.afterFirst, hle]
  | @corrected k le data s₁ hk hanswer hpieces =>
    have hle : (StatusWord.ofBytes 0x6C le).correctLe = some le := by
      simp [StatusWord.correctLe]
    rw [run_ask, hanswer]
    simp only [Card.answered_toBytes, orElseDone_ok, Card.afterFirst, hle]
    exact hpieces.answered_run hk

theorem Delivers.callOk_run {c : Command} {r : Response} (h : Delivers answer fuel c s r s')
    (hv : c.Valid) : (Card.callOk fuel c).run.run answer s = (r.intoData, s') := by
  rw [Card.callOk, run_bind_ok (h.call_run hv)]
  rfl

/-! ### Data objects -/

theorem getDataCommand_valid (tag : UInt16) {le : UInt32} (hpos : 1 ≤ le.toNat)
    (hle : le.toNat ≤ 65536) : (getDataCommand tag le).Valid := by
  refine ⟨Nat.zero_le _, ?_⟩
  intro le' hle'
  obtain rfl := Option.some.inj hle'
  exact ⟨hpos, hle⟩

/-- What a GET DATA does with the response to the short form. -/
theorem getData_run_of_delivers {tag : UInt16} {r : Response}
    (h : Delivers answer fuel (getDataCommand tag 256) s r s') :
    (Card.getData fuel tag).run.run answer s =
      (if r.status.isSuccess then (pure r.data : CardM Bytes)
        else if r.status.value = 0x6700 then Card.callOk fuel (getDataCommand tag 65536)
        else throw (.err (.fromStatus r.status))).run.run answer s' :=
  run_bind_ok (h.call_run (getDataCommand_valid tag (by decide) (by decide)))

/-- **A GET DATA comes back with the whole object**, with a short `Le` or with an extended one. -/
theorem GivesObject.getData_run {tag : UInt16} {data : Bytes}
    (h : GivesObject answer fuel tag s data s') :
    (Card.getData fuel tag).run.run answer s = (.ok data, s') := by
  cases h with
  | short h =>
    have hsuccess : StatusWord.success.isSuccess = true := by decide
    rw [getData_run_of_delivers h, if_pos hsuccess]
    rfl
  | extended hrefused h =>
    have hnot : ¬ (⟨0x6700⟩ : StatusWord).isSuccess = true := by decide
    rw [getData_run_of_delivers hrefused, if_neg hnot, if_pos rfl]
    exact h.callOk_run (getDataCommand_valid tag (by decide) (by decide))

/-- A status that refuses the object is the error of the GET DATA. -/
theorem Delivers.getData_refused {tag : UInt16} {r : Response}
    (h : Delivers answer fuel (getDataCommand tag 256) s r s') (hnot : ¬ r.status.isSuccess = true)
    (hlong : r.status.value ≠ 0x6700) :
    (Card.getData fuel tag).run.run answer s = (.error (.err (.fromStatus r.status)), s') := by
  rw [getData_run_of_delivers h, if_neg hnot, if_neg hlong]
  rfl

end

end MynaCard
