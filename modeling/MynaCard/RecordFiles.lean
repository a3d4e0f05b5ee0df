import MynaCard.FileReads
import MynaCard.Mf

/-!
# Reading a file of records

`read_all_records` asks for all records in one command, and for one after the other if the card has
not got that form. One at a time the records come back whole. The one command has an `Le` of 256, and
what it leaves out is not asked for again (`readAllRecords_eq_iff`).
-/

namespace MynaCard

open Dialogue

/-! ### Files of records -/

/-- A record structured file: at most 255 records, each of 2 to 256 bytes. -/
structure RecordFile where
  records : List Bytes
  count_le : records.length ≤ 255
  size : ∀ r ∈ records, 2 ≤ r.length ∧ r.length ≤ 256

namespace RecordFile

variable (file : RecordFile)

/-- Record `n`, counted from 1, or `6A83` past the last. -/
def record (n : ℕ) : Response :=
  match file.records[n - 1]? with
  | some r => ⟨r, .success⟩
  | none => ⟨[], ⟨0x6A83⟩⟩

/-- All records as far as there is room for them, or `6A81` if the card has not got that form. -/
def allRecords (multi : Bool) (le : ℕ) : Response :=
  if multi then ⟨file.records.flatten.take le, .success⟩ else ⟨[], ⟨0x6A81⟩⟩

theorem record_of_lt {k : ℕ} (h : k < file.records.length) :
    file.record (k + 1) = ⟨file.records[k], .success⟩ := by
  rw [record, Nat.add_sub_cancel, List.getElem?_eq_getElem h]

theorem record_of_le {k : ℕ} (h : file.records.length ≤ k) :
    file.record (k + 1) = ⟨[], ⟨0x6A83⟩⟩ := by
  rw [record, Nat.add_sub_cancel, List.getElem?_eq_none h]

theorem record_data_length (n : ℕ) : (file.record n).data.length ≤ 256 := by
  unfold record
  split
  · rename_i r hr
    exact (file.size r (List.mem_of_getElem? hr)).2
  · exact Nat.zero_le _

theorem record_status (n : ℕ) :
    (file.record n).status = .success ∨ (file.record n).status = ⟨0x6A83⟩ := by
  unfold record
  split
  · exact .inl rfl
  · exact .inr rfl

theorem allRecords_status (multi : Bool) (le : ℕ) :
    (file.allRecords multi le).status = .success ∨
      (file.allRecords multi le).status = ⟨0x6A81⟩ := by
  cases multi with
  | true => exact .inl rfl
  | false => exact .inr rfl

/-- Nothing follows up on the answer for one record. -/
theorem record_final (n : ℕ) :
    (file.record n).status.correctLe = none ∧ (file.record n).status.moreDataAvailable = none := by
  obtain hstatus | hstatus := file.record_status n
  all_goals
    rw [hstatus]
    exact ⟨rfl, rfl⟩

theorem allRecords_final (multi : Bool) (le : ℕ) :
    (file.allRecords multi le).status.correctLe = none ∧
      (file.allRecords multi le).status.moreDataAvailable = none := by
  obtain hstatus | hstatus := file.allRecords_status multi le
  all_goals
    rw [hstatus]
    exact ⟨rfl, rfl⟩

end RecordFile

/-! ### Cards with such a file -/

variable {τ : Type}

/-- A SELECT FILE of `id` leads into the states of `I`, and in these the party answers READ RECORD
for one record, with an `Le` that has room for it, and for all from the first on as the file does,
and stays in them. -/
structure ServesRecords (answer : Bytes → τ → Answer × τ) (I : τ → Prop) (id : UInt16)
    (file : RecordFile) (multi : Bool) : Prop where
  select : ∀ apdu σ form (c : Command), isoDecode apdu = some (form, c) → c.cla = Cla.user →
    c.ins = Ins.selectFile → c.p1 = 0x02 → c.p2 = 0x0C → c.data = u16Bytes id →
      ∃ σ', answer apdu σ = (.ok [0x90, 0x00], σ') ∧ I σ'
  one : ∀ apdu σ form (c : Command) le, I σ → isoDecode apdu = some (form, c) → c.cla = Cla.user →
    c.ins = Ins.readRecord → 0 < c.p1.toNat → c.p2 = 0x04 → c.data = [] → c.le = some le →
    (file.record c.p1.toNat).data.length ≤ le.toNat →
      ∃ σ', answer apdu σ = (.ok (file.record c.p1.toNat).toBytes, σ') ∧ I σ'
  all : ∀ apdu σ form (c : Command) le, I σ → isoDecode apdu = some (form, c) → c.cla = Cla.user →
    c.ins = Ins.readRecord → c.p1 = 1 → c.p2 = 0x05 → c.data = [] → c.le = some le →
      ∃ σ', answer apdu σ = (.ok (file.allRecords multi le.toNat).toBytes, σ') ∧ I σ'

variable {answer : Bytes → τ → Answer × τ} {I : τ → Prop} {id : UInt16} {file : RecordFile}
  {multi : Bool} {σ : τ} (fuel : ℕ)

theorem readRecord_valid (p1 p2 : UInt8) :
    (Command.withLe Cla.user Ins.readRecord p1 p2 256).Valid := by
  refine ⟨Nat.zero_le _, ?_⟩
  intro le hle
  obtain rfl := Option.some.inj hle
  decide

/-! ### One record at a time -/

theorem ServesRecords.readRecord (h : ServesRecords answer I id file multi) (hσ : I σ) {n : ℕ}
    (hpos : 0 < n) (hn : n ≤ 255) :
    ∃ σ', I σ' ∧ (Card.readRecord fuel (UInt8.ofNat n)).run.run answer σ =
      ((file.record n).intoData, σ') := by
  have hv := readRecord_valid (UInt8.ofNat n) 0x04
  have hnumber : (UInt8.ofNat n).toNat = n := by
    rw [UInt8.toNat_ofNat']
    omega
  have hne : UInt8.ofNat n ≠ 0 := by
    intro hzero
    rw [hzero] at hnumber
    exact absurd hnumber (Nat.ne_of_lt hpos)
  obtain ⟨σ', hanswer, hσ'⟩ := h.one _ σ _ _ 256 hσ (Command.isoDecode_encoding hv) rfl rfl
    (show 0 < (UInt8.ofNat n).toNat by omega) rfl rfl rfl (file.record_data_length _)
  refine ⟨σ', hσ', ?_⟩
  rw [Card.readRecord, if_neg hne]
  have hcall := Card.callOk_run_final fuel hv hanswer (file.record_final _).1
    (file.record_final _).2
  rw [show (Command.withLe Cla.user Ins.readRecord (UInt8.ofNat n) 0x04 256).p1.toNat = n
    from hnumber] at hcall
  exact hcall

/-- Once `k` records are read, the loop reads the others. -/
theorem ServesRecords.readRecordsUntil (h : ServesRecords answer I id file multi) (hσ : I σ)
    (k m : ℕ) (hk : k ≤ file.records.length) (hkm : k + m = 255) :
    ∃ σ', I σ' ∧ (MasterFile.readRecordsUntil fuel ((List.range' (k + 1) m).map UInt8.ofNat)
      (file.records.take k).flatten).run.run answer σ = (.ok file.records.flatten, σ') := by
  induction m generalizing k σ with
  | zero =>
    have hall : file.records.take k = file.records := by
      apply List.take_of_length_le
      have := file.count_le
      omega
    rw [hall]
    exact ⟨σ, hσ, rfl⟩
  | succ m ih =>
    obtain ⟨σ', hσ', hread⟩ := h.readRecord fuel hσ (Nat.succ_pos k) (by omega)
    rw [List.range'_succ, List.map_cons, MasterFile.readRecordsUntil]
    by_cases hlt : k < file.records.length
    · have hne : file.records[k] ≠ [] := by
        apply List.ne_nil_of_length_pos
        have := (file.size _ (List.getElem_mem hlt)).1
        omega
      have hdata : (file.record (k + 1)).intoData = .ok file.records[k] := by
        rw [file.record_of_lt hlt]
        rfl
      rw [hdata] at hread
      obtain ⟨σ'', hσ'', hrest⟩ := ih hσ' (k + 1) hlt (by omega)
      refine ⟨σ'', hσ'', ?_⟩
      rw [run_bind_ok (run_attempt_ok hread)]
      dsimp only
      rw [if_neg hne]
      rw [List.take_succ_eq_append_getElem hlt, List.flatten_append, List.flatten_singleton] at hrest
      exact hrest
    · have hend : (file.record (k + 1)).intoData = .error (.err (.status ⟨0x6A83⟩)) := by
        rw [file.record_of_le (Nat.le_of_not_lt hlt)]
        rfl
      rw [hend] at hread
      refine ⟨σ', hσ', ?_⟩
      rw [run_bind_ok (run_attempt_err hread)]
      rw [List.take_of_length_le (Nat.le_of_not_lt hlt)]
      rfl

/-! ### All records -/

/-- What the two ways come to: one response in the multi-record form, or all the records. -/
def RecordFile.readBack (file : RecordFile) (multi : Bool) : Bytes :=
  if multi then file.records.flatten.take 256 else file.records.flatten

theorem ServesRecords.readSelectedRecords (h : ServesRecords answer I id file multi) (hσ : I σ) :
    ∃ σ', I σ' ∧ (MasterFile.readSelectedRecords fuel).run.run answer σ =
      (.ok (file.readBack multi), σ') := by
  have hv := readRecord_valid 1 0x05
  obtain ⟨σ', hanswer, hσ'⟩ := h.all _ σ _ _ 256 hσ (Command.isoDecode_encoding hv) rfl rfl rfl rfl
    rfl rfl
  have hcall : (Card.readRecordsFrom fuel 1).run.run answer σ =
      ((file.allRecords multi 256).intoData, σ') :=
    Card.callOk_run_final fuel hv hanswer (file.allRecords_final _ _).1
      (file.allRecords_final _ _).2
  rw [MasterFile.readSelectedRecords]
  cases multi with
  | true =>
    have hdata : (file.allRecords true 256).intoData = .ok (file.readBack true) := rfl
    rw [hdata] at hcall
    refine ⟨σ', hσ', ?_⟩
    rw [run_bind_ok (run_attempt_ok hcall)]
    rfl
  | false =>
    have hnot : (file.allRecords false 256).intoData = .error (.err (.status ⟨0x6A81⟩)) := by
      rw [RecordFile.allRecords, if_neg (by decide)]
      rfl
    rw [hnot] at hcall
    obtain ⟨σ'', hσ'', hloop⟩ := h.readRecordsUntil fuel hσ' 0 255 (Nat.zero_le _) rfl
    refine ⟨σ'', hσ'', ?_⟩
    rw [run_bind_ok (run_attempt_err hcall)]
    dsimp only
    rw [if_pos rfl]
    exact hloop

theorem ServesRecords.readAllRecords (h : ServesRecords answer I id file multi) (σ : τ) :
    ∃ σ', I σ' ∧ (MasterFile.readAllRecords fuel id).run.run answer σ =
      (.ok (file.readBack multi), σ') := by
  have hv : (Command.withData Cla.user Ins.selectFile 0x02 0x0C (u16Bytes id)).Valid :=
    ⟨by simp [Command.withData], by simp [Command.withData]⟩
  obtain ⟨σ₁, hanswer, hσ₁⟩ := h.select _ σ _ _ (Command.isoDecode_encoding hv) rfl rfl rfl rfl rfl
  have hselect : (Card.selectEf fuel id).run.run answer σ = (.ok (), σ₁) := by
    have hcall := Card.callOk_run_final fuel hv (r := ⟨[], .success⟩) hanswer rfl rfl
    rw [Card.selectEf, run_bind_ok hcall]
    rfl
  obtain ⟨σ', hσ', hread⟩ := h.readSelectedRecords fuel hσ₁
  refine ⟨σ', hσ', ?_⟩
  rw [MasterFile.readAllRecords, Ap.onEf, run_bind_ok hselect]
  exact hread

/-- **The two ways of reading a file of records agree on files of at most 256 bytes.** On a card
without the multi-record form `read_all_records` returns all the records, and on one with it if and
only if they fit the one response that is asked for. -/
theorem readAllRecords_eq_iff (h : ServesRecords answer I id file multi) (σ : τ) :
    ((MasterFile.readAllRecords fuel id).run.run answer σ).1 = .ok file.records.flatten ↔
      (multi = true → file.records.flatten.length ≤ 256) := by
  obtain ⟨σ', -, hrun⟩ := h.readAllRecords fuel σ
  rw [hrun]
  show Except.ok (file.readBack multi) = _ ↔ _
  rw [Except.ok.injEq]
  cases multi with
  | true =>
    show file.records.flatten.take 256 = _ ↔ _
    rw [List.take_eq_self_iff]
    exact (imp_iff_right rfl).symm
  | false => exact iff_of_true rfl fun hmulti => nomatch hmulti

/-! ### A card with such a file -/

/-- A card with the one file. The state is whether the file is selected. -/
def recordCard (id : UInt16) (file : RecordFile) (multi : Bool) (apdu : Bytes) (selected : Bool) :
    Answer × Bool :=
  match isoDecode apdu with
  | none => (.ok [0x67, 0x00], selected)
  | some (_, c) =>
    if c.ins = Ins.selectFile then
      if c.data = u16Bytes id then (.ok [0x90, 0x00], true) else (.ok [0x6A, 0x82], selected)
    else if c.ins = Ins.readRecord ∧ selected then
      if c.p2 = 0x04 then (.ok (file.record c.p1.toNat).toBytes, selected)
      else if c.p1 = 1 ∧ c.p2 = 0x05 then
        (.ok (file.allRecords multi (c.le.map UInt32.toNat |>.getD 0)).toBytes, selected)
      else (.ok [0x6A, 0x86], selected)
    else (.ok [0x6D, 0x00], selected)

theorem recordCard_serves (id : UInt16) (file : RecordFile) (multi : Bool) :
    ServesRecords (recordCard id file multi) (· = true) id file multi where
  select := by
    intro apdu σ form c hdecode _ hins _ _ hdata
    refine ⟨true, ?_, rfl⟩
    rw [recordCard, hdecode]
    dsimp only
    rw [if_pos hins, if_pos hdata]
  one := by
    intro apdu σ form c le hσ hdecode _ hins _ hp2 _ _ _
    refine ⟨σ, ?_, hσ⟩
    have hother : ¬ c.ins = Ins.selectFile := by
      rw [hins]
      decide
    rw [recordCard, hdecode]
    dsimp only
    rw [if_neg hother, if_pos ⟨hins, hσ⟩, if_pos hp2]
  all := by
    intro apdu σ form c le hσ hdecode _ hins hp1 hp2 _ hle
    refine ⟨σ, ?_, hσ⟩
    have hother : ¬ c.ins = Ins.selectFile := by
      rw [hins]
      decide
    have hp2' : ¬ c.p2 = 0x04 := by
      rw [hp2]
      decide
    rw [recordCard, hdecode]
    dsimp only
    rw [if_neg hother, if_pos ⟨hins, hσ⟩, if_neg hp2', if_pos ⟨hp1, hp2⟩, hle]
    rfl

/-- Two records of 200 bytes each. -/
def twoRecords : RecordFile where
  records := [List.replicate 200 0x41, List.replicate 200 0x42]
  count_le := by decide
  size := by
    intro r hr
    obtain rfl | rfl := List.mem_pair.mp hr
    all_goals
      rw [List.length_replicate]
      decide

theorem twoRecords_length : twoRecords.records.flatten.length = 400 := by
  rw [List.length_flatten]
  show [(List.replicate 200 (0x41 : UInt8)).length, (List.replicate 200 (0x42 : UInt8)).length].sum = _
  rw [List.length_replicate, List.length_replicate]
  rfl

/-- Three records of different lengths. -/
def threeRecords : RecordFile where
  records := [[0x00, 0x03, 0x07, 0x0A, 0x02], [0x01, 0x00], List.replicate 198 0x43]
  count_le := by decide
  size := by decide +kernel

/-- A card without the multi-record form gives the two long records, and one with it the three that
fit a response. -/
theorem readAllRecords_eq_iff_records :
    (((MasterFile.readAllRecords 1 0x2F10).run.run (recordCard 0x2F10 twoRecords false) false).1 =
        .ok twoRecords.records.flatten ↔
      (false = true → twoRecords.records.flatten.length ≤ 256)) ∧
    (((MasterFile.readAllRecords 1 0x2F10).run.run (recordCard 0x2F10 threeRecords true) false).1 =
        .ok threeRecords.records.flatten ↔
      (true = true → threeRecords.records.flatten.length ≤ 256)) ∧
    threeRecords.records.flatten.length = 205 :=
  ⟨readAllRecords_eq_iff 1 (recordCard_serves 0x2F10 twoRecords false) false,
    readAllRecords_eq_iff 1 (recordCard_serves 0x2F10 threeRecords true) false, by decide +kernel⟩

/-- A card with the multi-record form gives 256 of the 400 bytes, and the rest is not asked for. -/
theorem readAllRecords_twoRecords :
    ServesRecords (recordCard 0x2F10 twoRecords true) (· = true) 0x2F10 twoRecords true ∧
      ((MasterFile.readAllRecords 1 0x2F10).run.run (recordCard 0x2F10 twoRecords true) false).1 ≠
        .ok twoRecords.records.flatten := by
  have hserves := recordCard_serves 0x2F10 twoRecords true
  refine ⟨hserves, ?_⟩
  obtain ⟨σ', -, hrun⟩ := hserves.readAllRecords 1 false
  rw [hrun]
  intro heq
  have hlength : (twoRecords.readBack true).length = twoRecords.records.flatten.length :=
    congrArg List.length (Except.ok.inj heq)
  rw [RecordFile.readBack, if_pos rfl, List.length_take, twoRecords_length] at hlength
  exact absurd hlength (by decide)

end MynaCard
