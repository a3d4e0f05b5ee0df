import MynaCard.Ap.Common
import MynaCard.Encodings
import MynaCard.OverflowReads
import MynaCard.RecordFiles
import MynaCard.SimpleRecords

/-!
# What the record files say

The typed reads of the record structured files, off a card whose file is a list of records in simple
TLV. Which values the records state is said of the records, by their tags and their order. **A typed
read gives what the records state** (`recordReading_exact`), of those records it gets to see: all of
them on a card that gives them one at a time, and on a card that gives them all in one response those
the response has room for. If the response ends inside a record, the value is what the whole records
before it state if nothing else was looked for, and an error otherwise.
-/

namespace MynaCard

open Dialogue

namespace Simple

/-! ### Records cut short -/

/-- The records that are whole in the first `n` bytes. -/
def whole : ℕ → List Record → List Record
  | _, [] => []
  | n, r :: records => if r.raw.length ≤ n then r :: whole (n - r.raw.length) records else []

/-- The first `n` bytes end inside a record. -/
def CutAt (n : ℕ) (records : List Record) : Prop :=
  (concat (whole n records)).length < min n (concat records).length

theorem whole_of_le {n : ℕ} {records : List Record} (h : (concat records).length ≤ n) :
    whole n records = records := by
  induction records generalizing n with
  | nil => rfl
  | cons r records ih =>
    rw [concat_cons, List.length_append] at h
    rw [whole, if_pos (by omega), ih (by omega)]

theorem not_cutAt_of_le {n : ℕ} {records : List Record} (h : (concat records).length ≤ n) :
    ¬ CutAt n records := by
  rw [CutAt, whole_of_le h]
  omega

/-- A record without its end is none. -/
theorem Record.malformed_take (r : Record) {n : ℕ} (hpos : 0 < n) (hn : n < r.raw.length) :
    Malformed (r.raw.take n) := by
  constructor
  · intro herased
    apply r.tag_ne
    apply herased
    rw [List.head?_take, if_neg (by omega)]
    rfl
  · intro r' post heq
    -- a record at the front of the part is one at the front of the whole
    have hwhole : r.raw ++ [] = r'.raw ++ (post ++ r.raw.drop n) := by
      rw [List.append_nil, ← List.append_assoc, ← heq, List.take_append_drop]
    have hobj := r'.objectAt_raw_append (post ++ r.raw.drop n)
    rw [← hwhole, r.objectAt_raw_append] at hobj
    have hlen : r.raw.length = r'.raw.length := congrArg Prod.fst (Except.ok.inj hobj)
    have hpart := congrArg List.length heq
    rw [List.length_take, List.length_append] at hpart
    omega

/-- The first `n` bytes are whole records, and the beginning of another if they end inside one. -/
theorem take_concat (n : ℕ) (records : List Record) :
    ∃ part, (concat records).take n = concat (whole n records) ++ part ∧
      (CutAt n records → Malformed part) ∧ (¬ CutAt n records → part = []) := by
  induction records generalizing n with
  | nil =>
    refine ⟨[], by simp [concat, whole], ?_, fun _ => rfl⟩
    intro hcut
    exact absurd hcut (by simp [CutAt, concat, whole])
  | cons r records ih =>
    by_cases hle : r.raw.length ≤ n
    · obtain ⟨part, htake, hcut, hnot⟩ := ih (n - r.raw.length)
      have hwhole : whole n (r :: records) = r :: whole (n - r.raw.length) records := if_pos hle
      have hiff : CutAt n (r :: records) ↔ CutAt (n - r.raw.length) records := by
        rw [CutAt, CutAt, hwhole, concat_cons, concat_cons, List.length_append, List.length_append]
        omega
      refine ⟨part, ?_, hcut ∘ hiff.mp, fun h => hnot (mt hiff.mpr h)⟩
      rw [hwhole, concat_cons, concat_cons, List.take_append, List.take_of_length_le hle, htake,
        List.append_assoc]
    · have hwhole : whole n (r :: records) = [] := if_neg hle
      have hiff : CutAt n (r :: records) ↔ 0 < n := by
        rw [CutAt, hwhole, concat_cons, List.length_append]
        show 0 < _ ↔ _
        omega
      refine ⟨r.raw.take n, ?_, ?_, ?_⟩
      · rw [hwhole, concat_cons, List.take_append_of_le_length (by omega)]
        rfl
      · exact fun hcut => r.malformed_take (hiff.mp hcut) (by omega)
      · intro hnot
        rw [show n = 0 from by have := mt hiff.mpr hnot; omega, List.take_zero]

/-! ### The first record with a tag -/

/-- The value of the first record with the tag. -/
def first (tag : UInt8) (records : List Record) : Option Bytes :=
  (records.find? fun r => r.tag = tag).map Record.value

/-- What the first record with the tag holds, if there is one. Where the end is missing there has to
be. -/
def Finds (cut : Prop) (tag : UInt8) (records : List Record) (o : Option Bytes) : Prop :=
  first tag records = o ∧ (cut → o ≠ none)

theorem find_append (tag : UInt8) (records : List Record) (post : Bytes) :
    find (concat records ++ post) tag =
      match first tag records with
      | some value => .ok (some value)
      | none => find post tag := by
  rw [find, iter_concat_append, findIn_append, first]
  cases records.find? fun r => r.tag = tag with
  | none => rfl
  | some r => rfl

theorem find_eq_ok_iff {cut : Prop} {tag : UInt8} {records : List Record} {part : Bytes}
    (hcut : cut → Malformed part) (hnot : ¬ cut → part = []) {o : Option Bytes} :
    find (concat records ++ part) tag = .ok o ↔ Finds cut tag records o := by
  rw [find_append, Finds]
  cases hfirst : first tag records with
  | some value =>
    rw [Except.ok.injEq]
    refine (and_iff_left_of_imp ?_).symm
    rintro rfl -
    exact Option.some_ne_none value
  | none =>
    by_cases h : cut
    · obtain ⟨e, hiter⟩ := iter_malformed (hcut h)
      rw [find, hiter]
      refine iff_of_false (fun hok => by cases hok) ?_
      rintro ⟨rfl, hsome⟩
      exact hsome h rfl
    · rw [hnot h, find, iter_startsErased (x := []) (by intro b hb; cases hb)]
      show (Except.ok none : Run (Option Bytes)) = _ ↔ _
      rw [Except.ok.injEq]
      exact (and_iff_left fun hyes => absurd hyes h).symm

/-! ### No panic -/

theorem returned_of_next {rest rest' : Bytes} {item : Run Tlv} (h : next rest = (some item, rest')) :
    Returned item := by
  by_cases herased : StartsErased rest
  · rw [next_startsErased herased] at h
    cases h
  · rw [next_of_not_startsErased herased] at h
    cases hobj : objectAt rest with
    | ok found =>
      rw [hobj] at h
      obtain rfl := Option.some.inj (congrArg Prod.fst h)
      exact returned_ok _
    | error stop =>
      obtain ⟨e, rfl⟩ := returned_objectAt rest stop hobj
      rw [hobj] at h
      obtain rfl := Option.some.inj (congrArg Prod.fst h)
      exact returned_err e

theorem returned_iter (rest : Bytes) : ∀ item ∈ iter rest, Returned item := by
  induction rest using iter.induct with
  | case1 rest rest' hnext =>
    rw [iter, hnext]
    intro item hitem
    cases hitem
  | case2 rest item rest' hnext ih =>
    rw [iter, hnext]
    intro item' hitem
    rcases List.mem_cons.mp hitem with rfl | hitem
    · exact returned_of_next hnext
    · exact ih item' hitem

theorem returned_find (data : Bytes) (tag : UInt8) : Returned (find data tag) := by
  have hitems := returned_iter data
  rw [find]
  generalize iter data = items at hitems
  induction items with
  | nil => exact returned_ok none
  | cons item items ih =>
    rw [List.forall_mem_cons] at hitems
    refine hitems.1.bind fun tlv => ?_
    split
    · exact returned_ok _
    · exact ih hitems.2

theorem returned_parse (data : Bytes) : Returned (parse data) :=
  (returned_objectAt data).bind fun _ => returned_ok _

end Simple

/-! ### What the records of a file state -/

open Simple

/-- A record that has to be there. -/
theorem required_eq_ok_iff {α β : Type} {x : Run (Option α)} {what : String} {f : α → Run β} {b : β} :
    (x >>= fun o => orMalformed what o >>= f) = .ok b ↔ ∃ a, x = .ok (some a) ∧ f a = .ok b := by
  rw [Run.bind_eq_ok]
  constructor
  · rintro ⟨o, hx, hrest⟩
    obtain ⟨a, ho, hf⟩ := Run.bind_eq_ok.mp hrest
    rw [orMalformed_eq_ok] at ho
    exact ⟨a, ho ▸ hx, hf⟩
  · rintro ⟨a, hx, hf⟩
    exact ⟨some a, hx, hf⟩

/-- What has to hold of it. -/
theorem unless_malformed_eq_ok_iff {α : Type} {p : Prop} [Decidable p] {what : String} {x : Run α}
    {a : α} : (if p then malformed what else x) = .ok a ↔ ¬ p ∧ x = .ok a := by
  by_cases h : p
  · rw [if_pos h]
    exact iff_of_false (fun hok => by cases hok) fun hok => hok.1 h
  · rw [if_neg h]
    exact (and_iff_right h).symm

/-- The card identifier. -/
def CardIdentifier.States (cut : Prop) (records : List Record) (i : CardIdentifier) : Prop :=
  Finds cut 0x00 records (some [i.manufacturer, i.algorithms.bits, i.version.value]) ∧
    (∃ functions, Finds cut 0x01 records functions ∧
      i.optionalFunctions = (functions.bind List.head?).map .mk) ∧
    Finds cut 0x02 records i.proprietary

theorem CardIdentifier.parse_eq_ok_iff {bytes : Bytes} {i : CardIdentifier} :
    CardIdentifier.parse bytes = .ok i ↔
      find bytes 0x00 = .ok (some [i.manufacturer, i.algorithms.bits, i.version.value]) ∧
        (∃ functions, find bytes 0x01 = .ok functions ∧
          i.optionalFunctions = (functions.bind List.head?).map .mk) ∧
        find bytes 0x02 = .ok i.proprietary := by
  unfold CardIdentifier.parse
  rw [required_eq_ok_iff]
  constructor
  · rintro ⟨record, hmanufacturer, hrest⟩
    split at hrest
    · obtain ⟨functions, hfunctions, hrest⟩ := Run.bind_eq_ok.mp hrest
      obtain ⟨proprietary, hproprietary, hrest⟩ := Run.bind_eq_ok.mp hrest
      obtain rfl := Except.ok.inj hrest
      exact ⟨hmanufacturer, ⟨functions, hfunctions, rfl⟩, hproprietary⟩
    · cases hrest
  · rintro ⟨hmanufacturer, ⟨functions, hfunctions, hoptional⟩, hproprietary⟩
    refine ⟨_, hmanufacturer, Run.bind_eq_ok.mpr ⟨functions, hfunctions, ?_⟩⟩
    refine Run.bind_eq_ok.mpr ⟨i.proprietary, hproprietary, ?_⟩
    rw [← hoptional]
    rfl

/-- The IC manufacturer. -/
def IcManufacturerId.States (cut : Prop) (records : List Record) (i : IcManufacturerId) : Prop :=
  Finds cut 0x45 records (some i.embedder.val) ∧
    Finds cut 0x46 records (some (i.icManufacturer :: u16Bytes i.icType))

theorem IcManufacturerId.parse_eq_ok_iff {bytes : Bytes} {i : IcManufacturerId} :
    IcManufacturerId.parse bytes = .ok i ↔
      find bytes 0x45 = .ok (some i.embedder.val) ∧
        find bytes 0x46 = .ok (some (i.icManufacturer :: u16Bytes i.icType)) := by
  unfold IcManufacturerId.parse
  rw [required_eq_ok_iff]
  constructor
  · rintro ⟨embedder, hembedder, hrest⟩
    split at hrest
    · obtain ⟨manufacturer, hmanufacturer, hrest⟩ := required_eq_ok_iff.mp hrest
      split at hrest
      · obtain rfl := Except.ok.inj hrest
        refine ⟨hembedder, ?_⟩
        rw [u16Bytes_u16OfBytes]
        exact hmanufacturer
      · cases hrest
    · cases hrest
  · rintro ⟨hembedder, hmanufacturer⟩
    refine ⟨_, hembedder, ?_⟩
    rw [dif_pos i.embedder.property]
    refine required_eq_ok_iff.mpr ⟨_, hmanufacturer, ?_⟩
    show Except.ok (IcManufacturerId.mk _ _ _) = _
    rw [u16OfBytes_u16Bytes]

/-- A record the list of application folders can hold: a name of the folder itself, a name of one below
it, one that was invalidated, or nothing. -/
def FolderTag (tag : UInt8) : Prop := tag = 0x01 ∨ tag = 0x02 ∨ tag = 0xFE ∨ tag = 0x00

/-- The folders, with those of the records put behind them. The last name of its own counts. -/
def ApplicationFolders.extend (f : ApplicationFolders) (records : List Record) :
    ApplicationFolders where
  ownName := ((records.filter (·.tag = 0x01)).getLast?.map Record.value).getD f.ownName
  children := f.children ++ (records.filter (·.tag = 0x02)).map Record.value

/-- The application folders. -/
structure ApplicationFolders.States (cut : Prop) (records : List Record) (f : ApplicationFolders) :
    Prop where
  not_cut : ¬ cut
  known : ∀ r ∈ records, FolderTag r.tag
  eq_extend : f = (⟨[], []⟩ : ApplicationFolders).extend records

namespace ApplicationFolders

variable (f : ApplicationFolders) (r : Record)

theorem extend_cons (records : List Record) :
    f.extend (r :: records) = (f.extend [r]).extend records := by
  unfold extend
  by_cases hself : r.tag = 0x01
  · simp [hself, List.getLast?_cons]
  · by_cases hchild : r.tag = 0x02
    · simp [hchild]
    · simp [hself, hchild]

theorem parseItem_of_folderTag (h : FolderTag r.tag) :
    parseItem f (.ok r.tlv) = .ok (f.extend [r]) := by
  show (if r.tag = 0x01 then _ else if r.tag = 0x02 then _
    else if r.tag = 0xFE ∨ r.tag = 0x00 then _ else _) = _
  by_cases hself : r.tag = 0x01
  · have hextend : f.extend [r] = { f with ownName := r.value } := by simp [extend, hself]
    rw [if_pos hself, hextend]
    rfl
  by_cases hchild : r.tag = 0x02
  · have hextend : f.extend [r] = { f with children := f.children ++ [r.value] } := by
      simp [extend, hchild]
    rw [if_neg hself, if_pos hchild, hextend]
    rfl
  · have hextend : f.extend [r] = f := by simp [extend, hself, hchild]
    have hnothing := (h.resolve_left hself).resolve_left hchild
    rw [if_neg hself, if_neg hchild, if_pos hnothing, hextend]
    rfl

theorem parseItem_of_not_folderTag (h : ¬ FolderTag r.tag) :
    ∃ e, parseItem f (.ok r.tlv) = .error (.err e) := by
  simp only [FolderTag, not_or] at h
  obtain ⟨hself, hchild, hinvalid, hunused⟩ := h
  refine ⟨_, (if_neg hself).trans ((if_neg hchild).trans (if_neg ?_))⟩
  rintro (h | h)
  · exact hinvalid h
  · exact hunused h

variable {f}

/-- The loop over the records, from the folders it has. -/
theorem foldlM_append_eq_ok_iff (records : List Record) (items : List (Run Tlv))
    {g : ApplicationFolders} :
    ((records.map fun r : Record => (.ok r.tlv : Run Tlv)) ++ items).foldlM parseItem f = .ok g ↔
      (∀ r ∈ records, FolderTag r.tag) ∧ items.foldlM parseItem (f.extend records) = .ok g := by
  induction records generalizing f with
  | nil => simp [extend]
  | cons r records ih =>
    rw [List.map_cons, List.cons_append, List.foldlM_cons, List.forall_mem_cons, extend_cons]
    by_cases htag : FolderTag r.tag
    · rw [f.parseItem_of_folderTag r htag]
      exact ih.trans (and_congr_left fun _ => (and_iff_right htag).symm)
    · obtain ⟨e, hitem⟩ := f.parseItem_of_not_folderTag r htag
      rw [hitem]
      exact iff_of_false (fun h => by cases h) fun h => htag h.1.1

theorem parse_eq_ok_iff {cut : Prop} {records : List Record} {part : Bytes}
    (hcut : cut → Malformed part) (hnot : ¬ cut → part = []) :
    parse (concat records ++ part) = .ok f ↔ f.States cut records := by
  rw [parse, iter_concat_append, foldlM_append_eq_ok_iff]
  by_cases h : cut
  · obtain ⟨e, hiter⟩ := iter_malformed (hcut h)
    rw [hiter]
    exact iff_of_false (fun hok => by cases hok.2) fun hstates => hstates.not_cut h
  · rw [hnot h, iter_startsErased (x := []) (by intro b hb; cases hb)]
    constructor
    · rintro ⟨hknown, heq⟩
      exact ⟨h, hknown, (Except.ok.inj heq).symm⟩
    · rintro ⟨-, hknown, rfl⟩
      exact ⟨hknown, rfl⟩

end ApplicationFolders

/-- The digits of a card's own identity: a serial number, the code of a municipality, and the date the
card expires. -/
def CardInfo.StatedBy (c : CardInfo) (value : Bytes) : Prop :=
  ∃ serial municipality : Bytes, serial.length = 15 ∧ municipality.length = 5 ∧
    (serial ++ municipality).all isAsciiDigit = true ∧ c.expiry.Statable ∧
    value = serial ++ municipality ++ c.expiry.digits ∧ c.serial = asciiText serial ∧
    c.municipalityCode = asciiText municipality

/-- The card's identity is in its first record. -/
def CardInfo.States (records : List Record) (c : CardInfo) : Prop :=
  ∃ r, records.head? = some r ∧ r.tag = 0x01 ∧ c.StatedBy r.value

theorem CardInfo.parse_raw_eq_ok_iff {r : Record} {c : CardInfo} :
    CardInfo.parse r.raw = .ok c ↔ r.tag = 0x01 ∧ c.StatedBy r.value := by
  have hparse : Simple.parse r.raw = .ok r.tlv := by
    have hobj := r.objectAt_raw_append []
    rw [List.append_nil] at hobj
    rw [Simple.parse, hobj]
    rfl
  have hguard : CardInfo.parse r.raw = .ok c ↔ r.tag = 0x01 ∧ r.value.length = 28 ∧
      r.value.all isAsciiDigit = true ∧ ∃ expiry, Date.parse (r.value.drop 20) = .ok expiry ∧
        CardInfo.mk (asciiText (r.value.take 15)) (asciiText ((r.value.drop 15).take 5)) expiry =
          c := by
    unfold CardInfo.parse
    rw [hparse]
    refine (unless_malformed_eq_ok_iff (p := r.tag ≠ 0x01)).trans (and_congr not_not ?_)
    refine (unless_malformed_eq_ok_iff (p := r.value.length ≠ 28)).trans (and_congr not_not ?_)
    refine (unless_malformed_eq_ok_iff (p := ¬ r.value.all isAsciiDigit = true)).trans
      (and_congr not_not ?_)
    refine Run.bind_eq_ok.trans (exists_congr fun expiry => and_congr_right fun _ => ?_)
    exact ⟨fun h => Except.ok.inj h, fun h => congrArg Except.ok h⟩
  rw [hguard]
  constructor
  · rintro ⟨htag, hlength, hdigits, expiry, hexpiry, rfl⟩
    obtain ⟨hstatable, hdate⟩ := Date.parse_eq_ok_iff.mp hexpiry
    have hfront : r.value.take 15 ++ (r.value.drop 15).take 5 = r.value.take 20 :=
      (List.take_add (i := 15) (j := 5)).symm
    refine ⟨htag, _, _, ?_, ?_, ?_, hstatable, ?_, rfl, rfl⟩
    · rw [List.length_take]
      omega
    · rw [List.length_take, List.length_drop]
      omega
    · rw [hfront, List.all_eq_true]
      exact fun b hb => List.all_eq_true.mp hdigits b (List.mem_of_mem_take hb)
    · rw [hfront, ← hdate, List.take_append_drop]
  · rintro ⟨htag, serial, municipality, hserial, hmunicipality, hdigits, hstatable, hvalue, hc, hc'⟩
    have hdate : c.expiry.digits.length = 8 := hstatable.columns.2.2.2
    have hfront : (serial ++ municipality).length = 20 := by
      rw [List.length_append]
      omega
    rw [hvalue]
    refine ⟨htag, ?_, ?_, c.expiry, ?_, ?_⟩
    · rw [List.length_append]
      omega
    · rw [List.all_append, hdigits, Date.digits_all_digits]
      rfl
    · rw [List.drop_left' hfront]
      exact Date.parse_digits hstatable
    · rw [List.append_assoc, List.take_left' hserial, List.drop_left' hserial,
        List.take_left' hmunicipality, ← hc, ← hc']

/-! ### The typed reads -/

/-- Which file is read, whether its first record or all, what is made of the bytes, and what the value
has to do with the records. -/
structure RecordReading (α : Type) where
  ef : UInt16
  one : Bool
  parse : Bytes → Run α
  States : Prop → List Record → α → Prop

section

variable (fuel : ℕ) {α : Type}

def RecordReading.perform (r : RecordReading α) : CardM α :=
  Ap.parsed (if r.one then Ap.readRecord fuel r.ef 1 else MasterFile.readAllRecords fuel r.ef) r.parse

/-- The typed reads of record structured files. -/
inductive IsRecordRead : {α : Type} → CardM α → RecordReading α → Prop
  | cardIdentifier : IsRecordRead (MasterFile.cardIdentifier fuel)
      ⟨MasterFile.Ef.cardIdentifier, false, CardIdentifier.parse, CardIdentifier.States⟩
  | applicationFolders : IsRecordRead (MasterFile.applicationFolders fuel)
      ⟨MasterFile.Ef.applicationFolderList, false, ApplicationFolders.parse,
        ApplicationFolders.States⟩
  | icManufacturerId : IsRecordRead (MasterFile.icManufacturerId fuel)
      ⟨MasterFile.Ef.icManufacturerId, false, IcManufacturerId.parse, IcManufacturerId.States⟩
  | cardInfo : IsRecordRead (CommonAp.readCardInfo fuel)
      ⟨CommonAp.Ef.cardInfo, true, CardInfo.parse, fun _ => CardInfo.States⟩

theorem IsRecordRead.eq_perform {x : CardM α} {r : RecordReading α} (h : IsRecordRead fuel x r) :
    x = r.perform fuel := by
  cases h with
  | _ => rfl

/-- What is made of the bytes of records, and of the beginning of another if they are cut. -/
theorem IsRecordRead.parse_eq_ok_iff {x : CardM α} {r : RecordReading α} (h : IsRecordRead fuel x r)
    (hone : r.one = false) {cut : Prop} {records : List Record} {part : Bytes}
    (hcut : cut → Malformed part) (hnot : ¬ cut → part = []) (a : α) :
    r.parse (concat records ++ part) = .ok a ↔ r.States cut records a := by
  cases h with
  | cardIdentifier =>
    rw [CardIdentifier.parse_eq_ok_iff]
    simp only [find_eq_ok_iff hcut hnot]
    rfl
  | applicationFolders => exact ApplicationFolders.parse_eq_ok_iff hcut hnot
  | icManufacturerId =>
    rw [IcManufacturerId.parse_eq_ok_iff]
    simp only [find_eq_ok_iff hcut hnot]
    rfl
  | cardInfo => cases hone

/-- What is made of one record. -/
theorem IsRecordRead.parse_raw_eq_ok_iff {x : CardM α} {r : RecordReading α}
    (h : IsRecordRead fuel x r) (hone : r.one = true) (cut : Prop) (record : Record) (a : α) :
    r.parse record.raw = .ok a ↔ r.States cut [record] a := by
  cases h with
  | cardInfo =>
    rw [CardInfo.parse_raw_eq_ok_iff]
    constructor
    · intro hstated
      exact ⟨record, rfl, hstated⟩
    · rintro ⟨record', hhead, hstated⟩
      obtain rfl := Option.some.inj hhead
      exact hstated
  | _ => cases hone

/-- Without a first record there is nothing it could state. -/
theorem IsRecordRead.not_states_nil {x : CardM α} {r : RecordReading α} (h : IsRecordRead fuel x r)
    (hone : r.one = true) (cut : Prop) (a : α) : ¬ r.States cut [] a := by
  cases h with
  | cardInfo =>
    rintro ⟨record, hhead, -⟩
    cases hhead
  | _ => cases hone

/-- No bytes make the parsers panic. -/
theorem IsRecordRead.returned_parse {x : CardM α} {r : RecordReading α} (h : IsRecordRead fuel x r)
    (bytes : Bytes) : Returned (r.parse bytes) := by
  cases h with
  | cardIdentifier =>
    refine (returned_find bytes _).bind fun o => (returned_orMalformed _ o).bind fun record => ?_
    split
    · exact (returned_find bytes _).bind fun _ => (returned_find bytes _).bind fun _ => returned_ok _
    · exact returned_malformed _
  | applicationFolders =>
    have hitems := returned_iter bytes
    show Returned ((Simple.iter bytes).foldlM _ _)
    generalize (⟨[], []⟩ : ApplicationFolders) = folders
    generalize Simple.iter bytes = items at hitems
    induction items generalizing folders with
    | nil => exact returned_ok folders
    | cons item items ih =>
      rw [List.forall_mem_cons] at hitems
      rw [List.foldlM_cons]
      refine Returned.bind (hitems.1.bind fun tlv => ?_) fun folders' => ih folders' hitems.2
      split
      · exact returned_ok _
      split
      · exact returned_ok _
      split
      · exact returned_ok _
      · exact returned_malformed _
  | icManufacturerId =>
    refine (returned_find bytes _).bind fun o => (returned_orMalformed _ o).bind fun embedder => ?_
    split
    · refine (returned_find bytes _).bind fun o => (returned_orMalformed _ o).bind fun record => ?_
      split
      · exact returned_ok _
      · exact returned_malformed _
    · exact returned_malformed _
  | cardInfo =>
    refine (Simple.returned_parse bytes).bind fun tlv => ?_
    split
    · exact returned_malformed _
    split
    · exact returned_malformed _
    split
    · exact returned_malformed _
    refine Returned.bind ?_ fun _ => returned_ok _
    unfold Date.parse
    split
    · dsimp only
      split
      · exact returned_malformed _
      · exact returned_ok _
    · exact returned_malformed _

/-- The records that are seen whole. -/
def RecordReading.seen (r : RecordReading α) (multi : Bool) (records : List Record) : List Record :=
  if r.one then records.take 1 else if multi then whole 256 records else records

/-- What is seen ends inside a record. -/
def RecordReading.Cut (r : RecordReading α) (multi : Bool) (records : List Record) : Prop :=
  r.one = false ∧ multi = true ∧ CutAt 256 records

/-- The bytes that are read of all the records. -/
theorem RecordReading.readBack_eq {r : RecordReading α} (hone : r.one = false) {file : RecordFile}
    {records : List Record} (hfile : file.records = records.map Record.raw) (multi : Bool) :
    ∃ part, file.readBack multi = concat (r.seen multi records) ++ part ∧
      (r.Cut multi records → Malformed part) ∧ (¬ r.Cut multi records → part = []) := by
  have hflat : file.records.flatten = concat records := congrArg List.flatten hfile
  rw [RecordFile.readBack, hflat, seen, hone]
  cases multi with
  | true =>
    obtain ⟨part, htake, hcut, hnot⟩ := take_concat 256 records
    exact ⟨part, htake, fun h => hcut h.2.2, fun h => hnot fun hcut => h ⟨hone, rfl, hcut⟩⟩
  | false =>
    refine ⟨[], (List.append_nil _).symm, fun h => ?_, fun _ => rfl⟩
    cases h.2.1

end

section

variable {τ α : Type} {answer : Bytes → τ → Answer × τ} {I : τ → Prop} {fuel : ℕ} {x : CardM α}
  {r : RecordReading α} {file : RecordFile} {records : List Record} {multi : Bool}

/-- Record 1 of the file, as the response the card has for it. -/
theorem ServesRecords.readRecord_one {id : UInt16} (h : ServesRecords answer I id file multi)
    (fuel : ℕ) (σ : τ) :
    ((Ap.readRecord fuel id 1).run.run answer σ).1 = (file.record 1).intoData := by
  have hv : (Command.withData Cla.user Ins.selectFile 0x02 0x0C (u16Bytes id)).Valid :=
    ⟨by simp [Command.withData], by simp [Command.withData]⟩
  obtain ⟨σ₁, hanswer, hσ₁⟩ := h.select _ σ _ _ (Command.isoDecode_encoding hv) rfl rfl rfl rfl rfl
  have hselect : (Card.selectEf fuel id).run.run answer σ = (.ok (), σ₁) := by
    have hcall := Card.callOk_run_final fuel hv (r := ⟨[], .success⟩) hanswer rfl rfl
    rw [Card.selectEf, run_bind_ok hcall]
    rfl
  obtain ⟨σ', -, hread⟩ := h.readRecord fuel hσ₁ Nat.one_pos (by norm_num : 1 ≤ 255)
  rw [Ap.readRecord, Ap.onEf, run_bind_ok hselect]
  exact congrArg Prod.fst hread

/-- What a typed read makes of the bytes it is given. -/
theorem ServesRecords.recordReading_run (hread : IsRecordRead fuel x r)
    (h : ServesRecords answer I r.ef file multi) (σ : τ) :
    (x.run.run answer σ).1 =
      (if r.one then (file.record 1).intoData else .ok (file.readBack multi)) >>= r.parse := by
  rw [hread.eq_perform]
  cases hone : r.one with
  | false =>
    have hperform : r.perform fuel =
        MasterFile.readAllRecords fuel r.ef >>= fun raw => (r.parse raw : CardM α) := by
      rw [RecordReading.perform, hone]
      rfl
    obtain ⟨σ', -, hall⟩ := h.readAllRecords fuel σ
    rw [hperform]
    exact run_bind_lift (congrArg Prod.fst hall)
  | true =>
    have hperform : r.perform fuel =
        Ap.readRecord fuel r.ef 1 >>= fun raw => (r.parse raw : CardM α) := by
      rw [RecordReading.perform, hone]
      rfl
    rw [hperform]
    exact run_bind_lift (h.readRecord_one fuel σ)

theorem ServesRecords.recordReading_eq_ok_iff (hread : IsRecordRead fuel x r)
    (h : ServesRecords answer I r.ef file multi) (hfile : file.records = records.map Record.raw)
    (σ : τ) (a : α) :
    (x.run.run answer σ).1 = .ok a ↔ r.States (r.Cut multi records) (r.seen multi records) a := by
  rw [h.recordReading_run hread]
  cases hone : r.one with
  | false =>
    obtain ⟨part, hback, hcut, hnot⟩ := r.readBack_eq hone hfile multi
    rw [hback]
    exact hread.parse_eq_ok_iff fuel hone hcut hnot a
  | true =>
    rw [RecordReading.seen, hone]
    cases records with
    | nil =>
      have hnone : (file.record 1).intoData = .error (.err (.status ⟨0x6A83⟩)) := by
        rw [file.record_of_le (by rw [hfile]; exact Nat.le_refl 0)]
        rfl
      rw [hnone]
      exact iff_of_false (fun hok => by cases hok) (hread.not_states_nil fuel hone _ a)
    | cons record records =>
      have hsome : (file.record 1).intoData = .ok record.raw := by
        rw [RecordFile.record, hfile]
        rfl
      rw [hsome]
      exact hread.parse_raw_eq_ok_iff fuel hone _ record a

/-- **A typed read gives what the records state**: those that it sees, and all of them if the card gives
them one at a time or one response has room for them. What it does not give it refuses with an error. -/
theorem recordReading_exact (hread : IsRecordRead fuel x r)
    (h : ServesRecords answer I r.ef file multi) (hfile : file.records = records.map Record.raw)
    (σ : τ) :
    (∀ a, (x.run.run answer σ).1 = .ok a ↔
      r.States (r.Cut multi records) (r.seen multi records) a) ∧
    ((multi = true → (concat records).length ≤ 256) → ∀ a, (x.run.run answer σ).1 = .ok a ↔
      r.States False (if r.one then records.take 1 else records) a) ∧
    Returned (x.run.run answer σ).1 := by
  refine ⟨h.recordReading_eq_ok_iff hread hfile σ, ?_, ?_⟩
  · intro hfits a
    have hseen : r.seen multi records = if r.one then records.take 1 else records := by
      rw [RecordReading.seen]
      cases multi with
      | true => rw [whole_of_le (hfits rfl)]; rfl
      | false => rfl
    have hcut : r.Cut multi records ↔ False :=
      iff_of_false (fun hcut => not_cutAt_of_le (hfits hcut.2.1) hcut.2.2) id
    rw [h.recordReading_eq_ok_iff hread hfile σ a, hseen, propext hcut]
  · rw [h.recordReading_run hread]
    refine Returned.bind ?_ (hread.returned_parse fuel)
    split
    · exact Card.returned_intoData _
    · exact returned_ok _

end

/-- A record that either form of the length has room for. -/
def shortRecord (tag : UInt8) (value : Bytes) (long : Bool)
    (h : tag ≠ 0xFF ∧ value.length ≤ 254) : Record :=
  ⟨tag, value, long, h.1, by omega, fun _ => h.2⟩

/-- The name of an application folder and of two below it, with an invalidated one between them. One
response does not have room for all four records. -/
def folderRecords : List Record :=
  [shortRecord 0x01 [0x4A, 0x50, 0x4E] false (by decide),
    shortRecord 0x02 [0xD3, 0x92, 0x10] true (by decide),
    shortRecord 0xFE [] false (by decide),
    shortRecord 0x02 (List.replicate 250 0xD3) false (by decide +kernel)]

/-- The file of the first so many of them. -/
def foldersFile (n : ℕ) : RecordFile where
  records := (folderRecords.take n).map Record.raw
  count_le := by
    rw [List.length_map]
    exact (List.length_take_le' n folderRecords).trans (by decide)
  size := by
    have hall : ∀ r ∈ folderRecords, 2 ≤ r.raw.length ∧ r.raw.length ≤ 256 := by decide +kernel
    intro raw hraw
    obtain ⟨r, hr, rfl⟩ := List.mem_map.mp hraw
    exact hall r (List.mem_of_mem_take hr)

/-- One record after the other all four are read, and with the multi-record form the three that one
response has room for; of the four it gives the beginning of the last, and the read fails. -/
theorem recordReading_exact_folders :
    ((MasterFile.applicationFolders 1).run.run (recordCard 0x2F10 (foldersFile 4) false) false).1 =
        .ok ⟨[0x4A, 0x50, 0x4E], [[0xD3, 0x92, 0x10], List.replicate 250 0xD3]⟩ ∧
      ((MasterFile.applicationFolders 1).run.run (recordCard 0x2F10 (foldersFile 3) true) false).1 =
        .ok ⟨[0x4A, 0x50, 0x4E], [[0xD3, 0x92, 0x10]]⟩ ∧
      ∀ folders, ((MasterFile.applicationFolders 1).run.run
        (recordCard 0x2F10 (foldersFile 4) true) false).1 ≠ .ok folders := by
  have hread : IsRecordRead 1 (MasterFile.applicationFolders 1) _ := .applicationFolders
  have hserves := recordCard_serves 0x2F10
  have hknown : ∀ r ∈ folderRecords, FolderTag r.tag := by
    unfold FolderTag
    decide +kernel
  refine ⟨?_, ?_, ?_⟩
  · refine ((recordReading_exact hread (hserves (foldersFile 4) false) rfl false).2.1
      (fun hmulti => nomatch hmulti) _).mpr ⟨not_false, hknown, by decide +kernel⟩
  · refine ((recordReading_exact hread (hserves (foldersFile 3) true) rfl false).2.1
      (fun _ => by decide +kernel) _).mpr ⟨not_false, fun r hr => hknown r ?_, by decide +kernel⟩
    exact List.mem_of_mem_take hr
  · intro folders hok
    have hcut : CutAt 256 folderRecords := by
      unfold CutAt
      decide +kernel
    have hstates := ((recordReading_exact hread (hserves (foldersFile 4) true) rfl false).1
      folders).mp hok
    exact hstates.not_cut ⟨rfl, rfl, hcut⟩

end MynaCard
