import MynaCard.Ap.Text
import MynaCard.BerGrammar

/-!
# Offset tables

Both display applications open their data files with a table of the positions, from the first byte of
the file, at which the objects after it begin. A file is taken apart as a `Layout`: the outer object,
what follows it, and inside it objects in front of filler. `startsFrom` says where the objects of a
layout begin, and `Indexes` when a table states just that.

The two walks differ in one place: where the first object of the outer value is taken to begin.
`TlvFields::parse` takes it from the outer header, and there **`table_indexes`** says that an accepted
table indexes the file. `Attributes::parse` takes it from the length of what it is given, so it counts
what follows the outer object as well; `attributes_alike_iff` says when this makes no difference.
-/

namespace MynaCard

open Ber

/-! ### What a table states -/

/-- The `i`-th big-endian `u16` of a table. -/
def tableEntry (table : Bytes) (i : ℕ) : ℕ := bigEndian ((table.drop (2 * i)).take 2)

/-- A table states the positions `starts`, two bytes for each. -/
def Indexes (table : Bytes) (starts : List ℕ) : Prop :=
  table.length = 2 * starts.length ∧ ∀ i (hi : i < starts.length), tableEntry table i = starts[i]

@[simp] theorem tableEntry_zero (hi lo : UInt8) (table : Bytes) :
    tableEntry (hi :: lo :: table) 0 = (u16OfBytes hi lo).toNat := by
  rw [u16OfBytes_toNat]
  show bigEndian [hi, lo] = _
  rw [bigEndian_cons, bigEndian_singleton]
  rfl

@[simp] theorem tableEntry_succ (hi lo : UInt8) (table : Bytes) (i : ℕ) :
    tableEntry (hi :: lo :: table) (i + 1) = tableEntry table i := rfl

theorem indexes_cons_iff {hi lo : UInt8} {table : Bytes} {start : ℕ} {starts : List ℕ} :
    Indexes (hi :: lo :: table) (start :: starts) ↔
      (u16OfBytes hi lo).toNat = start ∧ Indexes table starts := by
  constructor
  · intro h
    obtain ⟨hlen, hentry⟩ := h
    refine ⟨?_, ?_, ?_⟩
    · have h0 := hentry 0 (by simp)
      rwa [tableEntry_zero] at h0
    · simp only [List.length_cons] at hlen
      omega
    · intro i hi
      have hsucc := hentry (i + 1) (by rw [List.length_cons]; omega)
      rwa [tableEntry_succ] at hsucc
  · intro h
    obtain ⟨hstart, hlen, hentry⟩ := h
    refine ⟨?_, ?_⟩
    · simp only [List.length_cons]
      omega
    · intro i hi
      cases i with
      | zero => rwa [tableEntry_zero]
      | succ i => rw [tableEntry_succ, hentry i (by simpa using hi), List.getElem_cons_succ]

/-- The loop of `check_offsets` over a table of the right length. -/
theorem checkEntries_eq_ok_iff {table : Bytes} {starts : List ℕ} (i : ℕ)
    (hlen : table.length = 2 * starts.length) :
    checkEntries i table starts = .ok () ↔ Indexes table starts := by
  induction starts generalizing i table with
  | nil =>
    obtain rfl : table = [] := List.length_eq_zero_iff.mp (by simpa using hlen)
    exact ⟨fun _ => ⟨rfl, fun i hi => absurd hi (Nat.not_lt_zero i)⟩, fun _ => rfl⟩
  | cons start starts ih =>
    match table, hlen with
    | [], hlen => simp at hlen
    | [_], hlen => simp at hlen; omega
    | hi :: lo :: table, hlen =>
      have htail : table.length = 2 * starts.length := by
        simp only [List.length_cons] at hlen
        omega
      rw [indexes_cons_iff, ← ih (i + 1) htail]
      show (if (u16OfBytes hi lo).toNat ≠ start then _ else _) = _ ↔ _
      by_cases hstart : (u16OfBytes hi lo).toNat = start
      · rw [if_neg (not_not.mpr hstart)]
        exact ⟨fun h => ⟨hstart, h⟩, fun h => h.2⟩
      · rw [if_pos hstart]
        exact ⟨fun h => (nomatch h), fun h => absurd h.1 hstart⟩

theorem checkOffsets_eq_ok_iff {table : Bytes} {starts : List ℕ} :
    checkOffsets table starts = .ok () ↔ Indexes table starts := by
  unfold checkOffsets
  by_cases hlen : table.length = starts.length * 2
  · rw [if_neg (not_not.mpr hlen)]
    exact checkEntries_eq_ok_iff 0 (by omega)
  · rw [if_pos hlen]
    exact ⟨fun h => (nomatch h), fun h => absurd h.1 (by omega)⟩

/-! ### Where the objects of a file begin -/

/-- The positions of the objects that are no tables, the first object beginning at `pos`. -/
def startsFrom (offsetTable : Option ℕ) : ℕ → List Obj → List ℕ
  | _, [] => []
  | pos, o :: objs =>
    if some o.tag = offsetTable then startsFrom offsetTable (pos + o.raw.length) objs
    else pos :: startsFrom offsetTable (pos + o.raw.length) objs

/-- A file that begins `n` bytes later has its objects `n` bytes later. -/
theorem startsFrom_add (offsetTable : Option ℕ) (pos n : ℕ) (objs : List Obj) :
    startsFrom offsetTable (pos + n) objs = (startsFrom offsetTable pos objs).map (· + n) := by
  induction objs generalizing pos with
  | nil => rfl
  | cons o objs ih =>
    have hnext := ih (pos + o.raw.length)
    rw [Nat.add_right_comm] at hnext
    by_cases htag : some o.tag = offsetTable
    · rw [startsFrom, startsFrom, if_pos htag, if_pos htag, hnext]
    · rw [startsFrom, startsFrom, if_neg htag, if_neg htag, hnext, List.map_cons]

/-- At each position begins the object it is the position of. -/
theorem startsFrom_points (offsetTable : Option ℕ) (front tail : Bytes) (objs : List Obj) :
    List.Forall₂ (fun pos (o : Obj) => ∃ more, (front ++ (concat objs ++ tail)).drop pos = o.raw ++ more)
      (startsFrom offsetTable front.length objs)
      (objs.filter fun o => some o.tag ≠ offsetTable) := by
  induction objs generalizing front with
  | nil => exact List.Forall₂.nil
  | cons o objs ih =>
    have hnext := ih (front ++ o.raw)
    rw [List.length_append, List.append_assoc, ← List.append_assoc o.raw, ← concat_cons] at hnext
    by_cases htag : some o.tag = offsetTable
    · rw [List.filter_cons_of_neg (by simpa using htag), startsFrom, if_pos htag]
      exact hnext
    · rw [List.filter_cons_of_pos (by simpa using htag), startsFrom, if_neg htag]
      refine List.Forall₂.cons ⟨concat objs ++ tail, ?_⟩ hnext
      rw [List.drop_left, concat_cons, List.append_assoc]

/-- The tables of a file. The last one counts. -/
def tables (offsetTable : Option ℕ) (objs : List Obj) : List Obj :=
  objs.filter fun o => some o.tag = offsetTable

/-- The table, if there is one, states where the objects begin. -/
def TableFits (offsetTable : Option ℕ) (pos : ℕ) (objs : List Obj) : Prop :=
  ∀ table ∈ (tables offsetTable objs).getLast?,
    Indexes table.value (startsFrom offsetTable pos objs)

/-! ### What the walk collects -/

theorem foldl_pushObj_starts (offsetTable : Option ℕ) (objs : List Obj) (w : Walk) :
    (objs.foldl (Walk.pushObj offsetTable) w).starts =
      w.starts ++ startsFrom offsetTable w.pos objs := by
  induction objs generalizing w with
  | nil => simp [startsFrom]
  | cons o objs ih =>
    rw [List.foldl_cons, ih]
    by_cases htag : some o.tag = offsetTable
    · simp [Walk.pushObj, Walk.push, Obj.tlv, startsFrom, htag]
    · simp [Walk.pushObj, Walk.push, Obj.tlv, startsFrom, htag]

theorem foldl_pushObj_offsets (offsetTable : Option ℕ) (objs : List Obj) (w : Walk) :
    (objs.foldl (Walk.pushObj offsetTable) w).offsets =
      ((tables offsetTable objs).getLast?.map Obj.value).or w.offsets := by
  induction objs generalizing w with
  | nil => rfl
  | cons o objs ih =>
    rw [List.foldl_cons, ih]
    by_cases htag : some o.tag = offsetTable
    · have hpush : (w.pushObj offsetTable o).offsets = some o.value := by
        simp [Walk.pushObj, Walk.push, Obj.tlv, htag]
      rw [hpush, tables, tables, List.filter_cons_of_pos (by simpa using htag), List.getLast?_cons]
      cases (objs.filter fun o => some o.tag = offsetTable).getLast? <;> rfl
    · have hpush : (w.pushObj offsetTable o).offsets = w.offsets := by
        simp [Walk.pushObj, Walk.push, Obj.tlv, htag]
      rw [hpush, tables, tables, List.filter_cons_of_neg (by simpa using htag)]

/-- The walk's table is checked against where the walk found the objects. -/
theorem checkTable_foldl_eq_ok_iff (offsetTable : Option ℕ) (objs : List Obj) (pos : ℕ)
    (rest : Bytes) :
    TlvFields.checkTable (objs.foldl (Walk.pushObj offsetTable) ⟨pos, rest, none, [], []⟩) = .ok () ↔
      TableFits offsetTable pos objs := by
  unfold TlvFields.checkTable TableFits
  rw [foldl_pushObj_offsets, foldl_pushObj_starts]
  cases (tables offsetTable objs).getLast? with
  | none => exact ⟨fun _ table h => (nomatch h), fun _ => rfl⟩
  | some table =>
    refine checkOffsets_eq_ok_iff.trans ⟨?_, ?_⟩
    · intro h table' htable'
      obtain rfl := Option.some.inj htable'
      exact h
    · intro h
      exact h table rfl

/-! ### Files taken apart -/

/-- The outer object of a file, what follows it, and inside it objects in front of filler. -/
structure Layout (raw : Bytes) (o : Obj) (objs : List Obj) (post : Bytes) : Prop where
  raw_eq : raw = o.raw ++ post
  size : o.raw.length < usizeSize
  value_eq : ∃ tail, o.value = concat objs ++ tail ∧ StartsFiller tail
  plain : ∀ p ∈ objs, p.NotFiller

/-- The fields of a layout. -/
def fieldsOf (offsetTable : Option ℕ) (objs : List Obj) : TlvFields :=
  ⟨(objs.filter fun o => some o.tag ≠ offsetTable).map Field.ofObj⟩

namespace Layout

variable {oc : OverflowChecks} {raw post post' : Bytes} {o o' : Obj} {objs objs' : List Obj}
  {offsetTable : Option ℕ} {pos : ℕ}

/-- A file is laid out in one way only. -/
theorem unique (h : Layout raw o objs post) (h' : Layout raw o' objs' post') :
    o = o' ∧ objs = objs' ∧ post = post' := by
  obtain ⟨hraw, hpost⟩ := objects_prefixFree.append_inj (raw_mem_objects o) (raw_mem_objects o')
    (h.raw_eq.symm.trans h'.raw_eq)
  obtain rfl := Obj.raw_injective hraw
  obtain ⟨tail, hval, htail⟩ := h.value_eq
  obtain ⟨tail', hval', htail'⟩ := h'.value_eq
  obtain ⟨hobjs, -⟩ := concat_append_inj h.plain h'.plain htail htail' (hval.symm.trans hval')
  exact ⟨rfl, hobjs, hpost⟩

/-- What is said of some layout of a file is said of its layout. -/
theorem exists_iff (h : Layout raw o objs post) {tag : ℕ} (htag : o.tag = tag)
    {P : Obj → List Obj → Bytes → Prop} :
    (∃ o objs post, Layout raw o objs post ∧ o.tag = tag ∧ P o objs post) ↔ P o objs post := by
  constructor
  · rintro ⟨o', objs', post', h', -, hP⟩
    obtain ⟨rfl, rfl, rfl⟩ := h.unique h'
    exact hP
  · intro hP
    exact ⟨o, objs, post, h, htag, hP⟩

/-- More bytes behind a file are behind its outer object. -/
theorem append (h : Layout raw o objs post) (s : Bytes) : Layout (raw ++ s) o objs (post ++ s) :=
  ⟨by rw [h.raw_eq, List.append_assoc], h.size, h.value_eq, h.plain⟩

/-- What is behind a file's outer object does not change how the file is laid out. -/
theorem of_append {s : Bytes} {outer : Tlv} (h : Layout (raw ++ s) o objs post')
    (houter : Ber.parse oc raw = .ok outer) : ∃ post, Layout raw o objs post := by
  obtain ⟨o', post, rfl, -, -⟩ := Ber.parse_eq_ok_iff.mp houter
  obtain ⟨hraw, -⟩ := objects_prefixFree.append_inj (raw_mem_objects o') (raw_mem_objects o)
    ((List.append_assoc _ _ _).symm.trans h.raw_eq)
  obtain rfl := Obj.raw_injective hraw
  exact ⟨post, rfl, h.size, h.value_eq, h.plain⟩

theorem decomposed (h : Layout raw o objs post) : TlvFields.Decomposed raw o.tag objs := by
  obtain ⟨tail, hval, htail⟩ := h.value_eq
  exact ⟨⟨o, tail, post, h.raw_eq, h.size, rfl, hval, htail⟩, h.plain⟩

theorem parse_eq (h : Layout raw o objs post) (oc : OverflowChecks) :
    Ber.parse oc raw = .ok o.tlv := by
  rw [h.raw_eq]
  exact parse_raw_append oc o h.size post

/-- The walk goes through the objects of the layout. -/
theorem walk_eq (h : Layout raw o objs post) (oc : OverflowChecks) (offsetTable : Option ℕ)
    (pos : ℕ) : walk oc offsetTable ⟨pos, o.value, none, [], []⟩ =
      .ok (objs.foldl (Walk.pushObj offsetTable) ⟨pos, o.value, none, [], []⟩) := by
  obtain ⟨tail, hval, htail⟩ := h.value_eq
  refine walk_eq_ok_iff.mpr ⟨objs, tail, hval, htail, ?_, rfl⟩
  intro p hp
  refine ⟨h.plain p hp, ?_⟩
  have hle := length_le_concat hp
  have hlen := congrArg List.length hval
  have hsize := h.size
  rw [List.length_append] at hlen
  rw [Obj.raw_length] at hsize
  omega

theorem items_eq (h : Layout raw o objs post) (offsetTable : Option ℕ) (pos : ℕ) :
    (⟨(objs.foldl (Walk.pushObj offsetTable) ⟨pos, o.value, none, [], []⟩).items⟩ : TlvFields) =
      fieldsOf offsetTable objs := by
  obtain ⟨tail, hval, -⟩ := h.value_eq
  rw [foldl_pushObj_items offsetTable objs hval, List.nil_append]
  rfl

/-- A walk that ends has gone through a layout. -/
theorem of_walk {w : Walk} (hraw : raw = o.raw ++ post) (hsize : o.raw.length < usizeSize)
    (hwalk : walk oc offsetTable ⟨pos, o.value, none, [], []⟩ = .ok w) :
    ∃ objs, Layout raw o objs post ∧
      w = objs.foldl (Walk.pushObj offsetTable) ⟨pos, o.value, none, [], []⟩ := by
  obtain ⟨objs, tail, hval, htail, hobjs, rfl⟩ := walk_eq_ok_iff.mp hwalk
  exact ⟨objs, ⟨hraw, hsize, ⟨tail, hval, htail⟩, fun p hp => (hobjs p hp).1⟩, rfl⟩

end Layout

/-- **What `TlvFields::parse` accepts**: a layout whose table, if it has one, states where its objects
begin, the first of them behind the outer header. -/
theorem TlvFields.parse_eq_ok_iff {oc : OverflowChecks} {raw : Bytes} {tag : ℕ}
    {offsetTable : Option ℕ} {f : TlvFields} :
    TlvFields.parse oc raw tag offsetTable = .ok f ↔
      ∃ o objs post, Layout raw o objs post ∧ o.tag = tag ∧
        TableFits offsetTable o.hdr.length objs ∧ f = fieldsOf offsetTable objs := by
  constructor
  · intro h
    unfold TlvFields.parse at h
    obtain ⟨outer, houter, h⟩ := Run.bind_eq_ok.mp h
    obtain ⟨o, post, rfl, hsize, rfl⟩ := Ber.parse_eq_ok_iff.mp houter
    split at h
    · cases h
    rename_i htag
    obtain ⟨header, hheader, h⟩ := Run.bind_eq_ok.mp h
    rw [o.parseHeader_raw_append] at hheader
    obtain rfl := Except.ok.inj hheader
    obtain ⟨w, hwalk, h⟩ := Run.bind_eq_ok.mp h
    obtain ⟨⟨⟩, htable, h⟩ := Run.bind_eq_ok.mp h
    obtain ⟨objs, hlayout, rfl⟩ := Layout.of_walk rfl hsize hwalk
    refine ⟨o, objs, post, hlayout, not_not.mp htag, ?_, ?_⟩
    · exact (checkTable_foldl_eq_ok_iff _ _ _ _).mp htable
    · rw [← hlayout.items_eq offsetTable o.hdr.length]
      exact (Except.ok.inj h).symm
  · intro h
    obtain ⟨o, objs, post, hlayout, htag, hfits, rfl⟩ := h
    unfold TlvFields.parse
    refine Run.bind_eq_ok.mpr ⟨o.tlv, hlayout.parse_eq oc, ?_⟩
    rw [if_neg (show ¬ o.tlv.tag ≠ tag from not_not.mpr htag)]
    refine Run.bind_eq_ok.mpr ⟨_, by rw [hlayout.raw_eq]; exact o.parseHeader_raw_append post, ?_⟩
    refine Run.bind_eq_ok.mpr ⟨_, hlayout.walk_eq oc offsetTable o.hdr.length, ?_⟩
    refine Run.bind_eq_ok.mpr ⟨(), (checkTable_foldl_eq_ok_iff _ _ _ _).mpr hfits, ?_⟩
    rw [← hlayout.items_eq offsetTable o.hdr.length]
    rfl

/-! ### An accepted table indexes the file -/

/-- At the position a fitting table states for a field, that field is read. -/
theorem Layout.parse_at_entry {oc : OverflowChecks} {raw post : Bytes} {o : Obj} {objs : List Obj}
    {offsetTable : Option ℕ} (h : Layout raw o objs post) {table : Bytes}
    (hindexes : Indexes table (startsFrom offsetTable o.hdr.length objs)) {i : ℕ}
    (hi : i < (fieldsOf offsetTable objs).items.length) :
    tableEntry table i < raw.length ∧ Ber.parse oc (raw.drop (tableEntry table i)) =
      .ok ⟨(fieldsOf offsetTable objs).items[i].tag, (fieldsOf offsetTable objs).items[i].value⟩ := by
  obtain ⟨tail, hval, -⟩ := h.value_eq
  have hraw : raw = o.hdr ++ (concat objs ++ (tail ++ post)) := by
    rw [h.raw_eq, Obj.raw, hval, List.append_assoc, List.append_assoc]
  have hpoints := startsFrom_points offsetTable o.hdr (tail ++ post) objs
  rw [← hraw] at hpoints
  have hcount := hpoints.length_eq
  have hi' : i < (objs.filter fun o => some o.tag ≠ offsetTable).length := by
    simpa [fieldsOf] using hi
  obtain ⟨more, hdrop⟩ := hpoints.get (by omega) hi'
  simp only [List.get_eq_getElem] at hdrop
  rw [hindexes.2 i (by omega)]
  have hsize : (objs.filter fun o => some o.tag ≠ offsetTable)[i].raw.length < usizeSize := by
    have hle := length_le_concat (List.mem_of_mem_filter (List.getElem_mem hi'))
    have hlen := congrArg List.length hval
    have hsize := h.size
    rw [List.length_append] at hlen
    rw [Obj.raw_length] at hsize
    omega
  constructor
  · by_contra hpast
    rw [List.drop_of_length_le (by omega)] at hdrop
    exact Obj.raw_ne_nil _ (List.append_eq_nil_iff.mp hdrop.symm).1
  · rw [hdrop, parse_raw_append oc _ hsize]
    simp [fieldsOf, Field.ofObj, Obj.tlv]

/-- **An accepted offset table indexes the file.** The last table states two bytes for each other
object, and at the `i`-th position it states, counted from the first byte of the file, stands the
`i`-th object the walk finds. -/
theorem table_indexes {oc : OverflowChecks} {raw : Bytes} {tag tableTag : ℕ} {f : TlvFields}
    (h : TlvFields.parse oc raw tag (some tableTag) = .ok f) :
    ∃ objs, TlvFields.Decomposed raw tag objs ∧
      f.items = (objs.filter fun o => o.tag ≠ tableTag).map Field.ofObj ∧
      ∀ table ∈ (objs.filter fun o => o.tag = tableTag).getLast?,
        table.value.length = 2 * f.items.length ∧
          ∀ i (hi : i < f.items.length), tableEntry table.value i < raw.length ∧
            Ber.parse oc (raw.drop (tableEntry table.value i)) =
              .ok ⟨f.items[i].tag, f.items[i].value⟩ := by
  obtain ⟨o, objs, post, hlayout, rfl, hfits, rfl⟩ := TlvFields.parse_eq_ok_iff.mp h
  refine ⟨objs, hlayout.decomposed, by simp [fieldsOf], ?_⟩
  intro table htable
  have hindexes := hfits table (by simpa [tables] using htable)
  refine ⟨?_, fun i hi => hlayout.parse_at_entry hindexes hi⟩
  have hpoints := startsFrom_points (some tableTag) o.hdr [] objs
  rw [hindexes.1, hpoints.length_eq, fieldsOf, List.length_map]

namespace Text.Attributes

/-- The objects after the table: 氏名 `A`, 住所 `B`, 生年月日 and 性別. -/
def fourFields : Bytes :=
  [0xDF, 0x22, 0x01, 0x41, 0xDF, 0x23, 0x01, 0x42, 0xDF, 0x24, 0x08, 0x31, 0x39, 0x38, 0x30, 0x30,
    0x32, 0x31, 0x37, 0xDF, 0x25, 0x01, 0x31]

def attributesFile : Bytes :=
  [0xFF, 0x20, 0x22, 0xDF, 0x21, 0x08, 0x00, 0x0E, 0x00, 0x12, 0x00, 0x16, 0x00, 0x21] ++ fourFields

end Text.Attributes

/-- The fields of `attributesFile`. -/
def Text.Attributes.attributesFields : TlvFields :=
  ⟨[⟨0xDF22, [0x41], [0xDF, 0x22, 0x01, 0x41]⟩, ⟨0xDF23, [0x42], [0xDF, 0x23, 0x01, 0x42]⟩,
    ⟨0xDF24, [0x31, 0x39, 0x38, 0x30, 0x30, 0x32, 0x31, 0x37],
      [0xDF, 0x24, 0x08, 0x31, 0x39, 0x38, 0x30, 0x30, 0x32, 0x31, 0x37]⟩,
    ⟨0xDF25, [0x31], [0xDF, 0x25, 0x01, 0x31]⟩]⟩

theorem table_indexes_attributesFile :
    ∃ f, TlvFields.parse .on Text.Attributes.attributesFile 0xFF20 (some 0xDF21) = .ok f ∧
      f.items.map Field.tag = [0xDF22, 0xDF23, 0xDF24, 0xDF25] ∧
      ∃ objs, TlvFields.Decomposed Text.Attributes.attributesFile 0xFF20 objs ∧
        f.items = (objs.filter fun o => o.tag ≠ 0xDF21).map Field.ofObj ∧
        ∀ table ∈ (objs.filter fun o => o.tag = 0xDF21).getLast?,
          table.value.length = 2 * f.items.length ∧
            ∀ i (hi : i < f.items.length),
              tableEntry table.value i < Text.Attributes.attributesFile.length ∧
              Ber.parse .on (Text.Attributes.attributesFile.drop (tableEntry table.value i)) =
                .ok ⟨f.items[i].tag, f.items[i].value⟩ := by
  have hparse : TlvFields.parse .on Text.Attributes.attributesFile 0xFF20 (some 0xDF21) =
      .ok Text.Attributes.attributesFields := by
    decide +kernel
  obtain ⟨objs, hd, hitems, htable⟩ := table_indexes hparse
  exact ⟨_, hparse, rfl, objs, hd, hitems, htable⟩

/-! ### The two walks -/

namespace Text.Attributes

/-- The attributes the fields of a file give, the table apart. -/
def ofFields (fields : TlvFields) : Run Attributes := do
  let name ← decodeText (← fields.get 0xDF22) "氏名"
  let address ← decodeText (← fields.get 0xDF23) "住所"
  let birthDate ← Date.parse (← fields.get 0xDF24)
  let sex ← orMalformed "性別 is empty" (← fields.get 0xDF25).head?
  pure ⟨name, address, birthDate, .fromByte sex⟩

/-- **What `Attributes::parse` accepts**: a layout with the four values, whose table, if it has one,
states where its objects would begin if what follows the outer object stood in front of them. -/
theorem parse_eq_ok_iff {oc : OverflowChecks} {raw : Bytes} {a : Attributes} :
    parse oc raw = .ok a ↔
      ∃ o objs post, Layout raw o objs post ∧ o.tag = 0xFF20 ∧
        TableFits (some 0xDF21) (o.hdr.length + post.length) objs ∧
        ofFields (fieldsOf (some 0xDF21) objs) = .ok a := by
  have hpos : ∀ (o : Obj) (post : Bytes), (o.raw ++ post).length - o.value.length =
      o.hdr.length + post.length := by
    intro o post
    rw [List.length_append, Obj.raw_length]
    omega
  constructor
  · intro h
    unfold parse at h
    obtain ⟨outer, houter, h⟩ := Run.bind_eq_ok.mp h
    obtain ⟨o, post, rfl, hsize, rfl⟩ := Ber.parse_eq_ok_iff.mp houter
    split at h
    · cases h
    rename_i htag
    rw [show o.tlv.value = o.value from rfl, hpos] at h
    obtain ⟨w, hwalk, h⟩ := Run.bind_eq_ok.mp h
    obtain ⟨objs, hlayout, rfl⟩ := Layout.of_walk rfl hsize hwalk
    rw [hlayout.items_eq] at h
    simp only [Run.bind_eq_ok] at h
    obtain ⟨vName, hName, vAddress, hAddress, vDate, hDate, vSex, hSex, ⟨⟩, htable, name, hname,
      address, haddress, date, hdate, sex, hsex, ha⟩ := h
    refine ⟨o, objs, post, hlayout, not_not.mp htag,
      (checkTable_foldl_eq_ok_iff _ _ _ _).mp htable, ?_⟩
    unfold ofFields
    simp only [Run.bind_eq_ok]
    exact ⟨vName, hName, name, hname, vAddress, hAddress, address, haddress, vDate, hDate, date,
      hdate, vSex, hSex, sex, hsex, ha⟩
  · intro h
    obtain ⟨o, objs, post, hlayout, htag, hfits, ha⟩ := h
    unfold ofFields at ha
    simp only [Run.bind_eq_ok] at ha
    obtain ⟨vName, hName, name, hname, vAddress, hAddress, address, haddress, vDate, hDate, date,
      hdate, vSex, hSex, sex, hsex, ha⟩ := ha
    unfold parse
    refine Run.bind_eq_ok.mpr ⟨o.tlv, hlayout.parse_eq oc, ?_⟩
    rw [if_neg (show ¬ o.tlv.tag ≠ 0xFF20 from not_not.mpr htag), hlayout.raw_eq,
      show o.tlv.value = o.value from rfl, hpos]
    refine Run.bind_eq_ok.mpr ⟨_, hlayout.walk_eq oc _ _, ?_⟩
    rw [hlayout.items_eq]
    simp only [Run.bind_eq_ok]
    exact ⟨vName, hName, vAddress, hAddress, vDate, hDate, vSex, hSex, (),
      (checkTable_foldl_eq_ok_iff _ _ _ _).mpr hfits, name, hname, address, haddress, date, hdate,
      sex, hsex, ha⟩

/-- The four values are there and decode, and the table states the positions counted from `pos` or
those counted from `pos'`. -/
def SeenAtEither (objs : List Obj) (pos pos' : ℕ) : Prop :=
  (∃ a, ofFields (fieldsOf (some 0xDF21) objs) = .ok a) ∧
    ∃ table ∈ (tables (some 0xDF21) objs).getLast?,
      Indexes table.value (startsFrom (some 0xDF21) pos objs) ∨
        Indexes table.value (startsFrom (some 0xDF21) pos' objs)

/-- Values that decode come from objects that have positions. -/
theorem startsFrom_ne_nil {objs : List Obj} {a : Attributes}
    (h : ofFields (fieldsOf (some 0xDF21) objs) = .ok a) (pos : ℕ) :
    startsFrom (some 0xDF21) pos objs ≠ [] := by
  intro hnil
  unfold ofFields at h
  obtain ⟨v, hv, -⟩ := Run.bind_eq_ok.mp h
  obtain ⟨o, ho, -⟩ := (TlvFields.get_eq_ok_iff (rfl : (fieldsOf (some 0xDF21) objs).items = _)).mp hv
  have hpoints := startsFrom_points (some 0xDF21) (List.replicate pos 0) [] objs
  rw [List.length_replicate, hnil] at hpoints
  cases hfilter : objs.filter fun o => some o.tag ≠ some 0xDF21 with
  | nil =>
    rw [hfilter] at ho
    cases ho
  | cons p ps =>
    rw [hfilter] at hpoints
    cases hpoints

/-- One table does not state two sets of positions. -/
theorem not_indexes_both {objs : List Obj} {a : Attributes}
    (h : ofFields (fieldsOf (some 0xDF21) objs) = .ok a) {pos n : ℕ} (hn : n ≠ 0) {table : Bytes}
    (h1 : Indexes table (startsFrom (some 0xDF21) pos objs))
    (h2 : Indexes table (startsFrom (some 0xDF21) (pos + n) objs)) : False := by
  obtain ⟨start, starts, hstarts⟩ := List.exists_cons_of_ne_nil (startsFrom_ne_nil h pos)
  rw [startsFrom_add, hstarts, List.map_cons] at h2
  rw [hstarts] at h1
  have e1 := h1.2 0 (by simp)
  have e2 := h2.2 0 (by simp)
  rw [List.getElem_cons_zero] at e1 e2
  omega

/-- Counting from `pos` and counting from `n` bytes further are the same, unless the table states
one of the two. -/
theorem alike_iff (objs : List Obj) (pos : ℕ) {n : ℕ} (hn : n ≠ 0) :
    (∀ a, (TableFits (some 0xDF21) (pos + n) objs ∧ ofFields (fieldsOf (some 0xDF21) objs) = .ok a) ↔
        (TableFits (some 0xDF21) pos objs ∧ ofFields (fieldsOf (some 0xDF21) objs) = .ok a)) ↔
      ¬ SeenAtEither objs pos (pos + n) := by
  constructor
  · rintro halike ⟨⟨a, ha⟩, table, htable, hindexes⟩
    have hfits : ∀ {p}, TableFits (some 0xDF21) p objs ↔
        Indexes table.value (startsFrom (some 0xDF21) p objs) := by
      intro p
      refine ⟨fun h => h table htable, fun h table' htable' => ?_⟩
      obtain rfl := Option.mem_unique htable htable'
      exact h
    have hsame := halike a
    rw [hfits, hfits] at hsame
    rcases hindexes with h1 | h2
    · exact not_indexes_both ha hn h1 (hsame.mpr ⟨h1, ha⟩).1
    · exact not_indexes_both ha hn (hsame.mp ⟨h2, ha⟩).1 h2
  · intro hunseen a
    refine and_congr_left fun ha => ?_
    have hneither : ∀ table ∈ (tables (some 0xDF21) objs).getLast?,
        ¬ Indexes table.value (startsFrom (some 0xDF21) pos objs) ∧
          ¬ Indexes table.value (startsFrom (some 0xDF21) (pos + n) objs) := by
      intro table htable
      exact not_or.mp fun h => hunseen ⟨⟨a, ha⟩, table, htable, h⟩
    exact forall₂_congr fun table htable =>
      iff_of_false (hneither table htable).2 (hneither table htable).1

variable {oc : OverflowChecks} {raw post : Bytes} {o : Obj} {objs : List Obj} {a : Attributes}

theorem parse_eq_ok_iff_of_layout (h : Layout raw o objs post) (htag : o.tag = 0xFF20) :
    parse oc raw = .ok a ↔ TableFits (some 0xDF21) (o.hdr.length + post.length) objs ∧
      ofFields (fieldsOf (some 0xDF21) objs) = .ok a :=
  parse_eq_ok_iff.trans (h.exists_iff htag)

theorem tlvFields_eq_ok_iff_of_layout (h : Layout raw o objs post) (htag : o.tag = 0xFF20) :
    (∃ f, TlvFields.parse oc raw 0xFF20 (some 0xDF21) = .ok f ∧ ofFields f = .ok a) ↔
      TableFits (some 0xDF21) o.hdr.length objs ∧
        ofFields (fieldsOf (some 0xDF21) objs) = .ok a := by
  have hparse : ∀ f, TlvFields.parse oc raw 0xFF20 (some 0xDF21) = .ok f ↔
      TableFits (some 0xDF21) o.hdr.length objs ∧ f = fieldsOf (some 0xDF21) objs :=
    fun f => TlvFields.parse_eq_ok_iff.trans (h.exists_iff htag)
  constructor
  · rintro ⟨f, hf, hfields⟩
    obtain ⟨hfits, rfl⟩ := (hparse f).mp hf
    exact ⟨hfits, hfields⟩
  · rintro ⟨hfits, hfields⟩
    exact ⟨_, (hparse _).mpr ⟨hfits, rfl⟩, hfields⟩

/-- Without a layout neither walk gets through. -/
theorem both_fail (h : ∀ o objs post, Layout raw o objs post → o.tag ≠ 0xFF20) (a : Attributes) :
    parse oc raw ≠ .ok a ∧
      ¬ ∃ f, TlvFields.parse oc raw 0xFF20 (some 0xDF21) = .ok f ∧ ofFields f = .ok a := by
  constructor
  · intro hparse
    obtain ⟨o, objs, post, hlayout, htag, -⟩ := parse_eq_ok_iff.mp hparse
    exact h o objs post hlayout htag
  · rintro ⟨f, hparse, -⟩
    obtain ⟨o, objs, post, hlayout, htag, -⟩ := TlvFields.parse_eq_ok_iff.mp hparse
    exact h o objs post hlayout htag

/-- A file has a layout under `FF20`, or none at all. -/
theorem exists_layout_or (raw : Bytes) :
    (∃ o objs post, Layout raw o objs post ∧ o.tag = 0xFF20) ∨
      ∀ o objs post, Layout raw o objs post → o.tag ≠ 0xFF20 := by
  by_cases h : ∃ o objs post, Layout raw o objs post ∧ o.tag = 0xFF20
  · exact Or.inl h
  · exact Or.inr fun o objs post hlayout htag => h ⟨o, objs, post, hlayout, htag⟩

/-- The two walks on one file. -/
theorem tlvFields_alike_iff (oc : OverflowChecks) (raw : Bytes) :
    (∀ a, parse oc raw = .ok a ↔
        ∃ f, TlvFields.parse oc raw 0xFF20 (some 0xDF21) = .ok f ∧ ofFields f = .ok a) ↔
      ¬ ∃ o objs post, Layout raw o objs post ∧ o.tag = 0xFF20 ∧ post ≠ [] ∧
        SeenAtEither objs o.hdr.length (o.hdr.length + post.length) := by
  rcases exists_layout_or raw with ⟨o, objs, post, hlayout, htag⟩ | hnone
  · rw [hlayout.exists_iff htag]
    simp only [parse_eq_ok_iff_of_layout hlayout htag, tlvFields_eq_ok_iff_of_layout hlayout htag]
    by_cases hpost : post = []
    · rw [hpost]
      simp
    · rw [alike_iff objs _ (fun h => hpost (List.length_eq_zero_iff.mp h))]
      simp [hpost]
  · refine iff_of_true (fun a => iff_of_false (both_fail hnone a).1 (both_fail hnone a).2) ?_
    rintro ⟨o, objs, post, hlayout, htag, -⟩
    exact hnone o objs post hlayout htag

/-- `Attributes::parse` on one file with and without more bytes behind it. -/
theorem append_alike_iff {outer : Tlv} (houter : Ber.parse oc raw = .ok outer) (s : Bytes) :
    (∀ a, parse oc (raw ++ s) = .ok a ↔ parse oc raw = .ok a) ↔
      ¬ ∃ o objs post, Layout raw o objs post ∧ o.tag = 0xFF20 ∧ s ≠ [] ∧
        SeenAtEither objs (o.hdr.length + post.length)
          (o.hdr.length + post.length + s.length) := by
  rcases exists_layout_or raw with ⟨o, objs, post, hlayout, htag⟩ | hnone
  · rw [hlayout.exists_iff htag]
    simp only [parse_eq_ok_iff_of_layout hlayout htag,
      parse_eq_ok_iff_of_layout (hlayout.append s) htag, List.length_append, ← Nat.add_assoc]
    by_cases hs : s = []
    · rw [hs]
      simp
    · rw [alike_iff objs _ (fun h => hs (List.length_eq_zero_iff.mp h))]
      simp [hs]
  · have hnone' : ∀ o objs post, Layout (raw ++ s) o objs post → o.tag ≠ 0xFF20 := by
      intro o objs post hlayout
      obtain ⟨post', hlayout'⟩ := hlayout.of_append houter
      exact hnone o objs post' hlayout'
    refine iff_of_true (fun a => iff_of_false (both_fail hnone' a).1 (both_fail hnone a).1) ?_
    rintro ⟨o, objs, post, hlayout, htag, -⟩
    exact hnone o objs post hlayout htag

/-- **The two walks accept the same files with the same values, unless bytes follow the outer object
and the table states the positions that one of the two counts.** The second half says the same of a
file with and without the bytes `s` behind it, both read by `Attributes::parse`. -/
theorem attributes_alike_iff (oc : OverflowChecks) :
    (∀ raw, (∀ a, parse oc raw = .ok a ↔
        ∃ f, TlvFields.parse oc raw 0xFF20 (some 0xDF21) = .ok f ∧ ofFields f = .ok a) ↔
      ¬ ∃ o objs post, Layout raw o objs post ∧ o.tag = 0xFF20 ∧ post ≠ [] ∧
        SeenAtEither objs o.hdr.length (o.hdr.length + post.length)) ∧
    ∀ raw s outer, Ber.parse oc raw = .ok outer →
      ((∀ a, parse oc (raw ++ s) = .ok a ↔ parse oc raw = .ok a) ↔
        ¬ ∃ o objs post, Layout raw o objs post ∧ o.tag = 0xFF20 ∧ s ≠ [] ∧
          SeenAtEither objs (o.hdr.length + post.length)
            (o.hdr.length + post.length + s.length)) :=
  ⟨tlvFields_alike_iff oc, fun _ s _ houter => append_alike_iff houter s⟩

/-- One byte of filler behind the file, and `Attributes::parse` rejects it for the table that
`TlvFields::parse` finds right. -/
theorem attributes_not_alike :
    parse .on attributesFile = .ok ⟨"A", "B", ⟨1980, 2, 17⟩, .male⟩ ∧
      (∀ a, parse .on (attributesFile ++ [0xFF]) ≠ .ok a) ∧
      ∃ f, TlvFields.parse .on (attributesFile ++ [0xFF]) 0xFF20 (some 0xDF21) = .ok f ∧
        ofFields f = .ok ⟨"A", "B", ⟨1980, 2, 17⟩, .male⟩ := by
  refine ⟨by decide +kernel, ?_, ?_⟩
  · intro a h
    have hfail : (parse .on (attributesFile ++ [0xFF])).toOption = none := by decide +kernel
    rw [h] at hfail
    cases hfail
  · exact ⟨attributesFields, by decide +kernel, by decide +kernel⟩

end Text.Attributes

end MynaCard
