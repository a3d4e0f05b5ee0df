import MynaCard.BerWriter
import MynaCard.OffsetTables

/-!
# Data files written

A data file is written as fields in an outer object, with filler behind them, and may begin with a
table of where its fields are. Here is what `TlvFields` makes of such a file, whatever lengths are
written like and whatever follows the file: its fields (`parse_file`), also behind a table
(`parse_indexed`), and of these the value of a field, the bytes of one and what is in front of one.
-/

namespace MynaCard

open Ber

/-! ### Tables of positions -/

/-- Where pieces of these lengths begin, the first of them at `pos`. -/
def piecesFrom : ℕ → List ℕ → List ℕ
  | _, [] => []
  | pos, n :: lengths => pos :: piecesFrom (pos + n) lengths

/-- A table that states positions. -/
def tableOf (starts : List ℕ) : Bytes := starts.flatMap fun start => u16Bytes (UInt16.ofNat start)

@[simp] theorem piecesFrom_length (pos : ℕ) (lengths : List ℕ) :
    (piecesFrom pos lengths).length = lengths.length := by
  induction lengths generalizing pos with
  | nil => rfl
  | cons n lengths ih => rw [piecesFrom, List.length_cons, ih, List.length_cons]

/-- The last piece begins no later than the pieces end. -/
theorem le_of_mem_piecesFrom {pos start : ℕ} {lengths : List ℕ}
    (h : start ∈ piecesFrom pos lengths) : start ≤ pos + lengths.sum := by
  induction lengths generalizing pos with
  | nil => cases h
  | cons n lengths ih =>
    rw [List.sum_cons]
    obtain rfl | h := List.mem_cons.mp h
    · omega
    · have hrest := ih h
      omega

/-- Positions that two bytes can state are stated by their table. -/
theorem indexes_tableOf {starts : List ℕ} (h : ∀ start ∈ starts, start < 65536) :
    Indexes (tableOf starts) starts := by
  induction starts with
  | nil => exact ⟨rfl, fun i hi => absurd hi (Nat.not_lt_zero i)⟩
  | cons start starts ih =>
    have hstart := h start List.mem_cons_self
    refine indexes_cons_iff.mpr ⟨?_, ih fun s hs => h s (List.mem_cons_of_mem _ hs)⟩
    rw [u16OfBytes_u16Bytes, UInt16.toNat_ofNat']
    omega

theorem tableOf_length (starts : List ℕ) : (tableOf starts).length = 2 * starts.length := by
  induction starts with
  | nil => rfl
  | cons start starts ih =>
    have hcons : tableOf (start :: starts) = u16Bytes (UInt16.ofNat start) ++ tableOf starts := rfl
    rw [hcons, List.length_append, ih, u16Bytes_length, List.length_cons]
    omega

/-- Objects of which none is a table begin where pieces of their lengths do. -/
theorem startsFrom_eq_piecesFrom {offsetTable : Option ℕ} {objs : List Obj}
    (h : ∀ o ∈ objs, some o.tag ≠ offsetTable) (pos : ℕ) :
    startsFrom offsetTable pos objs = piecesFrom pos (objs.map fun o => o.raw.length) := by
  induction objs generalizing pos with
  | nil => rfl
  | cons o objs ih =>
    rw [startsFrom, if_neg (h o List.mem_cons_self),
      ih fun p hp => h p (List.mem_cons_of_mem _ hp)]
    rfl

theorem fieldsOf_eq (offsetTable : Option ℕ) (objs : List Obj) : fieldsOf offsetTable objs =
    ⟨(objs.map Field.ofObj).filter fun f => some f.tag ≠ offsetTable⟩ := by
  rw [List.filter_map]
  rfl

namespace Ber.Writer

variable (w : Writer)

/-! ### Files -/

/-- A field as it is read. -/
def field (f : ℕ × Bytes) : Field := ⟨f.1, f.2, w.object f.1 f.2⟩

/-- Fields as they are read. -/
def tlvFields (fields : List (ℕ × Bytes)) : TlvFields := ⟨fields.map w.field⟩

/-- Fields in an outer object, with filler behind them. -/
def file (tag : ℕ) (fields : List (ℕ × Bytes)) (filler : Bytes) : Bytes :=
  w.object tag (w.objects fields ++ filler)

/-- Tags that can be written, sizes that `usize` counts, and filler that begins as filler. -/
structure Writes (tag : ℕ) (fields : List (ℕ × Bytes)) (filler : Bytes) : Prop where
  tag_isTag : isTag tag = true
  field_isFieldTag : ∀ f ∈ fields, isFieldTag f.1 = true
  size : (w.file tag fields filler).length < usizeSize
  startsFiller : StartsFiller filler

variable {w} {tag tableTag : ℕ} {fields : List (ℕ × Bytes)} {filler : Bytes}

/-- The tags of a file's fields, in one list, can be looked through. -/
theorem Writes.of_tags (tags : List ℕ) (hfields : fields.map Prod.fst = tags)
    (htags : tags.all isFieldTag = true) (htag : isTag tag = true)
    (hsize : (w.file tag fields filler).length < usizeSize) (hfiller : StartsFiller filler) :
    w.Writes tag fields filler := by
  refine ⟨htag, ?_, hsize, hfiller⟩
  intro f hf
  exact List.all_eq_true.mp htags f.1 (hfields ▸ List.mem_map_of_mem hf)

/-- A field is smaller than its file. -/
theorem Writes.value_length_lt (h : w.Writes tag fields filler) {f : ℕ × Bytes} (hf : f ∈ fields) :
    f.2.length < usizeSize := by
  have hsize := h.size
  obtain ⟨before, after, rfl⟩ := List.append_of_mem hf
  rw [file, object_length, List.length_append, objects_append, objects_cons, List.length_append,
    List.length_append, object_length] at hsize
  omega

theorem Writes.exists_layout (h : w.Writes tag fields filler) (post : Bytes) :
    ∃ o objs, Layout (w.file tag fields filler ++ post) o objs post ∧ o.tag = tag ∧
      o.hdr = w.hdr tag (w.objects fields ++ filler).length ∧
      objs.map Field.ofObj = fields.map w.field := by
  obtain ⟨htag, htags, hsize, hfiller⟩ := h
  have hlen := hsize
  rw [file, object_length, List.length_append] at hlen
  obtain ⟨o, hraw, hhdr, hotag, hvalue⟩ :=
    w.exists_obj htag (w.objects fields ++ filler) (by rw [List.length_append]; omega)
  obtain ⟨objs, hconcat, hmap, hplain⟩ := w.exists_objs htags (by omega)
  refine ⟨o, objs, ⟨?_, ?_, ⟨filler, ?_, hfiller⟩, hplain⟩, hotag, hhdr, ?_⟩
  · rw [hraw]
    rfl
  · rw [hraw]
    exact hsize
  · rw [hvalue, hconcat]
  · have hfields := congrArg (List.map fun p : (ℕ × Bytes) × Bytes => Field.mk p.1.1 p.1.2 p.2) hmap
    rw [List.map_map, List.map_map] at hfields
    exact hfields

/-- **A file of fields is read as its fields**, whatever follows it, if none of them is a table. -/
theorem Writes.parse_file (h : w.Writes tag fields filler) (oc : OverflowChecks)
    {offsetTable : Option ℕ} (htable : ∀ f ∈ fields, some f.1 ≠ offsetTable) (post : Bytes) :
    TlvFields.parse oc (w.file tag fields filler ++ post) tag offsetTable =
      .ok (w.tlvFields fields) := by
  obtain ⟨o, objs, hlayout, htag, -, hmap⟩ := h.exists_layout post
  have hnone : ∀ f ∈ objs.map Field.ofObj, some f.tag ≠ offsetTable := by
    rw [hmap]
    intro f hf
    obtain ⟨g, hg, rfl⟩ := List.mem_map.mp hf
    exact htable g hg
  refine TlvFields.parse_eq_ok_iff.mpr ⟨o, objs, post, hlayout, htag, ?_, ?_⟩
  · intro table hmem
    have htables := List.mem_filter.mp (List.mem_of_getLast? hmem)
    exact absurd (of_decide_eq_true htables.2)
      (hnone _ (List.mem_map_of_mem (f := Field.ofObj) htables.1))
  · rw [fieldsOf_eq, List.filter_eq_self.mpr (by simpa using hnone), hmap]
    rfl

/-! ### Files that begin with a table -/

variable (w)

/-- Where the first field begins, behind the outer header and the table. -/
def firstField (tag tableTag : ℕ) (fields : List (ℕ × Bytes)) (filler : Bytes) : ℕ :=
  let table := (w.hdr tableTag (2 * fields.length)).length + 2 * fields.length
  (w.hdr tag (table + (w.objects fields ++ filler).length)).length + table

/-- Where the fields begin. -/
def positions (tag tableTag : ℕ) (fields : List (ℕ × Bytes)) (filler : Bytes) : List ℕ :=
  piecesFrom (w.firstField tag tableTag fields filler)
    (fields.map fun f => (w.object f.1 f.2).length)

/-- The fields with their table in front. -/
def indexed (tag tableTag : ℕ) (fields : List (ℕ × Bytes)) (filler : Bytes) : List (ℕ × Bytes) :=
  (tableTag, tableOf (w.positions tag tableTag fields filler)) :: fields

variable {w}

theorem hdr_length_add_objects :
    (w.hdr tag (w.objects (w.indexed tag tableTag fields filler) ++ filler).length).length +
        (w.object tableTag (tableOf (w.positions tag tableTag fields filler))).length =
      w.firstField tag tableTag fields filler := by
  have htable : (tableOf (w.positions tag tableTag fields filler)).length = 2 * fields.length := by
    rw [tableOf_length, positions, piecesFrom_length, List.length_map]
  have hsize : (w.object tableTag (tableOf (w.positions tag tableTag fields filler))).length =
      (w.hdr tableTag (2 * fields.length)).length + 2 * fields.length := by
    rw [object_length, htable]
  rw [indexed, objects_cons, List.append_assoc, List.length_append, hsize]
  rfl

/-- The fields begin within the file. -/
theorem positions_le_file {start : ℕ} (h : start ∈ w.positions tag tableTag fields filler) :
    start ≤ (w.file tag (w.indexed tag tableTag fields filler) filler).length := by
  have hle := le_of_mem_piecesFrom h
  have hsum : (fields.map fun f => (w.object f.1 f.2).length).sum = (w.objects fields).length := by
    rw [objects, List.length_flatten, List.map_map]
    rfl
  have hobjects : w.objects (w.indexed tag tableTag fields filler) =
      w.object tableTag (tableOf (w.positions tag tableTag fields filler)) ++ w.objects fields := rfl
  rw [hsum, ← hdr_length_add_objects] at hle
  have hlength := congrArg List.length hobjects
  have htotal := @List.length_append _ (w.objects (w.indexed tag tableTag fields filler)) filler
  rw [List.length_append] at hlength
  rw [file, object_length]
  omega

/-- In a file with a table that states where its fields are, the fields and the table are objects
that fit each other. -/
theorem Writes.exists_layout_indexed
    (h : w.Writes tag (w.indexed tag tableTag fields filler) filler)
    (hfields : ∀ f ∈ fields, f.1 ≠ tableTag)
    (hstarts : ∀ start ∈ w.positions tag tableTag fields filler, start < 65536) (post : Bytes) :
    ∃ o objs,
      Layout (w.file tag (w.indexed tag tableTag fields filler) filler ++ post) o objs post ∧
        o.tag = tag ∧ TableFits (some tableTag) o.hdr.length objs ∧
        fieldsOf (some tableTag) objs = w.tlvFields fields := by
  obtain ⟨o, objs, hlayout, htag, hhdr, hmap⟩ := h.exists_layout post
  obtain ⟨table, rest, rfl, htable, hrest⟩ := List.map_eq_cons_iff.mp hmap
  obtain ⟨htableTag, htableValue, htableRaw⟩ := Field.mk.inj htable
  have hplain : ∀ f ∈ rest.map Field.ofObj, some f.tag ≠ some tableTag := by
    rw [hrest]
    intro f hf heq
    obtain ⟨g, hg, rfl⟩ := List.mem_map.mp hf
    exact hfields g hg (Option.some.inj heq)
  have hplain' : ∀ p ∈ rest, some p.tag ≠ some tableTag := fun p hp =>
    hplain _ (List.mem_map_of_mem (f := Field.ofObj) hp)
  refine ⟨o, table :: rest, hlayout, htag, ?_, ?_⟩
  · -- the table is the only one, and states where the others begin
    have htables : tables (some tableTag) (table :: rest) = [table] := by
      rw [tables, List.filter_cons_of_pos (by simp [htableTag]),
        List.filter_eq_nil_iff.mpr (by simpa using hplain')]
    have hlengths : rest.map (fun p => p.raw.length) =
        fields.map fun f => (w.object f.1 f.2).length := by
      have := congrArg (List.map fun f : Field => f.raw.length) hrest
      rwa [List.map_map, List.map_map] at this
    have hstart : o.hdr.length + table.raw.length = w.firstField tag tableTag fields filler := by
      rw [hhdr, htableRaw]
      exact hdr_length_add_objects
    intro t ht
    rw [htables] at ht
    obtain rfl : table = t := Option.some.inj ht
    rw [startsFrom, if_pos (by rw [htableTag]), startsFrom_eq_piecesFrom hplain', hlengths, hstart,
      htableValue]
    exact indexes_tableOf hstarts
  · rw [fieldsOf_eq, List.map_cons, htable, List.filter_cons_of_neg (by simp [field]),
      List.filter_eq_self.mpr (by simpa using hplain), hrest]
    rfl

/-- **A file that begins with the table of its fields is read as its fields**, whatever follows it. -/
theorem Writes.parse_indexed (h : w.Writes tag (w.indexed tag tableTag fields filler) filler)
    (hfields : ∀ f ∈ fields, f.1 ≠ tableTag)
    (hstarts : ∀ start ∈ w.positions tag tableTag fields filler, start < 65536)
    (oc : OverflowChecks) (post : Bytes) :
    TlvFields.parse oc (w.file tag (w.indexed tag tableTag fields filler) filler ++ post) tag
      (some tableTag) = .ok (w.tlvFields fields) := by
  obtain ⟨o, objs, hlayout, htag, hfits, heq⟩ := h.exists_layout_indexed hfields hstarts post
  exact TlvFields.parse_eq_ok_iff.mpr ⟨o, objs, post, hlayout, htag, hfits, heq.symm⟩

/-! ### Looking fields up -/

/-- The value of the first field with the tag. -/
theorem get_tlvFields (tag : ℕ) (fields : List (ℕ × Bytes)) :
    (w.tlvFields fields).get tag =
      orMalformed (TlvFields.noField tag) ((fields.find? fun f => f.1 = tag).map Prod.snd) := by
  rw [TlvFields.get, tlvFields, List.find?_map, Option.map_map]
  rfl

/-- What is in front of the first field with the tag. -/
theorem bytesBefore_tlvFields {before : List (ℕ × Bytes)} (h : ∀ f ∈ before, f.1 ≠ tag)
    (value : Bytes) (after : List (ℕ × Bytes)) :
    (w.tlvFields (before ++ (tag, value) :: after)).bytesBefore tag = .ok (w.objects before) := by
  have hbefore : ∀ f ∈ before.map w.field, f.tag ≠ tag := by
    intro f hf
    obtain ⟨g, hg, rfl⟩ := List.mem_map.mp hf
    exact h g hg
  have hindex : ((w.tlvFields (before ++ (tag, value) :: after)).items.findIdx? fun i => i.tag = tag) =
      some before.length := by
    rw [tlvFields, List.map_append, List.map_cons, List.findIdx?_append,
      List.findIdx?_eq_none_iff.mpr (by simpa using hbefore), List.findIdx?_cons]
    simp [field]
  rw [TlvFields.bytesBefore, hindex, Option.map_some, tlvFields, List.map_append,
    List.take_left' (by simp), List.flatMap_map]
  rfl

/-- A field whose tag no other has is the first with its tag. -/
theorem find?_of_nodup (hnodup : (fields.map Prod.fst).Nodup) {f : ℕ × Bytes} (hf : f ∈ fields) :
    (fields.find? fun g => g.1 = f.1) = some f := by
  induction fields with
  | nil => cases hf
  | cons g fields ih =>
    rw [List.map_cons, List.nodup_cons] at hnodup
    rcases List.mem_cons.mp hf with rfl | hf
    · exact List.find?_cons_of_pos (by simp)
    · have hne : g.1 ≠ f.1 := by
        intro heq
        exact hnodup.1 (heq ▸ List.mem_map_of_mem hf)
      rw [List.find?_cons_of_neg (by simpa using hne), ih hnodup.2 hf]

/-- The bytes of fields that are named, in the order they are named in. -/
theorem bytesOf_tlvFields (hnodup : (fields.map Prod.fst).Nodup) (group : List (ℕ × Bytes))
    (hgroup : group ⊆ fields) :
    (w.tlvFields fields).bytesOf (group.map Prod.fst) = .ok (w.objects group) := by
  induction group with
  | nil => rfl
  | cons g group ih =>
    obtain ⟨hg, hgroup⟩ := List.cons_subset.mp hgroup
    have hraw : ((w.tlvFields fields).items.find? fun i => i.tag = g.1).map Field.raw =
        some (w.object g.1 g.2) := by
      rw [tlvFields, List.find?_map, Option.map_map]
      show (fields.find? fun f => f.1 = g.1).map _ = _
      rw [find?_of_nodup hnodup hg]
      rfl
    rw [List.map_cons, TlvFields.bytesOf, hraw]
    exact Run.bind_eq_ok.mpr ⟨_, rfl, Run.bind_eq_ok.mpr ⟨_, ih hgroup, rfl⟩⟩

end Ber.Writer

end MynaCard
