import MynaCard.BerGrammar

/-!
# The data files of the two display applications

`TlvFields` of `data.rs`: an outer object, a walk over the fields inside it that stops at filler,
and an optional table of offsets that is checked against where the walk found the fields. The same
walk, with its accumulators, is in `Attributes::parse` of `ap/text.rs`.

The specification of the walk is `walk_eq_ok_iff`: the fields are the objects of a decomposition of
the outer value into objects in front of filler, and there is only one such decomposition.
-/

namespace MynaCard

open Ber

/-- A field: tag, value, and the object's own bytes including its header. -/
structure Field where
  tag : ℕ
  value : Bytes
  raw : Bytes
  deriving DecidableEq, Repr

/-- The field an object is read as. -/
def Field.ofObj (o : Obj) : Field := ⟨o.tag, o.value, o.raw⟩

/-! ### The offset table -/

/-- The loop of `check_offsets`, from entry `i` on. -/
def checkEntries : ℕ → Bytes → List ℕ → Run Unit
  | i, hi :: lo :: table, start :: starts =>
    let declared := (u16OfBytes hi lo).toNat
    if declared ≠ start then
      malformed (s!"offset {i} says 0x{hexUpper 4 declared} but the object starts at " ++
        s!"0x{hexUpper 4 start}")
    else checkEntries (i + 1) table starts
  | _, _, _ => .ok ()

/-- `check_offsets`. The file itself is not looked at. -/
def checkOffsets (table : Bytes) (starts : List ℕ) : Run Unit :=
  if table.length ≠ starts.length * 2 then
    malformed s!"offset table is {table.length} bytes for {starts.length} objects"
  else checkEntries 0 table starts

/-! ### The walk -/

/-- The accumulators of the walk. -/
structure Walk where
  pos : ℕ
  rest : Bytes
  offsets : Option Bytes
  items : List Field
  starts : List ℕ
  deriving DecidableEq, Repr

/-- The text of a field whose value is not all there. -/
def fieldTooLong : String := "a field runs past the end of the file"

/-- The accumulators after one field of `n` bytes. -/
def Walk.push (offsetTable : Option ℕ) (w : Walk) (n : ℕ) (t : Tlv) : Walk :=
  if some t.tag = offsetTable then
    { w with pos := w.pos + n, rest := w.rest.drop n, offsets := some t.value }
  else
    { pos := w.pos + n, rest := w.rest.drop n, offsets := w.offsets,
      items := w.items ++ [⟨t.tag, t.value, w.rest.take n⟩], starts := w.starts ++ [w.pos] }

theorem Walk.push_rest (offsetTable : Option ℕ) (w : Walk) (n : ℕ) (t : Tlv) :
    (w.push offsetTable n t).rest = w.rest.drop n := by
  unfold Walk.push
  split <;> rfl

/-- The loop over the fields. -/
@[semireducible] def walk (oc : OverflowChecks) (offsetTable : Option ℕ) (w : Walk) : Run Walk :=
  match w.rest with
  | [] => .ok w
  | first :: _ =>
    if isFiller first then .ok w
    else match _h : objectAt oc fieldTooLong w.rest with
      | .error e => .error e
      | .ok (n, t) => walk oc offsetTable (w.push offsetTable n t)
termination_by w.rest.length
decreasing_by
  have := objectAt_le _h
  rw [Walk.push_rest, List.length_drop]
  omega

theorem walk_startsFiller (oc : OverflowChecks) (offsetTable : Option ℕ) {w : Walk}
    (h : StartsFiller w.rest) : walk oc offsetTable w = .ok w := by
  rw [walk]
  split
  · rfl
  · rename_i first tail hrest
    rw [if_pos (h first (by rw [hrest]; rfl))]

theorem walk_step (oc : OverflowChecks) (offsetTable : Option ℕ) {w : Walk}
    (h : ¬ StartsFiller w.rest) :
    walk oc offsetTable w =
      match objectAt oc fieldTooLong w.rest with
      | .error e => .error e
      | .ok (n, t) => walk oc offsetTable (w.push offsetTable n t) := by
  rw [walk]
  split
  · rename_i hrest
    exact absurd (hrest ▸ startsFiller_nil) h
  · rename_i first tail hrest
    have hfirst : isFiller first = false := by
      by_contra hf
      apply h
      intro b hb
      rw [hrest] at hb
      obtain rfl : first = b := Option.some.inj hb
      simpa using hf
    rw [hfirst, if_neg (by simp)]
    split <;> rename_i heq <;> rw [heq]

/-- The accumulators after one object. -/
def Walk.pushObj (offsetTable : Option ℕ) (w : Walk) (o : Obj) : Walk :=
  w.push offsetTable o.raw.length o.tlv

/-- **The walk reads the objects in front of the filler.** -/
theorem walk_eq_ok_iff {oc : OverflowChecks} {offsetTable : Option ℕ} {w w' : Walk} :
    walk oc offsetTable w = .ok w' ↔
      ∃ objs tail, w.rest = concat objs ++ tail ∧ StartsFiller tail ∧
        (∀ o ∈ objs, o.NotFiller ∧ o.raw.length < usizeSize) ∧
        w' = objs.foldl (Walk.pushObj offsetTable) w := by
  refine ⟨?_, ?_⟩
  · intro h
    by_cases hfill : StartsFiller w.rest
    · rw [walk_startsFiller oc offsetTable hfill] at h
      exact ⟨[], w.rest, rfl, hfill, by simp, (Except.ok.inj h).symm⟩
    · rw [walk_step oc offsetTable hfill] at h
      split at h
      · cases h
      · rename_i n t hobj
        obtain ⟨hn, hlen⟩ := objectAt_le hobj
        obtain ⟨o, post, hrest, hsize, rfl, rfl⟩ := objectAt_eq_ok_iff.mp hobj
        obtain ⟨objs, tail, hpost, htail, hobjs, rfl⟩ := walk_eq_ok_iff.mp h
        rw [Walk.push_rest, hrest, List.drop_left] at hpost
        refine ⟨o :: objs, tail, ?_, htail, ?_, rfl⟩
        · rw [hrest, hpost, concat_cons, List.append_assoc]
        · intro p hp
          rcases List.mem_cons.mp hp with rfl | hp
          · refine ⟨?_, hsize⟩
            intro b hb
            by_contra hf
            apply hfill
            intro b' hb'
            obtain ⟨c, cs, hraw⟩ := p.exists_raw_eq_cons
            rw [hrest, hraw] at hb'
            rw [hraw] at hb
            obtain rfl : b = b' := Option.some.inj (hb.symm.trans hb')
            simpa using hf
          · exact hobjs p hp
  · rintro ⟨objs, tail, hrest, htail, hobjs, rfl⟩
    induction objs generalizing w with
    | nil =>
      rw [concat_nil, List.nil_append] at hrest
      exact walk_startsFiller oc offsetTable (hrest ▸ htail)
    | cons o objs ih =>
      obtain ⟨hplain, hsize⟩ := hobjs o List.mem_cons_self
      rw [concat_cons, List.append_assoc] at hrest
      rw [walk_step oc offsetTable (hrest ▸ hplain.not_startsFiller _)]
      have hobj := objectAt_raw_append oc fieldTooLong o hsize (concat objs ++ tail)
      rw [hrest, hobj]
      simp only
      exact ih (by rw [Walk.push_rest, hrest, List.drop_left])
        (fun p hp => hobjs p (List.mem_cons_of_mem _ hp))
termination_by w.rest.length
decreasing_by
  rw [Walk.push_rest, List.length_drop]
  omega

/-- The fields the walk adds: one for each object that is not an offset table. -/
theorem foldl_pushObj_items (offsetTable : Option ℕ) (objs : List Obj) {w : Walk} {tail : Bytes}
    (hrest : w.rest = concat objs ++ tail) :
    (objs.foldl (Walk.pushObj offsetTable) w).items =
      w.items ++ (objs.filter fun o => some o.tag ≠ offsetTable).map Field.ofObj := by
  induction objs generalizing w with
  | nil => simp
  | cons o objs ih =>
    rw [concat_cons, List.append_assoc] at hrest
    have hnext : (w.pushObj offsetTable o).rest = concat objs ++ tail := by
      rw [Walk.pushObj, Walk.push_rest, hrest, List.drop_left]
    rw [List.foldl_cons, ih hnext]
    by_cases htag : some o.tag = offsetTable
    · simp [Walk.pushObj, Walk.push, Obj.tlv, htag]
    · simp [Walk.pushObj, Walk.push, Obj.tlv, htag, hrest, Field.ofObj]

theorem foldl_pushObj_offsets_none (objs : List Obj) (w : Walk) :
    (objs.foldl (Walk.pushObj none) w).offsets = w.offsets := by
  induction objs generalizing w with
  | nil => rfl
  | cons o objs ih => exact ih _

/-! ### The fields of a file -/

/-- `TlvFields`. -/
structure TlvFields where
  items : List Field
  deriving DecidableEq, Repr

namespace TlvFields

/-- The table is checked only when the file has one. -/
def checkTable (w : Walk) : Run Unit :=
  match w.offsets with
  | some table => checkOffsets table w.starts
  | none => .ok ()

/-- `TlvFields::parse`. -/
def parse (oc : OverflowChecks) (raw : Bytes) (expectedTag : ℕ) (offsetTable : Option ℕ) :
    Run TlvFields := do
  let outer ← Ber.parse oc raw
  if outer.tag ≠ expectedTag then
    malformed s!"expected tag {hexUpper 4 expectedTag}, got {hexUpper 4 outer.tag}"
  else do
    let header ← Ber.parseHeader raw
    let w ← walk oc offsetTable ⟨header.headerLen, outer.value, none, [], []⟩
    checkTable w
    pure ⟨w.items⟩

/-- The text of a lookup that finds nothing. -/
def noField (tag : ℕ) : String := s!"no field with tag {hexUpper 4 tag}"

/-- `TlvFields::get`: the value of the first field with the tag. -/
def get (f : TlvFields) (tag : ℕ) : Run Bytes :=
  orMalformed (noField tag) ((f.items.find? fun i => i.tag = tag).map Field.value)

/-- `TlvFields::bytes_before`: every object before the first one with the tag, as written. -/
def bytesBefore (f : TlvFields) (tag : ℕ) : Run Bytes :=
  orMalformed (noField tag)
    ((f.items.findIdx? fun i => i.tag = tag).map fun stop => (f.items.take stop).flatMap Field.raw)

/-- `TlvFields::bytes_of`: the named objects concatenated, as written. -/
def bytesOf (f : TlvFields) : List ℕ → Run Bytes
  | [] => .ok []
  | tag :: tags => do
    let raw ← orMalformed (noField tag) ((f.items.find? fun i => i.tag = tag).map Field.raw)
    let rest ← f.bytesOf tags
    pure (raw ++ rest)

/-- The file as it decomposes: the outer object, and inside it objects in front of filler. -/
structure Decomposed (raw : Bytes) (expectedTag : ℕ) (objs : List Obj) : Prop where
  outer : ∃ (o : Obj) (tail post : Bytes), raw = o.raw ++ post ∧ o.raw.length < usizeSize ∧
    o.tag = expectedTag ∧ o.value = concat objs ++ tail ∧ StartsFiller tail
  plain : ∀ o ∈ objs, o.NotFiller

/-- The objects of a file take up no more than the file. -/
theorem Decomposed.concat_length_le {raw : Bytes} {tag : ℕ} {objs : List Obj}
    (h : Decomposed raw tag objs) : (concat objs).length ≤ raw.length := by
  obtain ⟨⟨o, tail, post, hraw, -, -, hval, -⟩, -⟩ := h
  rw [hraw, List.length_append, Obj.raw_length, hval, List.length_append]
  omega

/-- What the parser accepts, whatever it does about an offset table: the outer object with the
expected tag, and inside it objects in front of filler. -/
theorem exists_decomposed {oc : OverflowChecks} {raw : Bytes} {tag : ℕ} {table : Option ℕ}
    {f : TlvFields} (h : parse oc raw tag table = .ok f) :
    ∃ objs, Decomposed raw tag objs ∧
      f.items = (objs.filter fun o => some o.tag ≠ table).map Field.ofObj := by
  unfold parse at h
  obtain ⟨outer, houter, h⟩ := Run.bind_eq_ok.mp h
  split at h
  · cases h
  rename_i htag
  obtain ⟨header, hheader, h⟩ := Run.bind_eq_ok.mp h
  obtain ⟨w, hwalk, h⟩ := Run.bind_eq_ok.mp h
  obtain ⟨-, -, h⟩ := Run.bind_eq_ok.mp h
  cases h
  obtain ⟨o, post, hraw, hsize, rfl⟩ := parse_eq_ok_iff.mp houter
  obtain ⟨objs, tail, hval, htail, hobjs, rfl⟩ := walk_eq_ok_iff.mp hwalk
  refine ⟨objs, ⟨⟨o, tail, post, hraw, hsize, not_not.mp htag, hval, htail⟩,
    fun p hp => (hobjs p hp).1⟩, ?_⟩
  rw [foldl_pushObj_items table objs hval, List.nil_append]

/-- **Without an offset table the parser accepts exactly the files that decompose.** -/
theorem parse_none_eq_ok_iff {oc : OverflowChecks} {raw : Bytes} {tag : ℕ} {f : TlvFields} :
    parse oc raw tag none = .ok f ↔
      ∃ objs, Decomposed raw tag objs ∧ f.items = objs.map Field.ofObj := by
  refine ⟨?_, ?_⟩
  · intro h
    obtain ⟨objs, hd, hitems⟩ := exists_decomposed h
    exact ⟨objs, hd, by simpa using hitems⟩
  · rintro ⟨objs, ⟨⟨o, tail, post, rfl, hsize, rfl, hval, htail⟩, hplain⟩, hitems⟩
    have hsizes : ∀ p ∈ objs, p.NotFiller ∧ p.raw.length < usizeSize := by
      intro p hp
      refine ⟨hplain p hp, ?_⟩
      have h1 := length_le_concat hp
      have h2 := congrArg List.length hval
      rw [List.length_append] at h2
      rw [Obj.raw_length] at hsize
      omega
    unfold parse
    refine Run.bind_eq_ok.mpr ⟨o.tlv, parse_raw_append oc o hsize post, ?_⟩
    rw [if_neg (by simp [Obj.tlv])]
    refine Run.bind_eq_ok.mpr ⟨_, o.parseHeader_raw_append post, ?_⟩
    refine Run.bind_eq_ok.mpr ⟨_, walk_eq_ok_iff.mpr ⟨objs, tail, hval, htail, hsizes, rfl⟩, ?_⟩
    refine Run.bind_eq_ok.mpr ⟨(), ?_, ?_⟩
    · unfold checkTable
      rw [foldl_pushObj_offsets_none]
    · obtain ⟨items⟩ := f
      simp only at hitems
      rw [foldl_pushObj_items none objs hval, hitems]
      simp [pure, Except.pure]

/-! ### Looking fields up -/

variable {f : TlvFields} {objs : List Obj}

theorem get_eq_ok_iff (hitems : f.items = objs.map Field.ofObj) {tag : ℕ} {v : Bytes} :
    f.get tag = .ok v ↔ ∃ o, objs.find? (fun o => o.tag = tag) = some o ∧ o.value = v := by
  rw [get, orMalformed_eq_ok, hitems, List.find?_map, Option.map_map]
  simp only [Option.map_eq_some_iff]
  rfl

theorem bytesOf_cons_eq_ok_iff (hitems : f.items = objs.map Field.ofObj) {tag : ℕ}
    {tags : List ℕ} {b : Bytes} :
    f.bytesOf (tag :: tags) = .ok b ↔ ∃ o rest, objs.find? (fun o => o.tag = tag) = some o ∧
      f.bytesOf tags = .ok rest ∧ b = o.raw ++ rest := by
  have hfind : (f.items.find? fun i => i.tag = tag).map Field.raw =
      (objs.find? fun o => o.tag = tag).map Obj.raw := by
    rw [hitems, List.find?_map, Option.map_map]
    rfl
  rw [bytesOf, hfind, Run.bind_eq_ok]
  constructor
  · rintro ⟨raw, hraw, h⟩
    obtain ⟨rest, hrest, h⟩ := Run.bind_eq_ok.mp h
    obtain ⟨o, ho, rfl⟩ := Option.map_eq_some_iff.mp (orMalformed_eq_ok.mp hraw)
    exact ⟨o, rest, ho, hrest, (Except.ok.inj h).symm⟩
  · rintro ⟨o, rest, ho, hrest, rfl⟩
    refine ⟨o.raw, orMalformed_eq_ok.mpr (by rw [ho]; rfl), ?_⟩
    exact Run.bind_eq_ok.mpr ⟨rest, hrest, rfl⟩

/-- What comes before the first object with a tag, with the object itself. -/
theorem bytesBefore_eq_ok_iff (hitems : f.items = objs.map Field.ofObj) {tag : ℕ} {b : Bytes} :
    f.bytesBefore tag = .ok b ↔ ∃ pre o post, objs = pre ++ o :: post ∧
      (∀ p ∈ pre, p.tag ≠ tag) ∧ o.tag = tag ∧ b = concat pre := by
  have hraws : ∀ l : List Obj, (l.map Field.ofObj).flatMap Field.raw = concat l := by
    intro l
    rw [List.flatMap_map, concat, List.flatMap_def]
    rfl
  rw [bytesBefore, orMalformed_eq_ok, hitems, List.findIdx?_map]
  simp only [Option.map_eq_some_iff]
  constructor
  · rintro ⟨n, hn, rfl⟩
    obtain ⟨hlt, htag, hpre⟩ := List.findIdx?_eq_some_iff_getElem.mp hn
    refine ⟨objs.take n, objs[n], objs.drop (n + 1), ?_, ?_, ?_, ?_⟩
    · rw [List.getElem_cons_drop, List.take_append_drop]
    · intro p hp
      obtain ⟨i, hi, rfl⟩ := List.getElem_of_mem hp
      rw [List.length_take] at hi
      rw [List.getElem_take]
      intro heq
      exact hpre i (by omega) (decide_eq_true heq)
    · simpa [Field.ofObj] using of_decide_eq_true htag
    · rw [← List.map_take, hraws]
  · rintro ⟨pre, o, post, rfl, hpre, htag, rfl⟩
    refine ⟨pre.length, ?_, ?_⟩
    · rw [List.findIdx?_eq_some_iff_getElem]
      refine ⟨by simp, ?_, ?_⟩
      · rw [List.getElem_append_right (le_refl _)]
        refine decide_eq_true ?_
        simpa [Field.ofObj] using htag
      · intro j hj heq
        refine hpre pre[j] (List.getElem_mem hj) ?_
        simpa [List.getElem_append_left hj, Field.ofObj] using of_decide_eq_true heq
    · rw [← List.map_take, List.take_left, hraws]

end TlvFields

end MynaCard
