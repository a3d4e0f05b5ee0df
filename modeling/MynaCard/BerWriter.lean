import MynaCard.BerGrammar

/-!
# Writing BER objects

The other direction of `BerGrammar`: objects as the issuer of a card writes them. The grammar leaves
open how a length is written, so a `Writer` is any choice of it, and `Writer.der` is the shortest
one. A tag is given by its number, which determines its bytes (`tagBytes`).

`exists_obj` and `exists_objs` say that what is written is objects, and so hand it to everything that
is known about reading them.
-/

namespace MynaCard.Ber

/-! ### Numbers without leading zeros -/

theorem bigEndian_dropWhile (bs : Bytes) : bigEndian (bs.dropWhile (· = 0)) = bigEndian bs := by
  induction bs with
  | nil => rfl
  | cons b bs ih =>
    by_cases hb : b = 0
    · rw [List.dropWhile_cons_of_pos (by simpa using hb), ih, bigEndian_cons, hb]
      simp
    · rw [List.dropWhile_cons_of_neg (by simpa using hb)]

/-- The fewest bytes a number can be written in, with none for zero. -/
def shortest (width n : ℕ) : Bytes := (beBytes width n).dropWhile (· = 0)

theorem bigEndian_shortest {width n : ℕ} (h : n < 256 ^ width) :
    bigEndian (shortest width n) = n := by
  rw [shortest, bigEndian_dropWhile, bigEndian_beBytes h]

theorem shortest_length_le (width n : ℕ) : (shortest width n).length ≤ width := by
  have hle := (List.dropWhile_suffix (fun b : UInt8 => decide (b = 0)) (l := beBytes width n)).length_le
  rw [beBytes_length] at hle
  exact hle

theorem shortest_ne_nil {width n : ℕ} (h : n < 256 ^ width) (hpos : n ≠ 0) :
    shortest width n ≠ [] := by
  intro hnil
  have hvalue := bigEndian_shortest h
  rw [hnil] at hvalue
  exact hpos hvalue.symm

/-! ### Tags by number -/

/-- The bytes of a tag. -/
def tagBytes (tag : ℕ) : Bytes := shortest 4 tag

/-- Bit 8 is set on all bytes of a tag's tail but the last. -/
def isTagTail : Bytes → Bool
  | [] => false
  | [b] => b &&& 0x80 = 0
  | b :: bs => b &&& 0x80 ≠ 0 && isTagTail bs

/-- The number is a tag's. -/
def isTag (tag : ℕ) : Bool :=
  tag < 256 ^ 4 &&
    match tagBytes tag with
    | [] => false
    | [b] => b &&& 0x1F ≠ 0x1F
    | b :: bs => b &&& 0x1F = 0x1F && isTagTail bs

/-- The number is the tag's of an object that is not taken for filler. -/
def isFieldTag (tag : ℕ) : Bool := isTag tag && (tagBytes tag).head?.all fun b => !isFiller b

theorem tagTail_of_isTagTail {bs : Bytes} (h : isTagTail bs = true) : TagTail bs := by
  induction bs with
  | nil => cases h
  | cons b bs ih =>
    cases bs with
    | nil => exact .last b (by simpa [isTagTail] using h)
    | cons c bs =>
      rw [isTagTail, Bool.and_eq_true] at h
      · exact .more b _ (by simpa using h.1) (ih h.2)
      · simp

theorem tagField_of_isTag {tag : ℕ} (h : isTag tag = true) :
    TagField (tagBytes tag) ∧ bigEndian (tagBytes tag) = tag := by
  rw [isTag, Bool.and_eq_true, decide_eq_true_eq] at h
  obtain ⟨hsize, hform⟩ := h
  have hlen : (tagBytes tag).length ≤ 4 := shortest_length_le 4 tag
  refine ⟨?_, bigEndian_shortest hsize⟩
  generalize tagBytes tag = bytes at hform hlen
  cases bytes with
  | nil => cases hform
  | cons b bs =>
    cases bs with
    | nil => exact .single b (by simpa using hform)
    | cons c bs =>
      rw [List.length_cons] at hlen
      simp only [Bool.and_eq_true, decide_eq_true_eq] at hform
      exact .multi b _ hform.1 (tagTail_of_isTagTail hform.2) (by omega)

theorem isTag_of_isFieldTag {tag : ℕ} (h : isFieldTag tag = true) : isTag tag = true :=
  (Bool.and_eq_true _ _ ▸ h).1

/-! ### Objects written -/

/-- How lengths are written: in any of the forms there are. -/
structure Writer where
  length : ℕ → Bytes
  length_wf : ∀ n < usizeSize, LengthField (length n) n

namespace Writer

/-- The shortest form of every length. -/
def shortestLength (n : ℕ) : Bytes :=
  if n < 0x80 then [UInt8.ofNat n]
  else UInt8.ofNat (0x80 + (shortest 8 n).length) :: shortest 8 n

theorem shortestLength_wf (n : ℕ) (hn : n < usizeSize) : LengthField (shortestLength n) n := by
  unfold usizeSize at hn
  unfold shortestLength
  by_cases hshort : n < 0x80
  · have hbyte : (UInt8.ofNat n).toNat = n := by
      rw [UInt8.toNat_ofNat']
      omega
    have h := LengthField.short (UInt8.ofNat n) (by rw [UInt8.lt_iff_toNat_lt, hbyte]; exact hshort)
    rw [hbyte] at h
    rwa [if_pos hshort]
  · have hfits : n < 256 ^ 8 := by omega
    have hle := shortest_length_le 8 n
    have hpos := List.length_pos_of_ne_nil (shortest_ne_nil hfits (by omega))
    have h := LengthField.long (UInt8.ofNat (0x80 + (shortest 8 n).length)) (shortest 8 n)
      (by rw [UInt8.toNat_ofNat']; omega) hpos hle
    rw [bigEndian_shortest hfits] at h
    rwa [if_neg hshort]

/-- The distinguished encoding. -/
def der : Writer := ⟨shortestLength, shortestLength_wf⟩

variable (w : Writer)

/-- A tag and a length. -/
def hdr (tag n : ℕ) : Bytes := tagBytes tag ++ w.length n

/-- An object. -/
def object (tag : ℕ) (value : Bytes) : Bytes := w.hdr tag value.length ++ value

/-- Objects one after the other, given by their tags and values. -/
def objects (fields : List (ℕ × Bytes)) : Bytes := (fields.map fun f => w.object f.1 f.2).flatten

theorem object_length (tag : ℕ) (value : Bytes) :
    (w.object tag value).length = (w.hdr tag value.length).length + value.length := by
  simp [object]

@[simp] theorem objects_cons (f : ℕ × Bytes) (fields : List (ℕ × Bytes)) :
    w.objects (f :: fields) = w.object f.1 f.2 ++ w.objects fields := rfl

@[simp] theorem objects_append (fs gs : List (ℕ × Bytes)) :
    w.objects (fs ++ gs) = w.objects fs ++ w.objects gs := by
  simp [objects]

/-- What is written under a tag is an object. -/
theorem exists_obj {tag : ℕ} (htag : isTag tag = true) (value : Bytes)
    (hsize : value.length < usizeSize) :
    ∃ o : Obj, o.raw = w.object tag value ∧ o.hdr = w.hdr tag value.length ∧ o.tag = tag ∧
      o.value = value := by
  obtain ⟨hfield, hnumber⟩ := tagField_of_isTag htag
  have hwf : IsHeader (w.hdr tag value.length) ⟨tag, value.length, (w.hdr tag value.length).length⟩ :=
    ⟨tagBytes tag, w.length value.length, rfl, hfield, w.length_wf _ hsize, hnumber.symm, rfl⟩
  exact ⟨⟨w.hdr tag value.length, tag, value, hwf⟩, rfl, rfl, rfl, rfl⟩

theorem head?_object {tag : ℕ} (htag : isTag tag = true) (value : Bytes) :
    (w.object tag value).head? = (tagBytes tag).head? := by
  obtain ⟨b, bs, hbytes⟩ := List.exists_cons_of_length_pos (tagField_of_isTag htag).1.length_pos
  rw [object, hdr, hbytes]
  rfl

/-- Fields that are written are objects in front of filler. -/
theorem exists_objs {fields : List (ℕ × Bytes)} (htags : ∀ f ∈ fields, isFieldTag f.1 = true)
    (hsize : (w.objects fields).length < usizeSize) :
    ∃ objs : List Obj, concat objs = w.objects fields ∧
      objs.map (fun o => ((o.tag, o.value), o.raw)) = fields.map (fun f => (f, w.object f.1 f.2)) ∧
      ∀ o ∈ objs, o.NotFiller := by
  induction fields with
  | nil => exact ⟨[], rfl, rfl, fun o ho => nomatch ho⟩
  | cons f fields ih =>
    rw [objects_cons, List.length_append, object_length] at hsize
    have hfield := htags f List.mem_cons_self
    obtain ⟨o, hraw, -, htag, hvalue⟩ := w.exists_obj (isTag_of_isFieldTag hfield) f.2 (by omega)
    obtain ⟨objs, hconcat, hmap, hplain⟩ := ih (fun g hg => htags g (List.mem_cons_of_mem _ hg))
      (by omega)
    refine ⟨o :: objs, ?_, ?_, ?_⟩
    · rw [concat_cons, hraw, hconcat, objects_cons]
    · rw [List.map_cons, List.map_cons, hmap, htag, hvalue, hraw]
    · intro p hp
      rcases List.mem_cons.mp hp with rfl | hp
      · intro b hb
        rw [hraw, w.head?_object (isTag_of_isFieldTag hfield)] at hb
        have hhead := (Bool.and_eq_true _ _ ▸ hfield).2
        rw [hb] at hhead
        simpa using hhead
      · exact hplain p hp

theorem parseHeader_object {tag : ℕ} {value : Bytes} (htag : isTag tag = true)
    (hsize : value.length < usizeSize) (post : Bytes) :
    parseHeader (w.object tag value ++ post) =
      .ok ⟨tag, value.length, (w.hdr tag value.length).length⟩ := by
  obtain ⟨o, hraw, hhdr, rfl, rfl⟩ := w.exists_obj htag value hsize
  rw [← hraw, ← hhdr]
  exact o.parseHeader_raw_append post

/-- **An object that is written is read**, whatever follows it. -/
theorem parse_object (oc : OverflowChecks) {tag : ℕ} {value : Bytes} (htag : isTag tag = true)
    (hsize : (w.object tag value).length < usizeSize) (post : Bytes) :
    parse oc (w.object tag value ++ post) = .ok ⟨tag, value⟩ := by
  have hvalue : value.length < usizeSize := by
    rw [object_length] at hsize
    omega
  obtain ⟨o, hraw, -, rfl, rfl⟩ := w.exists_obj htag value hvalue
  rw [← hraw] at hsize ⊢
  exact parse_raw_append oc o hsize post

/-- **The iterator reads the objects that are written**, in order, up to filler. -/
theorem iter_objects (oc : OverflowChecks) {fields : List (ℕ × Bytes)} {tail : Bytes}
    (htags : ∀ f ∈ fields, isFieldTag f.1 = true) (hsize : (w.objects fields).length < usizeSize)
    (htail : StartsFiller tail) :
    iter oc (w.objects fields ++ tail) = fields.map fun f => .ok ⟨f.1, f.2⟩ := by
  obtain ⟨objs, hconcat, hmap, hplain⟩ := w.exists_objs htags hsize
  rw [← hconcat] at hsize ⊢
  rw [iter_concat oc hplain hsize htail]
  have hpairs : objs.map (fun o => (o.tag, o.value)) = fields := by
    have := congrArg (List.map Prod.fst) hmap
    simpa [List.map_map, Function.comp_def] using this
  rw [← hpairs, List.map_map]
  rfl

end Writer

end MynaCard.Ber
