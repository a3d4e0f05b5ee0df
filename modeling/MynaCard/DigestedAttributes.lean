import MynaCard.OffsetTables

/-!
# The attributes shown and the attributes digested

EF `0003` vouches for the digest of a part of EF `0002`: what follows the offset table, up to the end
of the outer object. `Attributes::digest_source` finds that part by the header of the first object,
and `Attributes::parse` walks over all objects and leaves out whatever has the table's tag, however
often it stands there.

**`digested_shown`** says that the part digested decides what is shown, and that bytes after the
outer object decide nothing.
-/

namespace MynaCard.Text.Attributes

open Ber TlvFields

variable {oc : OverflowChecks} {raw d : Bytes}

/-! ### What is digested -/

/-- The first byte of an object with the table's tag is `DF`, so a walk does not stop there. -/
theorem not_startsFiller_of_tag {data : Bytes} {h : Header} (hparse : parseHeader data = .ok h)
    (htag : h.tag = 0xDF21) : ¬ StartsFiller data := by
  intro hfill
  obtain ⟨hdr, post, rfl, t, l, rfl, ht, -, hval, -⟩ := parseHeader_eq_ok_iff.mp hparse
  rw [htag] at hval
  cases ht with
  | single b hb =>
    have hlt := b.toNat_lt
    rw [bigEndian_singleton] at hval
    omega
  | multi b bs hb hbs hlen =>
    rw [bigEndian_cons] at hval
    have hpos := hbs.length_pos
    have hfirst := hfill b rfl
    simp only [isFiller, Bool.or_eq_true, decide_eq_true_eq] at hfirst
    rcases hfirst with rfl | rfl
    · exact absurd hb (by decide)
    · have hpow : 256 ^ 1 ≤ 256 ^ bs.length := Nat.pow_le_pow_right (by decide) hpos
      have h255 : (0xFF : UInt8).toNat = 255 := rfl
      rw [h255] at hval
      omega

/-- What is digested is what follows the first object of the outer value, which is the table. -/
theorem digestSource_eq_ok_iff :
    digestSource oc raw = .ok d ↔
      ∃ (o : Obj) (post : Bytes) (table : Header) (total : ℕ), raw = o.raw ++ post ∧
        o.raw.length < usizeSize ∧ o.tag = 0xFF20 ∧ parseHeader o.value = .ok table ∧
        table.tag = 0xDF21 ∧ table.totalLen oc = .ok total ∧ total ≤ o.value.length ∧
        d = o.value.drop total := by
  unfold digestSource
  rw [Run.bind_eq_ok]
  constructor
  · intro h
    obtain ⟨outer, houter, h⟩ := h
    obtain ⟨o, post, hraw, hsize, rfl⟩ := Ber.parse_eq_ok_iff.mp houter
    split at h
    · cases h
    rename_i htag
    obtain ⟨table, htable, h⟩ := Run.bind_eq_ok.mp h
    split at h
    · cases h
    rename_i htabletag
    obtain ⟨total, htotal, h⟩ := Run.bind_eq_ok.mp h
    obtain ⟨pre, post', hval, hpre, hend⟩ := slice_eq_some.mp (orMalformed_eq_ok.mp h)
    have hval' : o.value = pre ++ d ++ post' := hval
    have hpost : post' = [] := by
      apply List.eq_nil_of_length_eq_zero
      have hlen := congrArg List.length hval'
      have hend' : total + d.length = o.value.length := hend
      rw [List.length_append, List.length_append] at hlen
      omega
    refine ⟨o, post, table, total, hraw, hsize, not_not.mp htag, htable, not_not.mp htabletag,
      htotal, ?_, ?_⟩
    · rw [hval', List.length_append, List.length_append]
      omega
    · rw [hval', hpost, List.append_nil, ← hpre, List.drop_left]
  · intro h
    obtain ⟨o, post, table, total, rfl, hsize, htag, htable, htabletag, htotal, hle, rfl⟩ := h
    refine ⟨o.tlv, parse_raw_append oc o hsize post, ?_⟩
    rw [if_neg (show ¬ o.tlv.tag ≠ 0xFF20 from not_not.mpr htag)]
    refine Run.bind_eq_ok.mpr ⟨table, htable, ?_⟩
    rw [if_neg (not_not.mpr htabletag)]
    refine Run.bind_eq_ok.mpr ⟨total, htotal, orMalformed_eq_ok.mpr ?_⟩
    refine slice_eq_some.mpr ⟨o.value.take total, [], ?_, ?_, ?_⟩
    · rw [List.append_nil, List.take_append_drop]
      rfl
    · rw [List.length_take, min_eq_left hle]
    · rw [List.length_drop]
      exact Nat.add_sub_cancel' hle

/-- Bytes after the outer object are not looked at. -/
theorem digestSource_append (h : digestSource oc raw = .ok d) (s : Bytes) :
    digestSource oc (raw ++ s) = .ok d := by
  obtain ⟨o, post, table, total, rfl, hrest⟩ := digestSource_eq_ok_iff.mp h
  exact digestSource_eq_ok_iff.mpr ⟨o, post ++ s, table, total, List.append_assoc _ _ _, hrest⟩

/-! ### What is shown -/

/-- The part digested is the objects after the table with what follows them, and the attributes are
those objects'. -/
theorem exists_of_digestSource {a : Attributes} (hd : digestSource oc raw = .ok d)
    (hp : parse oc raw = .ok a) :
    ∃ (objs : List Obj) (tail : Bytes), d = concat objs ++ tail ∧ StartsFiller tail ∧
      (∀ p ∈ objs, p.NotFiller) ∧
      ofFields (fieldsOf (some 0xDF21) objs) = .ok a := by
  obtain ⟨o, post, table, total, hraw, -, -, htable, htag, htotal, -, rfl⟩ :=
    digestSource_eq_ok_iff.mp hd
  obtain ⟨o', objs, post', hlayout, -, -, ha⟩ := parse_eq_ok_iff.mp hp
  obtain ⟨tail, hval, htail⟩ := hlayout.value_eq
  have hobjs := hlayout.plain
  have hsize := hlayout.size
  obtain ⟨hsame, -⟩ := objects_prefixFree.append_inj (raw_mem_objects o) (raw_mem_objects o')
    (hraw.symm.trans hlayout.raw_eq)
  obtain rfl := Obj.raw_injective hsame
  cases objs with
  | nil =>
    rw [concat_nil, List.nil_append] at hval
    exact absurd (hval ▸ htail) (not_startsFiller_of_tag htable htag)
  | cons p objs =>
    -- the first object is the table, and its total is where it ends
    rw [concat_cons, List.append_assoc] at hval
    rw [hval, p.parseHeader_raw_append] at htable
    obtain rfl := Except.ok.inj htable
    have hfits : p.raw.length < usizeSize := by
      have hlen := congrArg List.length hval
      rw [List.length_append] at hlen
      rw [Obj.raw_length] at hsize
      omega
    rw [Obj.raw_length] at hfits
    rw [Header.totalLen, usizeAdd_of_lt oc hfits] at htotal
    obtain rfl := Except.ok.inj htotal
    refine ⟨objs, tail, ?_, htail, fun q hq => hobjs q (List.mem_cons_of_mem p hq), ?_⟩
    · rw [hval, ← p.raw_length, List.drop_left]
    · rwa [fieldsOf, List.filter_cons_of_neg (by simpa using htag)] at ha

/-- **The attributes shown are the attributes digested.** Two files with one digest source show the
same attributes, whatever else is in them, and what is appended to a file changes nothing. -/
theorem digested_shown (oc : OverflowChecks) :
    (∀ raw raw' d a a', digestSource oc raw = .ok d → digestSource oc raw' = .ok d →
      parse oc raw = .ok a → parse oc raw' = .ok a' →
      a.name = a'.name ∧ a.address = a'.address ∧ a.birthDate = a'.birthDate ∧ a.sex = a'.sex) ∧
    ∀ raw s d, digestSource oc raw = .ok d → digestSource oc (raw ++ s) = .ok d := by
  refine ⟨?_, fun raw s d h => digestSource_append h s⟩
  intro raw raw' d a a' hd hd' hp hp'
  obtain ⟨objs, tail, rfl, htail, hobjs, ha⟩ := exists_of_digestSource hd hp
  obtain ⟨objs', tail', heq, htail', hobjs', ha'⟩ := exists_of_digestSource hd' hp'
  obtain ⟨rfl, -⟩ := concat_append_inj hobjs hobjs' htail htail' heq
  obtain rfl := Except.ok.inj (ha.symm.trans ha')
  exact ⟨rfl, rfl, rfl, rfl⟩

/-! ### Two files with one digest source -/

/-- The same objects under a longer header, with the table that goes with it. -/
def attributesFileLong : Bytes :=
  [0xFF, 0x20, 0x81, 0x22, 0xDF, 0x21, 0x08, 0x00, 0x0F, 0x00, 0x13, 0x00, 0x17, 0x00, 0x22] ++
    fourFields

theorem digested_shown_attributesFile :
    digestSource .on attributesFile = .ok fourFields ∧
      digestSource .on attributesFileLong = .ok fourFields ∧
      ∃ a a', parse .on attributesFile = .ok a ∧ parse .on attributesFileLong = .ok a' ∧
        a.name = a'.name ∧ a.birthDate = a'.birthDate := by
  have hd : digestSource .on attributesFile = .ok fourFields := by decide +kernel
  have hd' : digestSource .on attributesFileLong = .ok fourFields := by decide +kernel
  have hp : parse .on attributesFile = .ok ⟨"A", "B", ⟨1980, 2, 17⟩, .male⟩ := by decide +kernel
  have hp' : parse .on attributesFileLong = .ok ⟨"A", "B", ⟨1980, 2, 17⟩, .male⟩ := by
    decide +kernel
  obtain ⟨hname, -, hdate, -⟩ := (digested_shown .on).1 _ _ _ _ _ hd hd' hp hp'
  exact ⟨hd, hd', _, _, hp, hp', hname, hdate⟩

end MynaCard.Text.Attributes
