import MynaCard.Overflow
import MynaCard.Iteration

/-!
# What the BER iterator yields

The iterator neither loses nor invents an object (`iter_complete`). In front of filler it yields
the objects that are written there, whatever their number and the form of their lengths; and on any
byte string what it yields are the objects at the front, one after the other, and after them at
most one error. In both directions the answers are those of any number of calls: once the iterator
has ended it yields nothing more.
-/

namespace MynaCard.Ber

open Iteration

/-! ### The iterator as a run -/

/-- A call that yields nothing keeps the bytes as they are. -/
theorem next_exhausted {oc : OverflowChecks} {rest rest' : Bytes}
    (h : next oc rest = (none, rest')) : Exhausted (next oc) rest := by
  suffices hrest : rest = rest' by
    rw [← hrest] at h
    exact h
  unfold next at h
  split at h
  · cases h
    rfl
  · split at h
    · cases h
      rfl
    · split at h
      · cases h
      · cases h

/-- `iter` lists the run of the iterator to its end. -/
theorem yields_iter (oc : OverflowChecks) (data : Bytes) :
    ∃ rest, Yields (next oc) data (iter oc data) rest ∧ Exhausted (next oc) rest := by
  cases hnext : next oc data with
  | mk item rest =>
    cases item with
    | none =>
      refine ⟨data, ?_, next_exhausted hnext⟩
      rw [iter, hnext]
      exact .nil data
    | some item =>
      have hlt := next_length_lt hnext
      obtain ⟨last, hrun, hend⟩ := yields_iter oc rest
      refine ⟨last, ?_, hend⟩
      rw [iter, hnext]
      exact .cons hnext hrun
termination_by data.length

/-- What any number of calls return. -/
theorem answers_next (oc : OverflowChecks) (data : Bytes) (calls : ℕ) :
    answers (next oc) calls data =
      ((iter oc data).map some ++ List.replicate calls none).take calls := by
  obtain ⟨rest, hrun, hend⟩ := yields_iter oc data
  exact hrun.answers_eq hend calls

/-! ### Iterate, then put together again -/

/-- What is not an object is an error, when no sum of lengths overflows. -/
theorem returned_objectAt {oc : OverflowChecks} (what : String) {rest : Bytes}
    (h : ¬ Overlong rest) : Returned (objectAt oc what rest) := by
  unfold objectAt
  cases hparse : parseHeader rest with
  | error stop =>
    obtain ⟨e, rfl⟩ := returned_parseHeader rest stop hparse
    exact returned_err e
  | ok header =>
    have hfits : header.headerLen + header.length < usizeSize := by
      by_contra hle
      exact h (overlong_iff.mpr ⟨header, hparse, not_lt.mp hle⟩)
    have htotal : header.totalLen oc = .ok (header.headerLen + header.length) :=
      usizeAdd_of_lt oc hfits
    show Returned (header.totalLen oc >>= _)
    rw [htotal]
    exact (returned_orMalformed _ _).bind fun _ => returned_ok _

/-- The items are the objects at the front and at most one error behind them. -/
theorem iter_sound (oc : OverflowChecks) {data : Bytes} (hno : ¬ OverlongIn data) :
    ∃ objs rest, data = concat objs ++ rest ∧
      (∀ o ∈ objs, o.NotFiller ∧ o.raw.length < usizeSize) ∧
      (StartsFiller rest ∧ iter oc data = (objs.map fun o => .ok o.tlv) ∨
        ¬ StartsFiller rest ∧ ∃ e : Error,
          iter oc data = (objs.map fun o => .ok o.tlv) ++ [.error (.err e)]) := by
  by_cases hfill : StartsFiller data
  · exact ⟨[], data, rfl, by simp, .inl ⟨hfill, iter_startsFiller oc hfill⟩⟩
  cases hobj : objectAt oc "TLV value is truncated" data with
  | error stop =>
    have hover : ¬ Overlong data := mt (overlongIn_iff_of_error hfill hobj).mpr hno
    obtain ⟨e, rfl⟩ := returned_objectAt _ hover stop hobj
    refine ⟨[], data, rfl, by simp, .inr ⟨hfill, e, ?_⟩⟩
    rw [iter_step oc hfill, hobj]
    rfl
  | ok r =>
    have hle := objectAt_le hobj
    obtain ⟨o, post, hdata, hsize, hn, -⟩ := objectAt_eq_ok_iff.mp hobj
    have hplain : o.NotFiller := notFiller_of_not_startsFiller (hdata ▸ hfill)
    have hpost : post.length < data.length := by
      rw [hdata, List.length_append, ← hn]
      omega
    rw [hdata, overlongIn_raw_append hplain hsize] at hno
    obtain ⟨objs, rest, hcat, hobjs, hitems⟩ := iter_sound oc hno
    refine ⟨o :: objs, rest, by rw [hdata, hcat, concat_cons, List.append_assoc], ?_, ?_⟩
    · intro p hp
      rcases List.mem_cons.mp hp with rfl | hp
      · exact ⟨hplain, hsize⟩
      · exact hobjs p hp
    · rw [hdata, iter_raw_append oc hplain hsize]
      rcases hitems with ⟨hrest, heq⟩ | ⟨hrest, e, heq⟩
      · exact .inl ⟨hrest, by rw [heq]; rfl⟩
      · exact .inr ⟨hrest, e, by rw [heq]; rfl⟩
termination_by data.length

/-- Every object takes two bytes at least. -/
theorem two_mul_length_le_concat (objs : List Obj) : 2 * objs.length ≤ (concat objs).length := by
  induction objs with
  | nil => simp
  | cons o objs ih =>
    have := o.raw_length_ge
    rw [concat_cons, List.length_append, List.length_cons]
    omega

/-- **The iterator neither loses nor invents an object.** Over objects and filler it yields exactly
the objects. On any byte string in which it comes to no sum of lengths that overflows, it yields
the objects that make up the front of it, then at most one error, all within half as many calls as
there are bytes and one more, and from then on nothing. -/
theorem iter_complete (oc : OverflowChecks) :
    (∀ (objs : List Obj) (tail : Bytes),
      (∀ o ∈ objs, o.NotFiller ∧ o.raw.length < usizeSize) → StartsFiller tail →
      ∀ calls, answers (next oc) calls (concat objs ++ tail) =
        ((objs.map fun o : Obj => some (Except.ok o.tlv)) ++
          List.replicate calls none).take calls) ∧
    ∀ data, ¬ OverlongIn data →
      ∃ (objs : List Obj) (rest : Bytes) (errors : List Error), data = concat objs ++ rest ∧
        (∀ o ∈ objs, o.NotFiller ∧ o.raw.length < usizeSize) ∧ errors.length ≤ 1 ∧
        (errors = [] → StartsFiller rest) ∧
        objs.length + errors.length ≤ data.length / 2 + 1 ∧
        ∀ calls, answers (next oc) calls data =
          ((objs.map fun o : Obj => some (Except.ok o.tlv)) ++
            (errors.map fun e : Error => some (Except.error (Stop.err e))) ++
            List.replicate calls none).take calls := by
  constructor
  · intro objs tail hobjs htail calls
    rw [answers_next, iter_concat_append oc hobjs, iter_startsFiller oc htail, List.append_nil,
      List.map_map]
    rfl
  · intro data hno
    obtain ⟨objs, rest, hdata, hobjs, hitems⟩ := iter_sound oc hno
    have hlen : 2 * objs.length ≤ data.length := by
      have := two_mul_length_le_concat objs
      rw [hdata, List.length_append]
      omega
    rcases hitems with ⟨hrest, heq⟩ | ⟨hrest, e, heq⟩
    · refine ⟨objs, rest, [], hdata, hobjs, by simp, fun _ => hrest, ?_, ?_⟩
      · rw [List.length_nil]
        omega
      · intro calls
        rw [answers_next, heq, List.map_map, List.map_nil, List.append_nil]
        rfl
    · refine ⟨objs, rest, [e], hdata, hobjs, by simp, by simp, ?_, ?_⟩
      · rw [List.length_singleton]
        omega
      · intro calls
        rw [answers_next, heq, List.map_append, List.map_map]
        rfl

/-- Three objects: an empty one, one with what is filler elsewhere in its value, and one with a tag of
two bytes and a length of eight. -/
def threeObjects : List Obj :=
  [.short 0x90 [] (by decide) (by decide), .short 0x41 [0xFF, 0x00] (by decide) (by decide),
    .mk2 0xDF 0x21 (List.replicate 200 0x31) (by decide) (by decide) (by decide +kernel)]

theorem threeObjects_plain : ∀ o ∈ threeObjects, o.NotFiller ∧ o.raw.length < usizeSize := by
  have hplain : ∀ o : Obj, o.raw.head?.any isFiller = false → o.NotFiller := by
    intro o ho b hb
    rw [hb] at ho
    exact ho
  intro o ho
  simp only [threeObjects, List.mem_cons, List.not_mem_nil, or_false] at ho
  obtain rfl | rfl | rfl := ho
  all_goals exact ⟨hplain _ (by decide +kernel), by decide +kernel⟩

/-- The three objects and a tag that breaks off. -/
theorem threeObjects_not_overlong : ¬ OverlongIn (concat threeObjects ++ [0x5F]) := by
  have hplain : ¬ StartsFiller [0x5F] := fun h => absurd (h 0x5F rfl) (by decide)
  obtain ⟨e, herror⟩ : ∃ e, objectAt .on "" [0x5F] = .error (.err e) := ⟨_, rfl⟩
  have htail : ¬ OverlongIn [0x5F] := by
    rw [overlongIn_iff_of_error hplain herror, ← overflows_objectAt_iff "", herror]
    intro hover
    cases hover
  have hall : ∀ objs : List Obj, (∀ o ∈ objs, o.NotFiller ∧ o.raw.length < usizeSize) →
      ¬ OverlongIn (concat objs ++ [0x5F]) := by
    intro objs hobjs
    induction objs with
    | nil => exact htail
    | cons o objs ih =>
      obtain ⟨hfirst, hsize⟩ := hobjs o List.mem_cons_self
      rw [concat_cons, List.append_assoc, overlongIn_raw_append hfirst hsize]
      exact ih fun p hp => hobjs p (List.mem_cons_of_mem _ hp)
  exact hall threeObjects threeObjects_plain

/-- Three objects and filler, and three objects and one that breaks off. -/
theorem iter_complete_threeObjects :
    answers (next .on) 5 (concat threeObjects ++ [0xFF, 0x90]) =
        [some (.ok ⟨0x90, []⟩), some (.ok ⟨0x41, [0xFF, 0x00]⟩),
          some (.ok ⟨0xDF21, List.replicate 200 0x31⟩), none, none] ∧
      ∃ (objs : List Obj) (rest : Bytes) (errors : List Error),
        concat threeObjects ++ [0x5F] = concat objs ++ rest ∧
        (∀ o ∈ objs, o.NotFiller ∧ o.raw.length < usizeSize) ∧ errors.length ≤ 1 ∧
        (errors = [] → StartsFiller rest) ∧
        objs.length + errors.length ≤ (concat threeObjects ++ [0x5F]).length / 2 + 1 ∧
        ∀ calls, answers (next .on) calls (concat threeObjects ++ [0x5F]) =
          ((objs.map fun o : Obj => some (Except.ok o.tlv)) ++
            (errors.map fun e : Error => some (Except.error (Stop.err e))) ++
            List.replicate calls none).take calls := by
  have hfiller : StartsFiller [0xFF, 0x90] := by
    intro b hb
    obtain rfl : 0xFF = b := Option.some.inj hb
    rfl
  refine ⟨?_, (iter_complete .on).2 _ threeObjects_not_overlong⟩
  rw [(iter_complete .on).1 threeObjects [0xFF, 0x90] threeObjects_plain hfiller 5]
  rfl

end MynaCard.Ber
