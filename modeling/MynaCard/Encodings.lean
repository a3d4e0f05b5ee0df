import MynaCard.BerWriter
import MynaCard.Data
import MynaCard.VerificationCodes

/-!
# Values written

The field types of `data.rs` as the bytes a card stores them in, each with what its parser makes of
these bytes: the identification field and the individual number come back whatever they are, a date
if eight digits can state it, a key identifier if it has digits where it should, and a key however
its two objects are written.
-/

namespace MynaCard

open Ber

theorem ApIdentification.parse_toBytes (i : ApIdentification) :
    ApIdentification.parse i.toBytes = .ok i := rfl

theorem MyNumber.parse_digits (n : MyNumber) : MyNumber.parse n.digits = .ok n :=
  dif_pos ⟨n.length_eq, n.all_digits⟩

/-! ### Key identifiers -/

/-- An identifier with digits in the two digit groups. -/
def KeyId.Digits (id : KeyId) : Prop :=
  (id.bytes.take 7).all isAsciiDigit = true ∧ ((id.bytes.drop 9).take 3).all isAsciiDigit = true

theorem KeyId.parse_bytes {id : KeyId} (h : id.Digits) : KeyId.parse id.bytes = .ok id := by
  unfold KeyId.parse
  rw [dif_pos id.length_eq, if_neg]
  intro hbad
  rcases hbad with hbad | hbad
  · exact hbad h.1
  · exact hbad h.2

/-! ### Dates -/

theorem digitsValue_snoc (bs : Bytes) (b : UInt8) :
    digitsValue (bs ++ [b]) = digitsValue bs * 10 + (b.toNat - 0x30) := by
  rw [digitsValue, List.foldl_append]
  rfl

theorem all_digits_snoc_iff {bs : Bytes} {b : UInt8} : (bs ++ [b]).all isAsciiDigit = true ↔
    bs.all isAsciiDigit = true ∧ 0x30 ≤ b.toNat ∧ b.toNat ≤ 0x39 := by
  rw [List.all_append, Bool.and_eq_true, List.all_cons, List.all_nil, Bool.and_true, isAsciiDigit,
    Bool.and_eq_true, decide_eq_true_eq, decide_eq_true_eq, UInt8.le_iff_toNat_le,
    UInt8.le_iff_toNat_le]
  rfl

/-- Digits of one length that denote one number are the same digits. -/
theorem digitsValue_inj {xs ys : Bytes} (hxs : xs.all isAsciiDigit = true)
    (hys : ys.all isAsciiDigit = true) (hlen : xs.length = ys.length)
    (h : digitsValue xs = digitsValue ys) : xs = ys := by
  induction xs using List.reverseRecOn generalizing ys with
  | nil => exact (List.length_eq_zero_iff.mp hlen.symm).symm
  | append_singleton xs x ih =>
    cases ys using List.reverseRecOn with
    | nil => simp at hlen
    | append_singleton ys y =>
      rw [digitsValue_snoc, digitsValue_snoc] at h
      obtain ⟨hxs, hx⟩ := all_digits_snoc_iff.mp hxs
      obtain ⟨hys, hy⟩ := all_digits_snoc_iff.mp hys
      have hbyte : x = y := UInt8.toNat_inj.mp (by omega)
      rw [ih hxs hys (by simpa using hlen) (by omega), hbyte]

theorem digitsValue_lt {bs : Bytes} (h : bs.all isAsciiDigit = true) :
    digitsValue bs < 10 ^ bs.length := by
  induction bs using List.reverseRecOn with
  | nil => simp [digitsValue]
  | append_singleton bs b ih =>
    obtain ⟨hbs, hb⟩ := all_digits_snoc_iff.mp h
    have hlt := ih hbs
    rw [digitsValue_snoc, List.length_append, List.length_singleton, pow_succ]
    omega

/-- Digits are the number they denote, written in a column of their length. -/
theorem decimal_digitsValue {bs : Bytes} (h : bs.all isAsciiDigit = true) (hpos : 0 < bs.length) :
    asciiBytes (decimal bs.length (digitsValue bs)) = bs := by
  apply digitsValue_inj (digits_all _ _) h
  · exact decimal_length_of_lt _ hpos (digitsValue_lt h)
  · exact digitsValue_decimal _ _

namespace Date

/-- `YYYYMMDD`. -/
def digits (d : Date) : Bytes :=
  asciiBytes (decimal 4 d.year.toNat) ++
    (asciiBytes (decimal 2 d.month.toNat) ++ asciiBytes (decimal 2 d.day.toNat))

/-- A date that eight digits can state. -/
structure Statable (d : Date) : Prop where
  year_le : d.year ≤ 9999
  month_mem : 1 ≤ d.month ∧ d.month ≤ 12
  day_mem : 1 ≤ d.day ∧ d.day ≤ 31

variable {d : Date}

/-- The three columns of the digits. -/
theorem Statable.columns (h : d.Statable) :
    d.digits.take 4 = asciiBytes (decimal 4 d.year.toNat) ∧
      (d.digits.drop 4).take 2 = asciiBytes (decimal 2 d.month.toNat) ∧
      (d.digits.drop 6).take 2 = asciiBytes (decimal 2 d.day.toNat) ∧ d.digits.length = 8 := by
  obtain ⟨hyear, ⟨-, hmonth⟩, -, hday⟩ := h
  rw [UInt16.le_iff_toNat_le] at hyear
  rw [UInt8.le_iff_toNat_le] at hmonth hday
  have h4 : (asciiBytes (decimal 4 d.year.toNat)).length = 4 :=
    decimal_length_of_lt 4 (by norm_num) (lt_of_le_of_lt hyear (by decide))
  have h2 : (asciiBytes (decimal 2 d.month.toNat)).length = 2 :=
    decimal_length_of_lt 2 (by norm_num) (lt_of_le_of_lt hmonth (by decide))
  have h2' : (asciiBytes (decimal 2 d.day.toNat)).length = 2 :=
    decimal_length_of_lt 2 (by norm_num) (lt_of_le_of_lt hday (by decide))
  unfold digits
  simp [List.drop_append, List.drop_eq_nil_of_le, h4, h2, h2']

theorem digits_all_digits (d : Date) : d.digits.all isAsciiDigit = true := by
  simp only [digits, List.all_append, digits_all, Bool.and_self]

/-- **The digits of a date are read as the date.** -/
theorem parse_digits (h : d.Statable) : Date.parse d.digits = .ok d := by
  obtain ⟨hyear, hmonth, hday, hlen⟩ := h.columns
  unfold Date.parse
  rw [if_pos ⟨hlen, d.digits_all_digits⟩]
  dsimp only
  rw [hyear, hmonth, hday, digitsValue_decimal, digitsValue_decimal, digitsValue_decimal,
    UInt16.ofNat_toNat, UInt8.ofNat_toNat, UInt8.ofNat_toNat, if_neg]
  intro hbad
  rcases hbad with hbad | hbad
  · exact hbad h.month_mem
  · exact hbad h.day_mem

/-- **A date that is read is stated by the digits it was read from**, and by no others. -/
theorem parse_eq_ok_iff {bytes : Bytes} :
    Date.parse bytes = .ok d ↔ d.Statable ∧ bytes = d.digits := by
  constructor
  · intro h
    unfold Date.parse at h
    split at h
    · rename_i hform
      obtain ⟨hlen, hdigits⟩ := hform
      dsimp only at h
      split at h
      · cases h
      rename_i hranges
      obtain rfl := Except.ok.inj h
      rw [not_or, not_not, not_not] at hranges
      -- each column is digits, so that its number takes no more than the column
      have hsplit : bytes = bytes.take 4 ++ ((bytes.drop 4).take 2 ++ (bytes.drop 6).take 2) := by
        have hlast : (bytes.drop 6).take 2 = (bytes.drop 4).drop 2 := by
          rw [List.drop_drop, List.take_of_length_le (by rw [List.length_drop]; omega)]
        rw [hlast, List.take_append_drop, List.take_append_drop]
      have hcolumn : ∀ (i n : ℕ), 0 < n → i + n ≤ 8 →
          ((bytes.drop i).take n).length = n ∧ digitsValue ((bytes.drop i).take n) < 10 ^ n ∧
            asciiBytes (decimal n (digitsValue ((bytes.drop i).take n))) =
              (bytes.drop i).take n := by
        intro i n hpos hle
        have hcut : ((bytes.drop i).take n).length = n := by
          rw [List.length_take, List.length_drop]
          omega
        have hall : ((bytes.drop i).take n).all isAsciiDigit = true := by
          rw [List.all_eq_true] at hdigits ⊢
          exact fun b hb => hdigits b (List.mem_of_mem_drop (List.mem_of_mem_take hb))
        have hlt := digitsValue_lt hall
        have hback := decimal_digitsValue hall (by omega)
        rw [hcut] at hlt hback
        exact ⟨hcut, hlt, hback⟩
      obtain ⟨-, hyear, hyear'⟩ := hcolumn 0 4 (by norm_num) (by norm_num)
      obtain ⟨-, hmonth, hmonth'⟩ := hcolumn 4 2 (by norm_num) (by norm_num)
      obtain ⟨-, hday, hday'⟩ := hcolumn 6 2 (by norm_num) (by norm_num)
      rw [List.drop_zero] at hyear hyear'
      refine ⟨⟨?_, hranges.1, hranges.2⟩, ?_⟩
      · rw [UInt16.le_iff_toNat_le]
        show (UInt16.ofNat _).toNat ≤ 9999
        rw [UInt16.toNat_ofNat']
        omega
      · unfold digits
        dsimp only
        rw [UInt16.toNat_ofNat', UInt8.toNat_ofNat', UInt8.toNat_ofNat', Nat.mod_eq_of_lt (by omega),
          Nat.mod_eq_of_lt (by omega), Nat.mod_eq_of_lt (by omega), hyear', hmonth', hday']
        exact hsplit
    · cases h
  · rintro ⟨hstatable, rfl⟩
    exact parse_digits hstatable

end Date

/-! ### Keys -/

namespace RsaPublicKey

/-- The two objects of a key. -/
def fields (k : RsaPublicKey) : List (ℕ × Bytes) := [(0x90, k.exponent), (0x91, k.modulus)]

/-- A key written. -/
def write (w : Writer) (k : RsaPublicKey) : Bytes := w.objects k.fields

/-- **A key that is written is read**, with filler behind it or without. -/
theorem parse_write_append (oc : OverflowChecks) (w : Writer) {k : RsaPublicKey} {filler : Bytes}
    (hsize : (k.write w).length < usizeSize) (hfiller : StartsFiller filler) :
    RsaPublicKey.parse oc (k.write w ++ filler) = .ok k := by
  have htags : ∀ f ∈ k.fields, isFieldTag f.1 = true := by
    simp only [fields, List.forall_mem_cons, List.not_mem_nil, false_implies, implies_true, and_true]
    decide
  unfold RsaPublicKey.parse
  rw [write, w.iter_objects oc htags hsize hfiller]
  rfl

theorem parse_write (oc : OverflowChecks) (w : Writer) {k : RsaPublicKey}
    (hsize : (k.write w).length < usizeSize) : RsaPublicKey.parse oc (k.write w) = .ok k := by
  rw [← List.append_nil (k.write w)]
  exact parse_write_append oc w hsize startsFiller_nil

end RsaPublicKey

end MynaCard
