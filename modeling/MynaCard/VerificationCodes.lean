import MynaCard.Card
import MynaCard.Data

/-!
# The second verification code

`verification_code_b` writes the Japanese era year of a birth date, its month and day, a year of
expiry and a security code next to each other. The columns are minimum widths: a month or a day
from 100 on and a year from 10000 on take one digit more, and a PIN may have 16. So a code that is
returned has its fourteen digits, and can be read back, exactly when the fields fit their columns,
or when all three are too wide and the PIN is refused (`verificationCodeB_reads_back_iff`).
-/

namespace MynaCard

/-! ### Eras -/

/-- A Japanese era. -/
inductive Era
  | meiji
  | taisho
  | showa
  | heisei
  | reiwa
  deriving DecidableEq, Repr

/-- `Era::first_gregorian_year`. -/
def Era.firstGregorianYear : Era → UInt16
  | meiji => 1868
  | taisho => 1912
  | showa => 1926
  | heisei => 1989
  | reiwa => 2019

/-- The era of `Date::to_era`, by the first day of each. -/
def Date.era (d : Date) : Option Era :=
  if (⟨2019, 5, 1⟩ : Date) ≤ d then some .reiwa
  else if (⟨1989, 1, 8⟩ : Date) ≤ d then some .heisei
  else if (⟨1926, 12, 25⟩ : Date) ≤ d then some .showa
  else if (⟨1912, 7, 30⟩ : Date) ≤ d then some .taisho
  else if (⟨1868, 1, 25⟩ : Date) ≤ d then some .meiji
  else none

/-- `Date::to_era`: the era and the year in it. -/
def Date.toEra (d : Date) : Option (Era × UInt16) :=
  d.era.map fun era => (era, d.year - era.firstGregorianYear + 1)

/-- A date is not before the first year of its era, so the subtraction does not underflow. -/
theorem Date.firstGregorianYear_le {d : Date} {era : Era} (h : d.era = some era) :
    era.firstGregorianYear ≤ d.year := by
  have hle : ∀ {y : UInt16} {m day : UInt8}, (⟨y, m, day⟩ : Date) ≤ d → y ≤ d.year := by
    intro y m day hd
    rcases hd with hlt | ⟨heq, -⟩
    · exact UInt16.le_of_lt hlt
    · exact UInt16.le_of_eq heq
  unfold Date.era at h
  split_ifs at h <;> cases h <;> exact hle ‹_›

/-- The year in the era, counted from the era's first as 1. -/
theorem Date.toEra_eq_some {d : Date} {era : Era} {year : UInt16}
    (h : d.toEra = some (era, year)) :
    d.era = some era ∧ year.toNat + era.firstGregorianYear.toNat = d.year.toNat + 1 := by
  unfold Date.toEra at h
  cases hera : d.era with
  | none =>
    rw [hera] at h
    cases h
  | some era' =>
    rw [hera] at h
    cases h
    have hle := UInt16.le_iff_toNat_le.mp (Date.firstGregorianYear_le hera)
    have hlt := d.year.toNat_lt
    have hpos : 0 < era.firstGregorianYear.toNat := by cases era <;> decide
    refine ⟨rfl, ?_⟩
    rw [UInt16.toNat_add, UInt16.toNat_sub_of_le _ _ (Date.firstGregorianYear_le hera)]
    show (d.year.toNat - era.firstGregorianYear.toNat + 1) % 65536 + _ = _
    omega

/-! ### Numbers in columns -/

/-- The bytes of a text that is all ASCII. -/
def asciiBytes (text : String) : Bytes := text.toList.map fun c => UInt8.ofNat c.toNat

@[simp] theorem asciiBytes_append (s t : String) :
    asciiBytes (s ++ t) = asciiBytes s ++ asciiBytes t := by
  simp [asciiBytes]

theorem decimal_toList (width n : ℕ) : (decimal width n).toList =
    List.replicate (width - (Nat.toDigits 10 n).length) '0' ++ Nat.toDigits 10 n := by
  simp [decimal, List.leftpad]

theorem isDigit_of_mem_decimal {width n : ℕ} {c : Char} (h : c ∈ (decimal width n).toList) :
    c.isDigit = true := by
  rw [decimal_toList] at h
  rcases List.mem_append.mp h with h | h
  · rw [(List.mem_replicate.mp h).2]
    rfl
  · exact Nat.isDigit_of_mem_toDigits (by norm_num) (by norm_num) h

/-- A decimal digit is one byte of ASCII. -/
theorem toNat_of_isDigit {c : Char} (h : c.isDigit = true) : 48 ≤ c.toNat ∧ c.toNat ≤ 57 := by
  simp [Char.isDigit] at h
  exact ⟨h.1, h.2⟩

theorem digits_all (width n : ℕ) : (asciiBytes (decimal width n)).all isAsciiDigit = true := by
  rw [List.all_eq_true]
  intro b hb
  obtain ⟨c, hc, rfl⟩ := List.mem_map.mp hb
  have hdigit := toNat_of_isDigit (isDigit_of_mem_decimal hc)
  have hbyte : (UInt8.ofNat c.toNat).toNat = c.toNat := by
    rw [UInt8.toNat_ofNat']
    omega
  simp only [isAsciiDigit, Bool.and_eq_true, decide_eq_true_eq, UInt8.le_iff_toNat_le, hbyte]
  exact hdigit

/-- Digits read back are the number their characters denote. -/
theorem digitsValue_map {cs : List Char} (h : ∀ c ∈ cs, c.isDigit = true) :
    digitsValue (cs.map fun c => UInt8.ofNat c.toNat) = Nat.ofDigitChars 10 cs 0 := by
  rw [digitsValue, List.foldl_map, Nat.ofDigitChars]
  apply List.foldl_ext
  intro acc c hc
  have hdigit := toNat_of_isDigit (h c hc)
  rw [UInt8.toNat_ofNat', Nat.mod_eq_of_lt (by omega), mul_comm]
  rfl

/-- **A number written in a column of any width reads back.** -/
theorem digitsValue_decimal (width n : ℕ) : digitsValue (asciiBytes (decimal width n)) = n := by
  rw [asciiBytes, digitsValue_map fun c => isDigit_of_mem_decimal, decimal_toList,
    Nat.ofDigitChars_append, Nat.ofDigitChars_replicate_zero, mul_zero,
    Nat.ofDigitChars_ten_toDigits]

theorem decimal_length (width n : ℕ) : (asciiBytes (decimal width n)).length =
    max width (Nat.toDigits 10 n).length := by
  rw [asciiBytes, List.length_map, decimal_toList, List.length_append, List.length_replicate]
  omega

/-- A number takes up its column, and one digit more from ten times as large on. -/
theorem decimal_length_eq {width n : ℕ} (hwidth : 0 < width) (h : n < 10 ^ (width + 1)) :
    (asciiBytes (decimal width n)).length = if n < 10 ^ width then width else width + 1 := by
  have hle : ∀ {k}, 0 < k → ((Nat.toDigits 10 n).length ≤ k ↔ n < 10 ^ k) :=
    fun hk => Nat.length_toDigits_le_iff (by norm_num) hk
  have hsucc := (hle (Nat.succ_pos width)).mpr h
  have hfits := hle hwidth
  rw [decimal_length]
  split <;> omega

theorem decimal_length_of_lt (width : ℕ) {n : ℕ} (hwidth : 0 < width) (h : n < 10 ^ width) :
    (asciiBytes (decimal width n)).length = width := by
  rw [decimal_length_eq hwidth (h.trans (Nat.pow_lt_pow_succ (by norm_num))), if_pos h]

/-- Columns of 2, 2, 2 and 4 bytes are taken out where they were put. -/
theorem columns {a b c e : Bytes} (rest : Bytes) (ha : a.length = 2) (hb : b.length = 2)
    (hc : c.length = 2) (he : e.length = 4) :
    (a ++ (b ++ (c ++ (e ++ rest)))).take 2 = a ∧
      ((a ++ (b ++ (c ++ (e ++ rest)))).drop 2).take 2 = b ∧
      ((a ++ (b ++ (c ++ (e ++ rest)))).drop 4).take 2 = c ∧
      ((a ++ (b ++ (c ++ (e ++ rest)))).drop 6).take 4 = e ∧
      (a ++ (b ++ (c ++ (e ++ rest)))).drop 10 = rest := by
  simp [List.drop_append, List.drop_eq_nil_of_le, ha, hb, hc, he]

/-! ### The code -/

/-- `verification_code_b`. -/
def verificationCodeB (birthDate : Date) (expiryYear : UInt16) (securityCode : Bytes) : Run Pin :=
  match birthDate.toEra with
  | none => malformed s!"{birthDate.display} predates the Meiji era"
  | some (_, eraYear) =>
    if 99 < eraYear then malformed s!"era year {eraYear.toNat} does not fit in two digits"
    else if securityCode.length ≠ 4 ∨ ¬ securityCode.all isAsciiDigit then
      .error (.err (.invalidPin "security code must be 4 digits"))
    else
      Pin.numeric (asciiBytes (decimal 2 eraYear.toNat ++ decimal 2 birthDate.month.toNat ++
        decimal 2 birthDate.day.toNat ++ decimal 4 expiryYear.toNat) ++ securityCode)

/-- A PIN of digits is one to sixteen digits. -/
theorem Pin.numeric_eq_ok {value : Bytes} {pin : Pin} : Pin.numeric value = .ok pin ↔
    pin.bytes = value ∧ value.all isAsciiDigit = true := by
  unfold Pin.numeric
  rw [Run.bind_eq_ok]
  constructor
  · intro h
    obtain ⟨pin', hnew, h⟩ := h
    unfold Pin.new at hnew
    split_ifs at hnew
    cases hnew
    by_cases hdigits : value.all isAsciiDigit = true
    · rw [if_neg (not_not.mpr hdigits)] at h
      cases h
      exact ⟨rfl, hdigits⟩
    · rw [if_pos hdigits] at h
      cases h
  · intro h
    obtain ⟨rfl, hdigits⟩ := h
    refine ⟨pin, ?_, ?_⟩
    · rw [Pin.new, dif_neg pin.ne_nil, dif_neg (not_not.mpr pin.length_le),
        dif_neg (not_not.mpr pin.printable)]
    · rw [if_neg (not_not.mpr hdigits)]
      rfl

theorem Pin.exists_of_digits {value : Bytes} (hpos : 0 < value.length) (hle : value.length ≤ 16)
    (hdigits : value.all isAsciiDigit = true) : ∃ pin : Pin, pin.bytes = value :=
  ⟨⟨value, List.length_pos_iff.mp hpos, hle, Pin.printable_of_digits hdigits⟩, rfl⟩

/-- The text that is presented, in its five columns. -/
def codeText (eraYear : UInt16) (birthDate : Date) (expiryYear : UInt16) (securityCode : Bytes) :
    Bytes :=
  asciiBytes (decimal 2 eraYear.toNat) ++ (asciiBytes (decimal 2 birthDate.month.toNat) ++
    (asciiBytes (decimal 2 birthDate.day.toNat) ++ (asciiBytes (decimal 4 expiryYear.toNat) ++
      securityCode)))

/-- The checks of the function itself: there is an era, the year in it has two digits, and the
security code is four digits. -/
def CanEncode (birthDate : Date) (securityCode : Bytes) : Prop :=
  (∃ era year, birthDate.toEra = some (era, year) ∧ year ≤ 99) ∧
    securityCode.length = 4 ∧ securityCode.all isAsciiDigit = true

/-- The month, the day and the year fit their columns. -/
def Fits (birthDate : Date) (expiryYear : UInt16) : Prop :=
  birthDate.month ≤ 99 ∧ birthDate.day ≤ 99 ∧ expiryYear ≤ 9999

/-- None of the three fits its column. -/
def AllWide (birthDate : Date) (expiryYear : UInt16) : Prop :=
  99 < birthDate.month ∧ 99 < birthDate.day ∧ 9999 < expiryYear

/-- Fourteen digits that read back, in columns of 2, 2, 2, 4 and 4, as the year in the era, the
month, the day, the year of expiry and the security code. -/
structure ReadsBack (birthDate : Date) (expiryYear : UInt16) (securityCode code : Bytes) :
    Prop where
  length : code.length = 14
  digits : code.all isAsciiDigit = true
  eraYear : ∃ era, birthDate.era = some era ∧
    digitsValue (code.take 2) + era.firstGregorianYear.toNat = birthDate.year.toNat + 1
  month : digitsValue ((code.drop 2).take 2) = birthDate.month.toNat
  day : digitsValue ((code.drop 4).take 2) = birthDate.day.toNat
  expiryYear : digitsValue ((code.drop 6).take 4) = expiryYear.toNat
  securityCode : code.drop 10 = securityCode

section Code

variable (birthDate : Date) (expiryYear : UInt16) {securityCode : Bytes}

theorem codeText_all_digits (year : UInt16) (hcode : securityCode.all isAsciiDigit = true) :
    (codeText year birthDate expiryYear securityCode).all isAsciiDigit = true := by
  simp only [codeText, List.all_append, digits_all, hcode, Bool.and_self]

/-- A code that is returned is the text, and a text that fits a PIN is returned. -/
theorem verificationCodeB_eq_ok {birthDate : Date} {expiryYear : UInt16} {pin : Pin} :
    verificationCodeB birthDate expiryYear securityCode = .ok pin ↔
      CanEncode birthDate securityCode ∧ ∃ era year, birthDate.toEra = some (era, year) ∧
        pin.bytes = codeText year birthDate expiryYear securityCode := by
  unfold verificationCodeB CanEncode
  cases hera : birthDate.toEra with
  | none => simp [malformed]
  | some found =>
    obtain ⟨era, year⟩ := found
    simp only
    by_cases hyear : 99 < year
    · rw [if_pos hyear]
      refine iff_of_false (by intro h; cases h) ?_
      intro h
      obtain ⟨⟨_, _, heq, hle⟩, -⟩ := h.1
      cases heq
      exact absurd hyear (UInt16.not_lt.mpr hle)
    rw [if_neg hyear]
    by_cases hcode : securityCode.length = 4 ∧ securityCode.all isAsciiDigit = true
    · rw [if_neg (by simp [hcode]), Pin.numeric_eq_ok]
      simp only [asciiBytes_append, List.append_assoc]
      constructor
      · intro h
        exact ⟨⟨⟨era, year, rfl, UInt16.not_lt.mp hyear⟩, hcode⟩, era, year, rfl, h.1⟩
      · intro h
        obtain ⟨-, _, _, heq, hpin⟩ := h
        cases heq
        exact ⟨hpin, codeText_all_digits birthDate expiryYear year hcode.2⟩
    · rw [if_pos (by rw [← not_and_or]; exact hcode)]
      exact iff_of_false (by intro h; cases h) fun h => hcode h.1.2

/-- The columns are of the widths they are meant to have, or one digit wider. -/
theorem codeText_length {year : UInt16} (hyear : year ≤ 99) (hcode : securityCode.length = 4) :
    (codeText year birthDate expiryYear securityCode).length =
      14 + (if birthDate.month ≤ 99 then 0 else 1) + (if birthDate.day ≤ 99 then 0 else 1) +
        if expiryYear ≤ 9999 then 0 else 1 := by
  have hmonth := birthDate.month.toNat_lt
  have hday := birthDate.day.toNat_lt
  have hexpiry := expiryYear.toNat_lt
  have hyear' : year.toNat ≤ 99 := UInt16.le_iff_toNat_le.mp hyear
  simp only [codeText, List.length_append, hcode]
  rw [decimal_length_eq (by norm_num) (by omega), decimal_length_eq (by norm_num) (by omega),
    decimal_length_eq (by norm_num) (by omega), decimal_length_eq (by norm_num) (by omega),
    if_pos (by omega)]
  simp only [UInt8.le_iff_toNat_le, UInt16.le_iff_toNat_le, UInt8.reduceToNat, UInt16.reduceToNat]
  split_ifs <;> omega

theorem codeText_length_eq_iff {year : UInt16} (hyear : year ≤ 99)
    (hcode : securityCode.length = 4) :
    (codeText year birthDate expiryYear securityCode).length = 14 ↔ Fits birthDate expiryYear := by
  rw [codeText_length birthDate expiryYear hyear hcode]
  by_cases hmonth : birthDate.month ≤ 99 <;> by_cases hday : birthDate.day ≤ 99 <;>
    by_cases hexpiry : expiryYear ≤ 9999 <;> simp [Fits, hmonth, hday, hexpiry]

/-- Only with all three columns too narrow is the text too long for a PIN. -/
theorem lt_codeText_length_iff {year : UInt16} (hyear : year ≤ 99)
    (hcode : securityCode.length = 4) :
    16 < (codeText year birthDate expiryYear securityCode).length ↔
      AllWide birthDate expiryYear := by
  rw [codeText_length birthDate expiryYear hyear hcode, AllWide, ← UInt8.not_le, ← UInt8.not_le,
    ← UInt16.not_le]
  by_cases hmonth : birthDate.month ≤ 99 <;> by_cases hday : birthDate.day ≤ 99 <;>
    by_cases hexpiry : expiryYear ≤ 9999 <;> simp [hmonth, hday, hexpiry]

theorem codeText_readsBack {birthDate : Date} {expiryYear : UInt16} {era : Era} {year : UInt16}
    (hera : birthDate.toEra = some (era, year)) (hyear : year ≤ 99)
    (hcode : securityCode.length = 4) (hdigits : securityCode.all isAsciiDigit = true)
    (hfits : Fits birthDate expiryYear) :
    ReadsBack birthDate expiryYear securityCode
      (codeText year birthDate expiryYear securityCode) := by
  obtain ⟨hmonth, hday, hexpiry⟩ := hfits
  obtain ⟨hera', hcount⟩ := Date.toEra_eq_some hera
  have hlen := (codeText_length_eq_iff birthDate expiryYear hyear hcode).mpr ⟨hmonth, hday, hexpiry⟩
  rw [UInt16.le_iff_toNat_le] at hyear hexpiry
  rw [UInt8.le_iff_toNat_le] at hmonth hday
  obtain ⟨htake, hmonth', hday', hexpiry', hrest⟩ := columns securityCode
    (decimal_length_of_lt 2 (by norm_num) (Nat.lt_succ_of_le hyear))
    (decimal_length_of_lt 2 (by norm_num) (Nat.lt_succ_of_le hmonth))
    (decimal_length_of_lt 2 (by norm_num) (Nat.lt_succ_of_le hday))
    (decimal_length_of_lt 4 (by norm_num) (Nat.lt_succ_of_le hexpiry))
  have hall := codeText_all_digits birthDate expiryYear year hdigits
  refine ⟨hlen, hall, ⟨era, hera', ?_⟩, ?_, ?_, ?_, hrest⟩
  · rw [codeText, htake, digitsValue_decimal, hcount]
  · rw [codeText, hmonth', digitsValue_decimal]
  · rw [codeText, hday', digitsValue_decimal]
  · rw [codeText, hexpiry', digitsValue_decimal]

/-- **The code is fourteen digits that read back exactly when the fields fit their columns**, or
when the function does not get to build it, or when it is too long for a PIN. -/
theorem verificationCodeB_reads_back_iff (birthDate : Date) (expiryYear : UInt16)
    (securityCode : Bytes) :
    (∀ pin, verificationCodeB birthDate expiryYear securityCode = .ok pin →
      ReadsBack birthDate expiryYear securityCode pin.bytes) ↔
      (CanEncode birthDate securityCode →
        Fits birthDate expiryYear ∨ AllWide birthDate expiryYear) := by
  constructor
  · intro h hcan
    obtain ⟨⟨era, year, hera, hyear⟩, hcode, hdigits⟩ := id hcan
    by_cases hlong : 16 < (codeText year birthDate expiryYear securityCode).length
    · exact .inr ((lt_codeText_length_iff birthDate expiryYear hyear hcode).mp hlong)
    · -- the text is a PIN, which is returned and has fourteen digits
      have hlen := codeText_length birthDate expiryYear hyear hcode
      have hall := codeText_all_digits birthDate expiryYear year hdigits
      obtain ⟨pin, hpin⟩ := Pin.exists_of_digits (by omega) (not_lt.mp hlong) hall
      have hread := (h pin (verificationCodeB_eq_ok.mpr ⟨hcan, era, year, hera, hpin⟩)).length
      rw [hpin] at hread
      exact .inl ((codeText_length_eq_iff birthDate expiryYear hyear hcode).mp hread)
  · intro h pin hok
    obtain ⟨hcan, era, year, hera, hpin⟩ := verificationCodeB_eq_ok.mp hok
    obtain ⟨⟨era', year', hera', hyear⟩, hcode, hdigits⟩ := id hcan
    rw [hera] at hera'
    cases hera'
    rcases h hcan with hfits | hwide
    · rw [hpin]
      exact codeText_readsBack hera hyear hcode hdigits hfits
    · -- seventeen digits are refused
      have hlong := (lt_codeText_length_iff birthDate expiryYear hyear hcode).mpr hwide
      rw [← hpin] at hlong
      exact absurd hlong (not_lt.mpr pin.length_le)

/-- A card that expires in the year 12035 has a code of fifteen digits. -/
theorem verificationCodeB_fifteen_digits :
    ¬ ∀ pin, verificationCodeB ⟨1980, 2, 17⟩ 12035 [0x32, 0x32, 0x38, 0x35] = .ok pin →
      ReadsBack ⟨1980, 2, 17⟩ 12035 [0x32, 0x32, 0x38, 0x35] pin.bytes := by
  intro h
  have hera : (⟨1980, 2, 17⟩ : Date).toEra = some (.showa, 55) := by decide
  have hlen : (codeText 55 ⟨1980, 2, 17⟩ 12035 [0x32, 0x32, 0x38, 0x35]).length = 15 :=
    codeText_length _ _ (by decide) rfl
  have hall : (codeText 55 ⟨1980, 2, 17⟩ 12035 [0x32, 0x32, 0x38, 0x35]).all isAsciiDigit = true :=
    codeText_all_digits _ _ _ (by decide)
  obtain ⟨pin, hpin⟩ := Pin.exists_of_digits (by omega) (by omega) hall
  have hread := h pin (verificationCodeB_eq_ok.mpr
    ⟨⟨⟨.showa, 55, hera, by decide⟩, rfl, by decide⟩, .showa, 55, hera, hpin⟩)
  have h14 := hread.length
  rw [hpin, hlen] at h14
  cases h14

end Code

end MynaCard
