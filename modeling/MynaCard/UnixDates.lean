import MynaCard.Calendar
import MynaCard.Certificates

/-!
# The date of a Unix timestamp

`Date::from_unix_seconds` gives the date of the proleptic Gregorian calendar on which a second
falls, for every second of the years that fit its year field (`Date.fromUnixSeconds_calendar`). The
dates are in the order of the seconds, so a certificate is valid on the date of every second of its
validity.
-/

namespace MynaCard

open Calendar

/-! ### The derived order -/

theorem Date.le_iff {a b : Date} : a ≤ b ↔ a.year.toNat < b.year.toNat ∨
    a.year.toNat = b.year.toNat ∧ (a.month.toNat < b.month.toNat ∨
      a.month.toNat = b.month.toNat ∧ a.day.toNat ≤ b.day.toNat) := by
  show (a.year < b.year ∨ a.year = b.year ∧ (a.month < b.month ∨ a.month = b.month ∧ a.day ≤ b.day))
    ↔ _
  rw [UInt16.lt_iff_toNat_lt, UInt8.lt_iff_toNat_lt, UInt8.le_iff_toNat_le, ← UInt16.toNat_inj,
    ← UInt8.toNat_inj]

theorem Date.ext_toNat {a b : Date} (hy : a.year.toNat = b.year.toNat)
    (hm : a.month.toNat = b.month.toNat) (hd : a.day.toNat = b.day.toNat) : a = b := by
  cases a
  cases b
  simp only at hy hm hd
  rw [UInt16.toNat_inj.mp hy, UInt8.toNat_inj.mp hm, UInt8.toNat_inj.mp hd]

instance : LinearOrder Date where
  le_refl a := Date.le_iff.mpr (by omega)
  le_trans a b c hab hbc := by
    rw [Date.le_iff] at *
    omega
  le_antisymm a b hab hba := by
    rw [Date.le_iff] at *
    exact Date.ext_toNat (by omega) (by omega) (by omega)
  le_total a b := by
    rw [Date.le_iff, Date.le_iff]
    omega
  toDecidableLE := inferInstance

theorem Date.lt_iff {a b : Date} : a < b ↔ a.year.toNat < b.year.toNat ∨
    a.year.toNat = b.year.toNat ∧ (a.month.toNat < b.month.toNat ∨
      a.month.toNat = b.month.toNat ∧ a.day.toNat < b.day.toNat) := by
  rw [← not_le, Date.le_iff]
  omega

/-! ### Dates of the calendar -/

namespace Date

/-- The date is in the calendar. -/
def IsCivil (d : Date) : Prop := Calendar.IsCivil d.year.toNat d.month.toNat d.day.toNat

/-- Its day, counted from 1970-01-01. -/
def dayNumber (d : Date) : ℤ := Calendar.dayNumber 1970 d.year.toNat d.month.toNat d.day.toNat

/-- Dates of the calendar are ordered as their days are. -/
theorem dayNumber_strictMonoOn : StrictMonoOn dayNumber {d | d.IsCivil} := by
  intro a ha b hb hlt
  apply Calendar.dayNumber_lt ha hb
  have := Date.lt_iff.mp hlt
  omega

end Date

/-! ### The steps of `from_unix_seconds` -/

namespace Calendar.CycleDay

variable (c : CycleDay)

/-- Every block has 1460 days and its leap day; past 1459 of the days left there is one more. -/
theorem number_div_1460 : c.number / 1460 = 25 * c.century + c.block +
    if 24 * c.century + c.block + 365 * c.year + c.day < 1460 then 0 else 1 := by
  have := c.century_mem
  have := c.block_mem
  have := c.year_mem
  have := c.day_mem
  unfold number
  split <;> omega

/-- The last day of the 400 years is the only one past its century. -/
theorem number_div_centuries : c.number / 36524 - c.number / 146096 = c.century := by
  have := c.century_mem
  have := c.block_mem
  have := c.year_mem
  have := c.day_mem
  have hleap := c.leap
  obtain ⟨n, hn⟩ : ∃ n, n = c.number := ⟨_, rfl⟩
  have hrest : n - 36524 * c.century ≤ 36523 ∨ c.century = 3 ∧ n = 146096 := by
    unfold number at hn
    by_cases hday : c.day = 365
    · have := hleap hday
      omega
    · omega
  have hle : 0 ≤ n - 36524 * c.century := by
    unfold number at hn
    omega
  rw [← hn]
  rcases hrest with hlt | ⟨hlast, rfl⟩
  · have h0 : n / 146096 = 0 := by omega
    have h1 : n / 36524 = c.century := by omega
    rw [h0, h1, sub_zero]
  · rw [hlast]
    rfl

/-- The year of the cycle: with the leap days taken out, every year has 365 days. -/
theorem yearOfCycle_eq : (c.number - c.number / 1460 + c.number / 36524 - c.number / 146096) / 365 =
    c.yearOfCycle := by
  have hblocks := c.number_div_1460
  have hcenturies := c.number_div_centuries
  have := c.century_mem
  have := c.block_mem
  have := c.year_mem
  have := c.day_mem
  have := c.leap
  rw [show c.number - c.number / 1460 + c.number / 36524 - c.number / 146096 =
    c.number - c.number / 1460 + c.century from by omega, hblocks]
  unfold number yearOfCycle
  split <;> omega

theorem day_eq : c.number - (365 * c.yearOfCycle + c.yearOfCycle / 4 - c.yearOfCycle / 100) =
    c.day := by
  have := c.block_mem
  have := c.year_mem
  unfold number yearOfCycle
  omega

end Calendar.CycleDay

/-- A narrowing that drops nothing. -/
theorem u8_ofInt {x : ℤ} {n : ℕ} (h : x = n) : UInt8.ofInt x = UInt8.ofNat n := by
  subst h
  apply UInt8.toNat_inj.mp
  rw [UInt8.ofInt, UInt8.toNat_ofNat', UInt8.toNat_ofNat']
  omega

/-- **The function computes a date of the calendar whose day the second is in**, but for the
narrowing of the year. -/
theorem Date.fromUnixSeconds_eq (seconds : Int64) : ∃ (y : ℤ) (m d : ℕ), Calendar.IsCivil y m d ∧
    Calendar.dayNumber 1970 y m d = seconds.toInt / 86400 ∧
    Date.fromUnixSeconds seconds = ⟨UInt16.ofInt y, UInt8.ofNat m, UInt8.ofNat d⟩ := by
  obtain ⟨days, hdays⟩ : ∃ days, days = seconds.toInt / 86400 + 719468 := ⟨_, rfl⟩
  obtain ⟨c, hc⟩ := exists_cycleDay (n := days % 146097) (by omega) (by omega)
  have hday := c.day_mem
  obtain ⟨mp, hmp⟩ : ∃ mp : ℕ, (mp : ℤ) = (5 * c.day + 2) / 153 :=
    ⟨((5 * c.day + 2) / 153).toNat, by omega⟩
  obtain ⟨d, hd⟩ : ∃ d : ℕ, (d : ℤ) = c.day - ((153 * mp + 2) / 5 : ℕ) + 1 :=
    ⟨(c.day - ((153 * mp + 2) / 5 : ℕ) + 1).toNat, by omega⟩
  set y := 400 * (days / 146097) + c.yearOfCycle with hy
  obtain ⟨hmp11, hcivil⟩ :=
    isCivil_march (y := y) hday.1 hday.2 (c.isLeap (days / 146097)) hmp hd
  refine ⟨marchYear y mp, marchMonth mp, d, hcivil, ?_, ?_⟩
  · -- the days before the month, and those before the year the month is counted in
    have hmonth := daysBefore_add_monthStart y hmp11
    have hyear := c.daysBefore_add (days / 146097)
    rw [hc, ← hy] at hyear
    rw [Calendar.dayNumber, yearStart_eq, show daysBefore 1970 = 719162 from rfl]
    omega
  · have hmonth : UInt8.ofInt (if (mp : ℤ) < 10 then (mp : ℤ) + 3 else mp - 9) =
        UInt8.ofNat (marchMonth mp) := by
      apply u8_ofInt
      unfold marchMonth
      split <;> split <;> omega
    have hfirst : UInt8.ofNat (marchMonth mp) ≤ 2 ↔ ¬ mp < 10 := by
      have := marchMonth_mem hmp11
      rw [UInt8.le_iff_toNat_le, UInt8.toNat_ofNat', Nat.mod_eq_of_lt (by omega)]
      show marchMonth mp ≤ 2 ↔ _
      unfold marchMonth
      split <;> omega
    simp only [Date.fromUnixSeconds, ← hdays, ← hc, c.yearOfCycle_eq, c.day_eq, ← hmp, hmonth,
      hfirst]
    rw [u8_ofInt (n := d) (by rw [hd]; push_cast; ring)]
    congr 2
    unfold marchYear
    by_cases hmarch : mp < 10
    · rw [if_neg (not_not.mpr hmarch), if_pos hmarch, hy]
      ring
    · rw [if_pos hmarch, if_neg hmarch, hy]
      ring

/-! ### The years that fit -/

/-- The second is in a civil year of the range of `Date`, in UTC. -/
def HasCivilYear (seconds : Int64) : Prop :=
  ∃ year : UInt16, yearStart 1970 year.toNat ≤ seconds.toInt / 86400 ∧
    seconds.toInt / 86400 < yearStart 1970 (year.toNat + 1)

/-- A day is in one year. -/
theorem year_unique {y year day : ℤ} {m d : ℕ} (h : Calendar.IsCivil y m d)
    (hday : Calendar.dayNumber 1970 y m d = day) (hlow : yearStart 1970 year ≤ day)
    (hhigh : day < yearStart 1970 (year + 1)) : y = year := by
  have hmem : yearStart 1970 y ≤ day ∧ day < yearStart 1970 (y + 1) := hday ▸ h.dayNumber_mem
  have h1 := (yearStart_strictMono 1970).lt_iff_lt.mp (lt_of_le_of_lt hlow hmem.2)
  have h2 := (yearStart_strictMono 1970).lt_iff_lt.mp (lt_of_le_of_lt hmem.1 hhigh)
  omega

/-- The years that fit are the ones from 0 to 65535. -/
theorem hasCivilYear_iff {seconds : Int64} : HasCivilYear seconds ↔
    yearStart 1970 0 ≤ seconds.toInt / 86400 ∧ seconds.toInt / 86400 < yearStart 1970 65536 := by
  have hmono := (yearStart_strictMono 1970).monotone
  constructor
  · intro h
    obtain ⟨year, hlow, hhigh⟩ := h
    have hyear := year.toNat_lt
    exact ⟨(hmono (by omega)).trans hlow, lt_of_lt_of_le hhigh (hmono (by omega))⟩
  · intro h
    obtain ⟨y, m, d, hcivil, hnumber, -⟩ := Date.fromUnixSeconds_eq seconds
    have hmem : yearStart 1970 y ≤ _ ∧ _ < yearStart 1970 (y + 1) := hnumber ▸ hcivil.dayNumber_mem
    have h1 := (yearStart_strictMono 1970).lt_iff_lt.mp (lt_of_le_of_lt h.1 hmem.2)
    have h2 := (yearStart_strictMono 1970).lt_iff_lt.mp (lt_of_le_of_lt hmem.1 h.2)
    have hyear : ((UInt16.ofNat y.toNat).toNat : ℤ) = y := by
      rw [UInt16.toNat_ofNat']
      omega
    exact ⟨UInt16.ofNat y.toNat, by rw [hyear]; exact hmem.1, by rw [hyear]; exact hmem.2⟩

/-- Between seconds of such years there are only such seconds. -/
theorem HasCivilYear.between {a b t : Int64} (ha : HasCivilYear a) (hb : HasCivilYear b)
    (hat : a ≤ t) (htb : t ≤ b) : HasCivilYear t := by
  rw [hasCivilYear_iff] at *
  have h1 := Int.ediv_le_ediv (show (0 : ℤ) < 86400 by norm_num) (Int64.le_iff_toInt_le.mp hat)
  have h2 := Int.ediv_le_ediv (show (0 : ℤ) < 86400 by norm_num) (Int64.le_iff_toInt_le.mp htb)
  exact ⟨ha.1.trans h1, lt_of_le_of_lt h2 hb.2⟩

namespace Date

/-- In these years nothing is lost by the narrowing. -/
theorem fromUnixSeconds_spec {seconds : Int64} (h : HasCivilYear seconds) :
    (fromUnixSeconds seconds).IsCivil ∧
      (fromUnixSeconds seconds).dayNumber = seconds.toInt / 86400 := by
  obtain ⟨year, hlow, hhigh⟩ := h
  obtain ⟨y, m, d, hcivil, hnumber, heq⟩ := fromUnixSeconds_eq seconds
  have hy : y = year.toNat := year_unique hcivil hnumber hlow hhigh
  have hm := hcivil.month_le
  have hd : d ≤ 31 := hcivil.day_le.trans (monthLength_le y m)
  have hyear := year.toNat_lt
  have hfields : (fromUnixSeconds seconds).year.toNat = y ∧
      (fromUnixSeconds seconds).month.toNat = m ∧ (fromUnixSeconds seconds).day.toNat = d := by
    rw [heq]
    refine ⟨?_, ?_, ?_⟩
    · show ((UInt16.ofInt y).toNat : ℤ) = y
      rw [UInt16.ofInt, UInt16.toNat_ofNat']
      omega
    · exact (UInt8.toNat_ofNat').trans (Nat.mod_eq_of_lt (by omega))
    · exact (UInt8.toNat_ofNat').trans (Nat.mod_eq_of_lt (by omega))
  rw [IsCivil, dayNumber, hfields.1, hfields.2.1, hfields.2.2]
  exact ⟨hcivil, hnumber⟩

/-- A date of the calendar is determined by its day. -/
theorem dayNumber_injOn : Set.InjOn dayNumber {d | d.IsCivil} := dayNumber_strictMonoOn.injOn

theorem fromUnixSeconds_mono {s t : Int64} (hs : HasCivilYear s) (ht : HasCivilYear t)
    (h : s ≤ t) : fromUnixSeconds s ≤ fromUnixSeconds t := by
  obtain ⟨hcivil, hday⟩ := fromUnixSeconds_spec hs
  obtain ⟨hcivil', hday'⟩ := fromUnixSeconds_spec ht
  rw [← dayNumber_strictMonoOn.le_iff_le hcivil hcivil', hday, hday']
  exact Int.ediv_le_ediv (by norm_num) (Int64.le_iff_toInt_le.mp h)

end Date

/-- **`from_unix_seconds` is the proleptic Gregorian calendar.** For a second of a year that fits,
the date is the one of the calendar whose day, counted from 1970-01-01 by whole years and months,
is the day of the second; later seconds do not have earlier dates; and a certificate is valid on
the dates of the seconds of its validity, and on no date before the first or after the last. -/
theorem Date.fromUnixSeconds_calendar {x509 : X509Crate} (fields : X509Fields x509) :
    (∀ seconds, HasCivilYear seconds → (fromUnixSeconds seconds).IsCivil ∧
      (fromUnixSeconds seconds).dayNumber = seconds.toInt / 86400 ∧
      ∀ d : Date, d.IsCivil → d.dayNumber = seconds.toInt / 86400 → d = fromUnixSeconds seconds) ∧
    (∀ s t, HasCivilYear s → HasCivilYear t → s ≤ t → fromUnixSeconds s ≤ fromUnixSeconds t) ∧
    ∀ (c : Certificate x509) (a b : Int64), a = (fields.notBefore c.inner).toInt64 →
      b = (fields.notAfter c.inner).toInt64 →
      (HasCivilYear a → HasCivilYear b → ∀ t, a ≤ t → t ≤ b →
        c.isValidOn fields (fromUnixSeconds t) = true) ∧
      ∀ d : Date, d < fromUnixSeconds a ∨ fromUnixSeconds b < d → c.isValidOn fields d = false := by
  refine ⟨?_, ?_, ?_⟩
  · intro seconds h
    obtain ⟨hcivil, hday⟩ := fromUnixSeconds_spec h
    refine ⟨hcivil, hday, ?_⟩
    intro d hd hnumber
    exact dayNumber_injOn hd hcivil (hnumber.trans hday.symm)
  · intro s t hs ht h
    exact fromUnixSeconds_mono hs ht h
  · intro c a b ha hb
    have hvalid : ∀ d : Date, c.isValidOn fields d = true ↔
        fromUnixSeconds a ≤ d ∧ d ≤ fromUnixSeconds b := by
      intro d
      rw [Certificate.isValidOn, Certificate.validity, ← ha, ← hb]
      simp
    constructor
    · intro hya hyb t hat htb
      have hyt := hya.between hyb hat htb
      exact (hvalid _).mpr ⟨fromUnixSeconds_mono hya hyt hat, fromUnixSeconds_mono hyt hyb htb⟩
    · intro d hd
      rw [Bool.eq_false_iff, Ne, hvalid]
      intro hboth
      rcases hd with hd | hd
      · exact absurd hboth.1 (not_le.mpr hd)
      · exact absurd hboth.2 (not_le.mpr hd)

theorem Date.fromUnixSeconds_calendar_1970 :
    (fromUnixSeconds 1).IsCivil ∧ (fromUnixSeconds 1).dayNumber = 0 ∧
      ∃ (x509 : X509Crate) (fields : X509Fields x509) (c : Certificate x509),
        c.isValidOn fields (fromUnixSeconds 1) = true ∧
        c.isValidOn fields ⟨1970, 1, 3⟩ = false := by
  have hyear : HasCivilYear 0 ∧ HasCivilYear 1 ∧ HasCivilYear 86400 :=
    ⟨⟨1970, by decide⟩, ⟨1970, by decide⟩, ⟨1970, by decide⟩⟩
  let x509 : X509Crate := ⟨Unit, fun _ => .ok (), fun _ => none, fun _ => none⟩
  let fields : X509Fields x509 := ⟨fun _ => "", fun _ => "", fun _ => 0, fun _ => 86400,
    fun _ => "", fun _ => none, fun _ => none, id⟩
  obtain ⟨hcalendar, -, hvalid⟩ := fromUnixSeconds_calendar fields
  obtain ⟨hinside, houtside⟩ := hvalid ⟨[], ()⟩ 0 86400 rfl rfl
  obtain ⟨hcivil, hday, -⟩ := hcalendar 1 hyear.2.1
  exact ⟨hcivil, hday, x509, fields, ⟨[], ()⟩,
    hinside hyear.1 hyear.2.2 1 (by decide) (by decide), houtside _ (.inr (by decide))⟩

end MynaCard
