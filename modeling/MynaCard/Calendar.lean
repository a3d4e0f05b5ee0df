import Mathlib

/-!
# The proleptic Gregorian calendar

Days are numbered by adding the lengths of whole years and months to the first day of some year,
the epoch; years before it count downwards. The numbering is strictly increasing in the year, the
month and the day (`dayNumber_lt`), so a day has one date. `daysBefore` counts the days of whole
years without a sum.

The last part is the cycle the calendar has over 400 years: a day of it lies in one century, in one
four year block of that and in one year of that (`exists_cycleDay`), when the year starts in March
and the leap day is its last.

The epoch is arbitrary and nothing here is about the card.
-/

namespace MynaCard.Calendar

/-! ### Lengths -/

/-- Every fourth year, but of the centuries only every fourth. -/
def IsLeap (y : ℤ) : Prop := 4 ∣ y ∧ (¬ 100 ∣ y ∨ 400 ∣ y)

instance (y : ℤ) : Decidable (IsLeap y) :=
  inferInstanceAs (Decidable (4 ∣ y ∧ (¬ 100 ∣ y ∨ 400 ∣ y)))

/-- The days of month `m`, 1 to 12. -/
def monthLength (y : ℤ) (m : ℕ) : ℕ :=
  match m with
  | 1 | 3 | 5 | 7 | 8 | 10 | 12 => 31
  | 4 | 6 | 9 | 11 => 30
  | 2 => if IsLeap y then 29 else 28
  | _ => 0

def yearLength (y : ℤ) : ℕ := ∑ m ∈ Finset.Ico 1 13, monthLength y m

/-- The days of the year before month `m`. -/
def monthStart (y : ℤ) (m : ℕ) : ℕ := ∑ k ∈ Finset.Ico 1 m, monthLength y k

/-- The days of `count` years from `y` on. -/
def yearsLength (y : ℤ) (count : ℕ) : ℤ := ∑ k ∈ Finset.range count, (yearLength (y + k) : ℤ)

/-- The number of the first day of year `y`, the first day of `epoch` being 0: the years from
`epoch` to `y`, less those from `y` to `epoch`. -/
def yearStart (epoch y : ℤ) : ℤ :=
  yearsLength epoch (y - epoch).toNat - yearsLength y (epoch - y).toNat

/-- The number of a day. -/
def dayNumber (epoch y : ℤ) (m d : ℕ) : ℤ := yearStart epoch y + monthStart y m + (d - 1)

/-- The month is one of twelve and the day one of the month's. -/
structure IsCivil (y : ℤ) (m d : ℕ) : Prop where
  month_pos : 1 ≤ m
  month_le : m ≤ 12
  day_pos : 1 ≤ d
  day_le : d ≤ monthLength y m

variable {epoch y y' : ℤ} {m m' d d' : ℕ}

theorem monthStart_succ (y : ℤ) (h : 1 ≤ m) :
    monthStart y (m + 1) = monthStart y m + monthLength y m :=
  Finset.sum_Ico_succ_top h _

theorem monthStart_mono (y : ℤ) : Monotone (monthStart y) :=
  fun _ _ h => Finset.sum_le_sum_of_subset (Finset.Ico_subset_Ico_right h)

theorem monthLength_le (y : ℤ) (m : ℕ) : monthLength y m ≤ 31 := by
  by_cases hfebruary : m = 2
  · rw [hfebruary]
    show (if IsLeap y then 29 else 28) ≤ 31
    split <;> norm_num
  · unfold monthLength
    split <;> first | exact absurd rfl hfebruary | norm_num

/-- A year has 365 days and one more in a leap year. -/
theorem yearLength_eq (y : ℤ) : yearLength y = if IsLeap y then 366 else 365 := by
  simp only [yearLength, Finset.sum_Ico_succ_top, Nat.reduceLeDiff, Finset.Ico_self,
    Finset.sum_empty, monthLength]
  split <;> rfl

/-! ### Whole years -/

/-- The days of the years from 1 to the one before `y`; negative up to year 0. -/
def daysBefore (y : ℤ) : ℤ := 365 * (y - 1) + (y - 1) / 4 - (y - 1) / 100 + (y - 1) / 400

theorem daysBefore_succ (y : ℤ) : daysBefore (y + 1) = daysBefore y + yearLength y := by
  rw [yearLength_eq]
  unfold daysBefore
  by_cases h : IsLeap y
  · rw [if_pos h]
    unfold IsLeap at h
    omega
  · rw [if_neg h]
    unfold IsLeap at h
    omega

theorem yearsLength_eq (y : ℤ) (count : ℕ) :
    yearsLength y count = daysBefore (y + count) - daysBefore y := by
  induction count with
  | zero => simp [yearsLength]
  | succ count ih =>
    have hstep := daysBefore_succ (y + count)
    rw [yearsLength, Finset.sum_range_succ, ← yearsLength, ih]
    push_cast
    rw [← add_assoc, hstep]
    ring

theorem yearStart_eq (epoch y : ℤ) : yearStart epoch y = daysBefore y - daysBefore epoch := by
  rw [yearStart, yearsLength_eq, yearsLength_eq]
  rcases le_total epoch y with h | h
  · rw [show epoch + ((y - epoch).toNat : ℤ) = y from by omega,
      show y + ((epoch - y).toNat : ℤ) = y from by omega]
    ring
  · rw [show epoch + ((y - epoch).toNat : ℤ) = epoch from by omega,
      show y + ((epoch - y).toNat : ℤ) = epoch from by omega]
    ring

theorem yearStart_succ (epoch y : ℤ) :
    yearStart epoch (y + 1) = yearStart epoch y + yearLength y := by
  rw [yearStart_eq, yearStart_eq, daysBefore_succ]
  ring

theorem yearStart_strictMono (epoch : ℤ) : StrictMono (yearStart epoch) := by
  refine strictMono_int_of_lt_succ fun y => ?_
  rw [yearStart_succ, yearLength_eq]
  split <;> omega

/-! ### One day, one date -/

theorem IsCivil.monthStart_lt (h : IsCivil y m d) : monthStart y m + (d - 1) < yearLength y := by
  have hmono := monthStart_mono y (show m + 1 ≤ 13 from Nat.succ_le_succ h.month_le)
  rw [monthStart_succ y h.month_pos] at hmono
  have := h.day_pos
  have := h.day_le
  show _ < monthStart y 13
  omega

/-- A day lies in its year. -/
theorem IsCivil.dayNumber_mem (h : IsCivil y m d) :
    yearStart epoch y ≤ dayNumber epoch y m d ∧
      dayNumber epoch y m d < yearStart epoch (y + 1) := by
  have hlt := h.monthStart_lt
  have := h.day_pos
  rw [yearStart_succ]
  unfold dayNumber
  omega

/-- **The numbering increases with the year, then the month, then the day.** -/
theorem dayNumber_lt (h : IsCivil y m d) (h' : IsCivil y' m' d')
    (hlt : y < y' ∨ y = y' ∧ (m < m' ∨ m = m' ∧ d < d')) :
    dayNumber epoch y m d < dayNumber epoch y' m' d' := by
  rcases hlt with hy | ⟨rfl, hm | ⟨rfl, hd⟩⟩
  · calc dayNumber epoch y m d < yearStart epoch (y + 1) := h.dayNumber_mem.2
      _ ≤ yearStart epoch y' := (yearStart_strictMono epoch).monotone hy
      _ ≤ dayNumber epoch y' m' d' := h'.dayNumber_mem.1
  · have hmono := monthStart_mono y (show m + 1 ≤ m' from hm)
    rw [monthStart_succ y h.month_pos] at hmono
    have := h.day_le
    have := h'.day_pos
    unfold dayNumber
    omega
  · unfold dayNumber
    omega

/-! ### Years that start in March -/

/-- A day of the 400 years that start in March of a year divisible by 400: the century, the four
year block of the century, the year of the block and the day of the year. Only the last year of a
block has a leap day, and not that of the last block of a century unless it is the last century. -/
structure CycleDay where
  century : ℤ
  block : ℤ
  year : ℤ
  day : ℤ
  century_mem : 0 ≤ century ∧ century ≤ 3
  block_mem : 0 ≤ block ∧ block ≤ 24
  year_mem : 0 ≤ year ∧ year ≤ 3
  day_mem : 0 ≤ day ∧ day ≤ 365
  leap : day = 365 → year = 3 ∧ (block ≠ 24 ∨ century = 3)

namespace CycleDay

variable (c : CycleDay)

/-- The number of the day in the 400 years. -/
def number : ℤ := 36524 * c.century + 1461 * c.block + 365 * c.year + c.day

/-- The year of the 400. -/
def yearOfCycle : ℤ := 100 * c.century + 4 * c.block + c.year

/-- The days before March of the year and those of the year make up all of them. -/
theorem daysBefore_add (cycle : ℤ) :
    daysBefore (400 * cycle + c.yearOfCycle + 1) + c.day = 146097 * cycle + c.number := by
  have := c.century_mem
  have := c.block_mem
  have := c.year_mem
  unfold daysBefore yearOfCycle number
  omega

/-- The leap day is the last of a year that ends in a leap year. -/
theorem isLeap (cycle : ℤ) (h : c.day = 365) : IsLeap (400 * cycle + c.yearOfCycle + 1) := by
  have := c.century_mem
  have := c.block_mem
  have := c.leap h
  unfold IsLeap yearOfCycle
  omega

end CycleDay

/-- Every number below that of the days in 400 years is that of a day in them. -/
theorem exists_cycleDay {n : ℤ} (h0 : 0 ≤ n) (h1 : n < 146097) : ∃ c : CycleDay, c.number = n := by
  obtain ⟨century, hcentury⟩ : ∃ century, century = min 3 (n / 36524) := ⟨_, rfl⟩
  obtain ⟨r, hr⟩ : ∃ r, r = n - 36524 * century := ⟨_, rfl⟩
  obtain ⟨block, hblock⟩ : ∃ block, block = r / 1461 := ⟨_, rfl⟩
  obtain ⟨s, hs⟩ : ∃ s, s = r - 1461 * block := ⟨_, rfl⟩
  obtain ⟨year, hyear⟩ : ∃ year, year = min 3 (s / 365) := ⟨_, rfl⟩
  have hcenturies : 0 ≤ century ∧ century ≤ 3 := by omega
  -- a century has a day less than its last block would have it, but not the last
  have hr' : 0 ≤ r ∧ (r ≤ 36523 ∨ r = 36524 ∧ century = 3) := by omega
  have hblocks : 0 ≤ block ∧ block ≤ 24 := by omega
  have hs' : 0 ≤ s ∧ (s ≤ 1459 ∨ s = 1460 ∧ (block ≠ 24 ∨ century = 3)) := by omega
  have hyears : 0 ≤ year ∧ year ≤ 3 := by omega
  refine ⟨⟨century, block, year, s - 365 * year, hcenturies, hblocks, hyears, ?_, ?_⟩, ?_⟩
  · omega
  · omega
  · show 36524 * century + 1461 * block + 365 * year + (s - 365 * year) = n
    omega

/-- Month `mp` of a year that starts in March, 0 to 11. -/
def marchMonth (mp : ℕ) : ℕ := if mp < 10 then mp + 3 else mp - 9

/-- The calendar year of that month, when March is in year `y`. -/
def marchYear (y : ℤ) (mp : ℕ) : ℤ := if mp < 10 then y else y + 1

theorem marchMonth_mem {mp : ℕ} (h : mp ≤ 11) : 1 ≤ marchMonth mp ∧ marchMonth mp ≤ 12 := by
  unfold marchMonth
  split <;> omega

/-- From March to December the first days of the months are on a line, rounded. -/
theorem monthLength_march {mp : ℕ} (y : ℤ) (h : mp ≤ 9) :
    monthLength y (mp + 3) = (153 * (mp + 1) + 2) / 5 - (153 * mp + 2) / 5 := by
  interval_cases mp <;> rfl

theorem monthStart_march {mp : ℕ} (y : ℤ) (h : mp ≤ 9) :
    monthStart y (mp + 3) = monthStart y 3 + (153 * mp + 2) / 5 := by
  induction mp with
  | zero => rfl
  | succ mp ih =>
    have hlen := monthLength_march y (show mp ≤ 9 by omega)
    rw [show mp + 1 + 3 = mp + 3 + 1 by omega, monthStart_succ y (by omega), ih (by omega), hlen]
    omega

/-- March is the 306th day from the end of the year. -/
theorem monthStart_three (y : ℤ) : monthStart y 3 + 306 = yearLength y := by
  rw [yearLength_eq]
  show 0 + 31 + (if IsLeap y then 29 else 28) + 306 = _
  split <;> rfl

/-- The first days of all twelve months are on that line. -/
theorem daysBefore_add_monthStart {mp : ℕ} (y : ℤ) (h : mp ≤ 11) :
    daysBefore (marchYear y mp) + monthStart (marchYear y mp) (marchMonth mp) =
      daysBefore (y + 1) - 306 + ((153 * mp + 2) / 5 : ℕ) := by
  unfold marchYear marchMonth
  by_cases hmp : mp < 10
  · have hstart := monthStart_march y (show mp ≤ 9 by omega)
    have hmarch := monthStart_three y
    rw [if_pos hmp, if_pos hmp, daysBefore_succ]
    omega
  · rw [if_neg hmp, if_neg hmp]
    obtain rfl | rfl : mp = 10 ∨ mp = 11 := by omega
    · show daysBefore (y + 1) + (0 : ℕ) = _
      omega
    · show daysBefore (y + 1) + (31 : ℕ) = _
      omega

/-- A day of a year that starts in March is in the month its number divided by the mean length of
five months says, counted from that month's first day. -/
theorem isCivil_march {y r : ℤ} {mp d : ℕ} (h0 : 0 ≤ r) (h1 : r ≤ 365)
    (hleap : r = 365 → IsLeap (y + 1)) (hmp : (mp : ℤ) = (5 * r + 2) / 153)
    (hd : (d : ℤ) = r - ((153 * mp + 2) / 5 : ℕ) + 1) :
    mp ≤ 11 ∧ IsCivil (marchYear y mp) (marchMonth mp) d := by
  have hle : mp ≤ 11 := by omega
  obtain ⟨hpos, hmonth⟩ := marchMonth_mem hle
  refine ⟨hle, hpos, hmonth, by omega, ?_⟩
  unfold marchYear marchMonth
  by_cases hmp9 : mp < 10
  · rw [if_pos hmp9, if_pos hmp9, monthLength_march y (show mp ≤ 9 by omega)]
    omega
  · rw [if_neg hmp9, if_neg hmp9]
    obtain rfl | rfl : mp = 10 ∨ mp = 11 := by omega
    · show d ≤ 31
      omega
    · -- February ends with the year
      show d ≤ if IsLeap (y + 1) then 29 else 28
      by_cases h : IsLeap (y + 1)
      · rw [if_pos h]
        omega
      · rw [if_neg h]
        have := mt hleap h
        omega

end MynaCard.Calendar
