import Colloquy.Calendar.Instant

/-!
The order of dates and instants is that of the numbers that count them: days for dates and, leap
seconds aside, nanoseconds for instants.
-/

namespace Colloquy
open Std

/-- Things are ordered as what they are mapped to. -/
theorem transCmp_of_map {α β : Type} {cmp : β → β → Ordering} [TransCmp cmp] (f : α → β) :
    TransCmp fun a b => cmp (f a) (f b) where
  eq_swap := OrientedCmp.eq_swap
  isLE_trans := TransCmp.isLE_trans

/-- An order in which later things have greater numbers is the order of the numbers. -/
theorem compare_of_counts {α : Type} {cmp : α → α → Ordering} [OrientedCmp cmp] [LawfulEqCmp cmp]
    {count : α → Int} {a b : α} (hlt : cmp a b = .lt → count a < count b)
    (hgt : cmp b a = .lt → count b < count a) : cmp a b = compare (count a) (count b) := by
  cases h : cmp a b with
  | lt => exact (Int.compare_eq_lt.2 (hlt h)).symm
  | eq =>
    obtain rfl := LawfulEqCmp.eq_of_compare h
    exact (Int.compare_eq_eq.2 rfl).symm
  | gt => exact (Int.compare_eq_gt.2 (hgt (OrientedCmp.gt_iff_lt.1 h))).symm

instance : TransCmp Date.compare :=
  inferInstanceAs (TransCmp (compareLex
    (compareLex (compareOn Date.year) (compareOn Date.month)) (compareOn Date.day)))

instance : TransCmp Instant.compare :=
  have : TransCmp fun a b : Instant => a.date.compare b.date := transCmp_of_map Instant.date
  inferInstanceAs (TransCmp (compareLex
    (compareLex (fun a b : Instant => a.date.compare b.date) (compareOn Instant.second))
    (compareOn Instant.nanos)))

namespace Date

instance : LawfulEqCmp Date.compare where
  eq_of_compare {a b} h := by
    obtain ⟨hmonths, hday⟩ := Ordering.then_eq_eq.1 h
    obtain ⟨hyear, hmonth⟩ := Ordering.then_eq_eq.1 hmonths
    have hyear : a.year = b.year := LawfulEqCmp.eq_of_compare hyear
    have hmonth : a.month = b.month := LawfulEqCmp.eq_of_compare hmonth
    have hday : a.day = b.day := LawfulEqCmp.eq_of_compare hday
    cases a
    cases b
    simp_all

theorem compare_eq_lt {a b : Date} : a.compare b = .lt ↔
    a.year < b.year ∨ a.year = b.year ∧
      (a.month < b.month ∨ a.month = b.month ∧ a.day < b.day) := by
  simp only [compare, Ordering.then_eq_lt, Ordering.then_eq_eq, Int.compare_eq_lt,
    Nat.compare_eq_lt, Std.compare_eq_iff_eq]
  omega

def yearLength (year : Int) : Nat := if isLeapYear year then 366 else 365

theorem daysBeforeYear_succ (year : Int) :
    daysBeforeYear (year + 1) = daysBeforeYear year + yearLength year := by
  have hleap : isLeapYear year = true ↔ year % 4 = 0 ∧ (year % 100 ≠ 0 ∨ year % 400 = 0) := by
    simp [isLeapYear]
  unfold daysBeforeYear yearLength
  split
  · have h := hleap.1 ‹_›
    omega
  · have h := mt hleap.2 ‹_›
    omega

theorem daysBeforeYear_mono {year later : Int} (h : year ≤ later) :
    daysBeforeYear year ≤ daysBeforeYear later := by
  -- a year in which a leap day is left out still counts its 365 days
  unfold daysBeforeYear
  omega

/-- The months before a later one hold an earlier one whole. -/
theorem daysBeforeMonth_of_lt (year : Int) {month later : Nat} (hmonth : 1 ≤ month)
    (h : month < later) :
    daysBeforeMonth year month + daysInMonth year month ≤ daysBeforeMonth year later := by
  induction later with
  | zero => omega
  | succ later ih =>
    have hstep : daysBeforeMonth year (later + 1) =
        daysBeforeMonth year later + daysInMonth year later := by
      rw [daysBeforeMonth]
      omega
    rcases Nat.lt_succ_iff_lt_or_eq.1 h with hlt | rfl
    · have hbefore := ih hlt
      omega
    · omega

theorem day_le_yearLength (d : Date) :
    daysBeforeMonth d.year d.month + d.day ≤ yearLength d.year := by
  obtain ⟨-, -, hmonth, htwelve, -, hday⟩ := d.valid
  have hall : daysBeforeMonth d.year 13 = yearLength d.year := by
    simp only [daysBeforeMonth, daysInMonth, yearLength]
    split <;> rfl
  have hbefore := daysBeforeMonth_of_lt d.year hmonth (show d.month < 13 by omega)
  omega

theorem dayNumber_lt {a b : Date} (h : a.compare b = .lt) : a.dayNumber < b.dayNumber := by
  have hday := b.valid.2.2.2.2.1
  unfold dayNumber
  -- what lies between the dates are whole years, whole months or days of one month
  rcases compare_eq_lt.1 h with hyears | ⟨hyear, hmonths | ⟨hmonth, hdays⟩⟩
  · have hlast := day_le_yearLength a
    have hnext := daysBeforeYear_succ a.year
    have hmono := daysBeforeYear_mono (show a.year + 1 ≤ b.year by omega)
    omega
  · have hlast := a.valid.2.2.2.2.2
    have hmono := daysBeforeMonth_of_lt a.year a.valid.2.2.1 hmonths
    rw [← hyear]
    omega
  · rw [← hyear, ← hmonth]
    omega

theorem compare_eq_dayNumber (a b : Date) :
    a.compare b = Ord.compare a.dayNumber b.dayNumber :=
  compare_of_counts dayNumber_lt dayNumber_lt

end Date

namespace Instant

instance : LawfulEqCmp Instant.compare where
  eq_of_compare {a b} h := by
    obtain ⟨hseconds, hnanos⟩ := Ordering.then_eq_eq.1 h
    obtain ⟨hdate, hsecond⟩ := Ordering.then_eq_eq.1 hseconds
    have hdate : a.date = b.date := LawfulEqCmp.eq_of_compare hdate
    have hsecond : a.second = b.second := LawfulEqCmp.eq_of_compare hsecond
    have hnanos : a.nanos = b.nanos := LawfulEqCmp.eq_of_compare hnanos
    cases a
    cases b
    simp_all

/-- The nanoseconds from the beginning of 1970. A leap second counts as the first second of the
minute after it. -/
def epochNanos (t : Instant) : Int :=
  (t.date.dayNumber * 86400 + t.second) * 1000000000 + t.nanos

theorem millis_eq (t : Instant) : t.millis = t.epochNanos / 1000000 := by
  unfold millis epochNanos
  omega

theorem epochNanos_lt {a b : Instant} (hleap : a.isLeapSecond = false)
    (h : a.compare b = .lt) : a.epochNanos < b.epochNanos := by
  have hnanos : a.nanos < 1000000000 := by
    simpa [isLeapSecond] using hleap
  have hsecond := a.second_lt
  -- the nanoseconds of the earlier one stay within its second, and its seconds within its day
  have hparts : a.date.dayNumber < b.date.dayNumber ∨ a.date.dayNumber = b.date.dayNumber ∧
      (a.second < b.second ∨ a.second = b.second ∧ a.nanos < b.nanos) := by
    simp only [compare, Date.compare_eq_dayNumber, Ordering.then_eq_lt, Ordering.then_eq_eq,
      Int.compare_eq_lt, Nat.compare_eq_lt, Std.compare_eq_iff_eq] at h
    omega
  unfold epochNanos
  omega

/-- Where there is no leap second, instants are ordered as the nanoseconds that count them. -/
theorem compare_eq_epochNanos {a b : Instant} (ha : a.isLeapSecond = false)
    (hb : b.isLeapSecond = false) : a.compare b = Ord.compare a.epochNanos b.epochNanos :=
  compare_of_counts (epochNanos_lt ha) (epochNanos_lt hb)

end Instant

end Colloquy
