import Colloquy.Proofs.Value.Comparison

/-!
On the line of nanoseconds an instant is a point and a number covers a whole millisecond, and one is
less than the other where it ends before the other begins.
-/

namespace Colloquy

/-! ## Texts of instants -/

namespace Timestamp
open Colloquy.Decimal Colloquy.Text

theorem mem_of_takeChar {c : Char} {cs rest : List Char} (h : takeChar c cs = some rest) :
    c ∈ cs := by
  cases cs with
  | nil => cases h
  | cons d cs =>
    rw [takeChar] at h
    split at h
    · rename_i hd
      exact hd ▸ List.mem_cons_self
    · cases h

theorem takeNumber_rest {least most n : Nat} {cs rest : List Char} (hleast : 1 ≤ least)
    (h : takeNumber least most cs = some (n, rest)) : rest.Sublist cs.tail := by
  rw [takeNumber] at h
  split at h
  · rename_i hdigits
    obtain ⟨-, rfl⟩ := Prod.mk.inj (Option.some.inj h)
    obtain ⟨k, hk⟩ := Nat.exists_eq_add_of_le' (Nat.le_trans hleast hdigits)
    rw [hk, ← List.drop_tail]
    exact List.drop_sublist k cs.tail
  · cases h

theorem takeAllDigits_rest {n : Nat} {cs rest : List Char}
    (h : takeAllDigits cs = some (n, rest)) : rest.Sublist cs := by
  rw [takeAllDigits] at h
  split at h
  · cases h
  · obtain ⟨-, rfl⟩ := Prod.mk.inj (Option.some.inj h)
    exact List.dropWhile_sublist isDigit

/-- A year takes at least one character, its sign or a digit. -/
theorem takeYear_rest {year : Int} {cs rest : List Char} (h : takeYear cs = some (year, rest)) :
    rest.Sublist cs.tail := by
  have htrim : (trimLeft cs).tail.Sublist cs.tail := (List.dropWhile_sublist isBlank).tail
  refine List.Sublist.trans ?_ htrim
  rw [takeYear] at h
  split at h
  · rename_i digits hcs
    obtain ⟨⟨n, r⟩, hread, hrest⟩ := Option.map_eq_some_iff.1 h
    obtain ⟨-, rfl⟩ := Prod.mk.inj hrest
    rw [hcs]
    exact takeAllDigits_rest hread
  · rename_i digits hcs
    obtain ⟨⟨n, r⟩, hread, hrest⟩ := Option.map_eq_some_iff.1 h
    obtain ⟨-, rfl⟩ := Prod.mk.inj hrest
    rw [hcs]
    exact takeAllDigits_rest hread
  · obtain ⟨⟨n, r⟩, hread, hrest⟩ := Option.map_eq_some_iff.1 h
    obtain ⟨-, rfl⟩ := Prod.mk.inj hrest
    exact takeNumber_rest (by decide) hread

/-- Whatever form an instant is written in, a hyphen follows its year. -/
theorem hyphen_mem_of_read {cs : List Char} {t : Instant} (h : read cs = some t) :
    '-' ∈ (trim cs).tail := by
  rw [read] at h
  split at h
  · rename_i hstrict
    obtain ⟨⟨year, rest⟩, hyear, hdate⟩ := Option.bind_eq_some_iff.1 hstrict
    obtain ⟨after, hhyphen, -⟩ := Option.bind_eq_some_iff.1 hdate
    exact (takeNumber_rest (by decide) hyear).subset (mem_of_takeChar hhyphen)
  · obtain ⟨date, hread, -⟩ := Option.map_eq_some_iff.1 h
    obtain ⟨⟨year, rest⟩, hyear, hdate⟩ := Option.bind_eq_some_iff.1 hread
    obtain ⟨after, hhyphen, -⟩ := Option.bind_eq_some_iff.1 hdate
    exact (takeYear_rest hyear).subset (mem_of_takeChar hhyphen)

end Timestamp

namespace Decimal

theorem hyphen_not_mem_of_readNat {cs : List Char} (h : readNat cs ≠ none) : '-' ∉ cs := by
  intro hmem
  refine h (if_neg fun hcs => ?_)
  have hdigit := List.all_eq_true.1 (Bool.and_eq_true_iff.1 hcs).2 '-' hmem
  exact absurd hdigit (by decide)

/-- Only the first character of a number can be a sign. -/
theorem hyphen_not_mem_of_readInt64 {cs : List Char} {n : Int64} (h : readInt64 cs = some n) :
    '-' ∉ cs.tail := by
  obtain ⟨m, hread, -⟩ := Option.bind_eq_some_iff.1 h
  unfold readInt at hread
  split at hread
  · rename_i digits
    have hdigits : readNat digits ≠ none := fun hnone => by simp [hnone] at hread
    exact hyphen_not_mem_of_readNat hdigits
  · rename_i digits
    have hdigits : readNat digits ≠ none := fun hnone => by simp [hnone] at hread
    exact hyphen_not_mem_of_readNat hdigits
  · have hdigits : readNat cs ≠ none := fun hnone => by simp [hnone] at hread
    exact fun hmem => hyphen_not_mem_of_readNat hdigits (List.mem_of_mem_tail hmem)

end Decimal

namespace Value

/-! ## What values are compared as -/

/-- What the order goes by. -/
inductive Point where
  | number (n : Int)
  | time (t : Instant)

inductive ComparedAs : Value → Point → Prop where
  | number (n : Int64) : ComparedAs (number n) (.number n.toInt)
  | time (t : Instant) : ComparedAs (time t) (.time t)
  | numberText {t : String} {n : Int} (h : readNumber t = .ok n) : ComparedAs (text t) (.number n)
  | timeText {t : String} {instant : Instant} (h : readTime t = .ok instant) :
    ComparedAs (text t) (.time instant)

theorem not_number_and_time {t : String} {n : Int} {instant : Instant}
    (hnumber : readNumber t = .ok n) (htime : readTime t = .ok instant) : False := by
  obtain ⟨k, hk, -⟩ := readNumber_eq_ok hnumber
  have hhyphen := Timestamp.hyphen_mem_of_read (readTime_eq_ok htime)
  exact Decimal.hyphen_not_mem_of_readInt64 hk hhyphen

theorem comparedAs_unique {v : Value} {p q : Point} (hp : ComparedAs v p) (hq : ComparedAs v q) :
    p = q := by
  cases hp with
  | number n =>
    cases hq
    rfl
  | time t =>
    cases hq
    rfl
  | numberText hn =>
    cases hq with
    | numberText hm => exact congrArg Point.number (Except.ok.inj (hn.symm.trans hm))
    | timeText ht => exact (not_number_and_time hn ht).elim
  | timeText ht =>
    cases hq with
    | numberText hn => exact (not_number_and_time hn ht).elim
    | timeText hu => exact congrArg Point.time (Except.ok.inj (ht.symm.trans hu))

namespace Point

def compare : Point → Point → Ordering
  | number a, number b => Ord.compare a b
  | number a, time b => Ord.compare a b.millis
  | time a, number b => Ord.compare a.millis b
  | time a, time b => a.compare b

def NoLeapSecond : Point → Prop
  | number _ => True
  | time t => t.isLeapSecond = false

/-- The first nanosecond that a point covers. -/
def first : Point → Int
  | number n => n * 1000000
  | time t => t.epochNanos

/-- The last nanosecond that a point covers: a number covers a whole millisecond. -/
def last : Point → Int
  | number n => n * 1000000 + 999999
  | time t => t.epochNanos

theorem first_le_last (p : Point) : p.first ≤ p.last := by
  cases p with
  | number n =>
    simp only [first, last]
    omega
  | time t => exact Int.le_refl _

/-- One is less where it ends before the other begins. -/
theorem compare_eq_lt {p q : Point} (hp : p.NoLeapSecond) (hq : q.NoLeapSecond) :
    p.compare q = .lt ↔ p.last < q.first := by
  cases p <;> cases q
  case number.number a b =>
    rw [compare, Int.compare_eq_lt, last, first]
    omega
  case number.time a b =>
    rw [compare, Int.compare_eq_lt, b.millis_eq, last, first]
    omega
  case time.number a b =>
    rw [compare, Int.compare_eq_lt, a.millis_eq, last, first]
    omega
  case time.time a b =>
    rw [compare, Instant.compare_eq_epochNanos hp hq, Int.compare_eq_lt, last, first]

theorem compare_trans {p q r : Point} (hp : p.NoLeapSecond) (hq : q.NoLeapSecond)
    (hr : r.NoLeapSecond) (hpq : p.compare q = .lt) (hqr : q.compare r = .lt) :
    p.compare r = .lt := by
  rw [compare_eq_lt hp hr]
  calc p.last
    _ < q.first := (compare_eq_lt hp hq).1 hpq
    _ ≤ q.last := q.first_le_last
    _ < r.first := (compare_eq_lt hq hr).1 hqr

end Point

/-- Where two values have an order, both are compared as something, and the order is that of the
points. -/
theorem points_of_looseCmp {a b : Value} {o : Ordering} (h : looseCmp a b = .ok (some o)) :
    ∃ p q, ComparedAs a p ∧ ComparedAs b q ∧ p.compare q = o := by
  cases a <;> cases b
  case number.number m n =>
    cases h
    exact ⟨_, _, .number m, .number n, rfl⟩
  case number.time n t =>
    cases h
    exact ⟨_, _, .number n, .time t, rfl⟩
  case time.number t n =>
    cases h
    exact ⟨_, _, .time t, .number n, rfl⟩
  case time.time t u =>
    cases h
    exact ⟨_, _, .time t, .time u, rfl⟩
  case number.text n t =>
    obtain ⟨m, hread, horder⟩ := Except.map_eq_ok.1 h
    exact ⟨_, _, .number n, .numberText hread, Option.some.inj horder⟩
  case text.number t n =>
    obtain ⟨m, hread, horder⟩ := Except.map_eq_ok.1 h
    exact ⟨_, _, .numberText hread, .number n, Option.some.inj horder⟩
  case time.text u t =>
    obtain ⟨v, hread, horder⟩ := Except.map_eq_ok.1 h
    exact ⟨_, _, .time u, .timeText hread, Option.some.inj horder⟩
  case text.time t u =>
    obtain ⟨v, hread, horder⟩ := Except.map_eq_ok.1 h
    exact ⟨_, _, .timeText hread, .time u, Option.some.inj horder⟩
  all_goals cases h

/-! ## The strict order -/

/-- Neither is the value a leap second nor does it read as one. -/
def NoLeapSecond : Value → Prop
  | time t => t.isLeapSecond = false
  | text t => ∀ instant, Timestamp.read t.toList = some instant → instant.isLeapSecond = false
  | _ => True

theorem noLeapSecond_point {v : Value} {p : Point} (h : v.NoLeapSecond) (hp : ComparedAs v p) :
    p.NoLeapSecond := by
  cases hp with
  | number n => trivial
  | time t => exact h
  | numberText hread => trivial
  | timeText hread => exact h _ (readTime_eq_ok hread)

/-- Where no leap second is compared, what is less than something less is never found to be equal or
greater. -/
theorem looseCmp_not_contradicted {a b c : Value} (ha : a.NoLeapSecond) (hb : b.NoLeapSecond)
    (hc : c.NoLeapSecond) (hab : looseCmp a b = .ok (some .lt))
    (hbc : looseCmp b c = .ok (some .lt)) {o : Ordering} (hac : looseCmp a c = .ok (some o)) :
    o = .lt := by
  obtain ⟨p, q, hp, hq, hpq⟩ := points_of_looseCmp hab
  obtain ⟨q', r, hq', hr, hqr⟩ := points_of_looseCmp hbc
  obtain ⟨p', r', hp', hr', hpr⟩ := points_of_looseCmp hac
  -- a value is compared as the same on both occasions
  obtain rfl := comparedAs_unique hp hp'
  obtain rfl := comparedAs_unique hq hq'
  obtain rfl := comparedAs_unique hr hr'
  rw [← hpr]
  exact Point.compare_trans (noLeapSecond_point ha hp) (noLeapSecond_point hb hq)
    (noLeapSecond_point hc hr) hpq hqr

/-- The last nanosecond before 1970 is in the millisecond before zero. -/
theorem looseCmp_not_contradicted_epoch :
    let before : Instant :=
      ⟨⟨1969, 12, 31, by decide⟩, 86399, 999999999, by decide, by decide⟩
    let after : Instant := ⟨⟨1970, 1, 1, by decide⟩, 0, 1000000, by decide, by decide⟩
    looseCmp (time before) (number 0) = .ok (some .lt) ∧
      looseCmp (number 0) (time after) = .ok (some .lt) ∧
      looseCmp (time before) (time after) = .ok (some .lt) := by
  intro before after
  have hbefore : looseCmp (time before) (number 0) = .ok (some .lt) :=
    congrArg (fun o => Except.ok (some o)) (show compare before.millis 0 = .lt by decide)
  have hafter : looseCmp (number 0) (time after) = .ok (some .lt) :=
    congrArg (fun o => Except.ok (some o)) (show compare 0 after.millis = .lt by decide)
  have horder : looseCmp (time before) (time after) = .ok (some (before.compare after)) := rfl
  have hless : before.compare after = .lt :=
    looseCmp_not_contradicted (a := time before) (b := number 0) (c := time after)
      rfl trivial rfl hbefore hafter horder
  exact ⟨hbefore, hafter, by rw [horder, hless]⟩

-- a leap second is before the minute that follows it and counts as the first second of that minute
example :
    let leap : Instant :=
      ⟨⟨1969, 12, 31, by decide⟩, 86399, 1500000000, by decide, by decide⟩
    let next : Instant :=
      ⟨⟨1970, 1, 1, by decide⟩, 0, 100000000, by decide, by decide⟩
    looseCmp (time leap) (time next) = .ok (some .lt) ∧
      looseCmp (time next) (number 200) = .ok (some .lt) ∧
      looseCmp (time leap) (number 200) = .ok (some .gt) :=
  ⟨rfl, rfl, rfl⟩

end Value

end Colloquy
