import Colloquy.Calendar.Timestamp
import Colloquy.Proofs.Decimal

/-!
Written instants read back. Nanoseconds past a whole second are written as one second more, and come
back so where that is no leap second.
-/

namespace Colloquy

namespace Instant

/-- The nanoseconds are past a whole second in the last second of a minute only. -/
def Regular (t : Instant) : Prop := 1000000000 ≤ t.nanos → t.second % 60 = 59

instance (t : Instant) : Decidable t.Regular := by unfold Regular; infer_instance

/-- The instant that is written for another: nanoseconds past a whole second go into the second. -/
def asWritten (t : Instant) : Instant :=
  if h : t.Regular then t
  else
    ⟨t.date, t.second + 1, t.nanos - 1000000000,
      by have := t.second_lt; unfold Regular at h; omega, by have := t.nanos_lt; omega⟩

theorem asWritten_of_regular {t : Instant} (h : t.Regular) : t.asWritten = t := dif_pos h

theorem second_asWritten {t : Instant} (h : ¬ t.Regular) : t.asWritten.second = t.second + 1 := by
  rw [asWritten, dif_neg h]

theorem asWritten_eq_self {t : Instant} : t.asWritten = t ↔ t.Regular := by
  refine ⟨fun hsame => Decidable.byContradiction fun h => ?_, asWritten_of_regular⟩
  have hsecond := second_asWritten h
  rw [hsame] at hsecond
  omega

theorem regular_asWritten (t : Instant) : t.asWritten.Regular := by
  have hnanos := t.nanos_lt
  by_cases h : t.Regular
  · rw [asWritten_of_regular h]
    exact h
  · rw [asWritten, dif_neg h]
    intro hleap
    simp only at hleap
    omega

theorem regular_of? {date : Date} {second nanos : Nat} {t : Instant}
    (h : of? date second nanos = some t) : t.Regular := by
  unfold of? at h
  split at h
  · rename_i hfits
    rw [← Option.some.inj h]
    exact hfits.2.2
  · cases h

theorem regular_ofLocal {date : Date} {second nanos : Nat} {offset : Int} {t : Instant}
    (h : ofLocal? date second nanos offset = some t) : t.Regular := by
  unfold ofLocal? at h
  simp only at h
  split at h
  · obtain ⟨day, -, hday⟩ := Option.bind_eq_some_iff.1 h
    exact regular_of? hday
  split at h
  · exact regular_of? h
  · obtain ⟨day, -, hday⟩ := Option.bind_eq_some_iff.1 h
    exact regular_of? hday

theorem ofLocal_self {t : Instant} (h : t.Regular) :
    ofLocal? t.date t.second t.nanos 0 = some t := by
  have hsecond := t.second_lt
  have hsame : ((t.second : Int) - 0).toNat = t.second := by omega
  unfold ofLocal?
  rw [if_neg (by omega), if_pos (by omega), hsame, of?, dif_pos ⟨hsecond, t.nanos_lt, h⟩]

end Instant

namespace Timestamp
open Colloquy.Decimal Colloquy.Text

/-- The text does not go on with a digit. -/
def NoDigit (rest : List Char) : Prop := ∀ c ∈ rest.head?, isDigit c = false

theorem noDigit_cons {c : Char} {rest : List Char} (h : isDigit c = false) :
    NoDigit (c :: rest) := by
  intro d hd
  rw [List.head?_cons, Option.mem_some] at hd
  exact hd ▸ h

theorem padded_cons {width n : Nat} (hwidth : 0 < width) :
    ∃ c cs, padded width n = c :: cs ∧ isDigit c = true := by
  have hge := length_padded_ge width n
  cases hp : padded width n with
  | nil =>
    rw [hp, List.length_nil] at hge
    omega
  | cons c cs =>
    exact ⟨c, cs, rfl, isDigit_of_mem_padded (show c ∈ padded width n by simp [hp])⟩

theorem takeWhile_padded {width n : Nat} :
    (padded width n).takeWhile isDigit = padded width n := by
  have hd : ∀ c ∈ padded width n, isDigit c = true := fun c hc => isDigit_of_mem_padded hc
  have h : (padded width n ++ []).takeWhile isDigit = padded width n :=
    (span_run hd fun c hc => by simp at hc).1
  rwa [List.append_nil] at h

/-- A number in the most digits that are taken is taken, whatever follows it. -/
theorem takeNumber_padded {least width n : Nat} (hleast : least ≤ width) (hwidth : 0 < width)
    (hn : n < Nat.pow 10 width) (rest : List Char) :
    takeNumber least width (padded width n ++ rest) = some (n, rest) := by
  have hlen : (padded width n).length = width := length_padded hwidth hn
  have htake : (padded width n ++ rest).take width = padded width n := by
    rw [List.take_append_of_le_length (Nat.le_of_eq hlen.symm), List.take_of_length_le
      (Nat.le_of_eq hlen)]
  have hdrop : (padded width n ++ rest).drop width = rest := List.drop_left' hlen
  simp only [takeNumber, htake, takeWhile_padded, hlen, if_pos hleast, hdrop, value_padded]

theorem takeAllDigits_padded {width n : Nat} (hwidth : 0 < width) {rest : List Char}
    (hrest : NoDigit rest) : takeAllDigits (padded width n ++ rest) = some (n, rest) := by
  have hd : ∀ c ∈ padded width n, isDigit c = true := fun c hc => isDigit_of_mem_padded hc
  have hne : (padded width n).isEmpty = false := by
    obtain ⟨c, cs, hp, -⟩ := padded_cons (n := n) hwidth
    rw [hp]
    rfl
  obtain ⟨htake, hdrop⟩ := span_run hd hrest
  simp only [takeAllDigits, htake, hdrop, hne, value_padded, Bool.false_eq_true, if_false]

theorem isBlank_of_isDigit {c : Char} (h : isDigit c = true) : isBlank c = false := by
  simp only [isDigit, Bool.and_eq_true, decide_eq_true_eq] at h
  have hlo : 48 ≤ c.toNat := h.1
  have hhi : c.toNat ≤ 57 := h.2
  have hrange : ∀ n < 58, 48 ≤ n → inRanges blankRanges n = false := by decide
  exact hrange c.toNat (Nat.lt_succ_of_le hhi) hlo

theorem trimLeft_cons {c : Char} (h : isBlank c = false) (cs : List Char) :
    trimLeft (c :: cs) = c :: cs := by
  simp [trimLeft, h]

theorem trimLeft_padded {width n : Nat} (hwidth : 0 < width) (rest : List Char) :
    trimLeft (padded width n ++ rest) = padded width n ++ rest := by
  obtain ⟨c, cs, hp, hc⟩ := padded_cons (n := n) hwidth
  rw [hp]
  exact trimLeft_cons (isBlank_of_isDigit hc) _

theorem takeShort_padded {n : Nat} (hn : n < 100) (rest : List Char) :
    takeShort (padded 2 n ++ rest) = some (n, rest) := by
  rw [takeShort, trimLeft_padded (by decide)]
  exact takeNumber_padded (by decide) (by decide) hn rest

/-- A year ends at the hyphen after it, whether it was written with a sign or not. -/
theorem takeYear_write (year : Int) (rest : List Char) :
    takeYear (writeYear year ++ '-' :: rest) = some (year, '-' :: rest) := by
  have hstop : NoDigit ('-' :: rest) := noDigit_cons (by decide)
  -- Without a sign the year has four digits and the reading takes no more; with one it takes all
  -- digits up to the hyphen.
  by_cases hplain : 0 ≤ year ∧ year ≤ 9999
  · have hyear : ((year.toNat : Nat) : Int) = year := Int.toNat_of_nonneg hplain.1
    have hfit : year.toNat < 10000 := by omega
    have htake := takeNumber_padded (show 1 ≤ 4 by decide) (by decide) hfit ('-' :: rest)
    have hsign (sign : Char) (hs : isDigit sign = false) (r : List Char) :
        padded 4 year.toNat ++ '-' :: rest ≠ sign :: r := by
      intro he
      obtain ⟨c, cs, hp, hc⟩ := padded_cons (n := year.toNat) (by decide : 0 < 4)
      rw [hp, List.cons_append, List.cons.injEq] at he
      rw [he.1, hs] at hc
      exact absurd hc (by decide)
    rw [writeYear, if_pos hplain, takeYear, trimLeft_padded (by decide)]
    split
    · rename_i r hr
      exact absurd hr (hsign '-' (by decide) r)
    · rename_i r hr
      exact absurd hr (hsign '+' (by decide) r)
    · rw [htake]
      simp only [Option.map_some, hyear]
  · rw [writeYear, if_neg hplain]
    by_cases hneg : year < 0
    · rw [if_pos hneg, takeYear, List.cons_append, trimLeft_cons (by decide)]
      simp only [takeAllDigits_padded (by decide : 0 < 4) hstop, Option.map_some]
      congr 2
      omega
    · rw [if_neg hneg, takeYear, List.cons_append, trimLeft_cons (by decide)]
      simp only [takeAllDigits_padded (by decide : 0 < 4) hstop, Option.map_some]
      congr 2
      omega

/-- Fewer than nine digits of a fraction count thousandths or millionths. -/
theorem takeNanos_padded (width : Nat) {n : Nat} (hwidth : 0 < width) (hmost : width ≤ 9)
    (hn : n < Nat.pow 10 width) {rest : List Char} (hrest : NoDigit rest) :
    takeNanos (padded width n ++ rest) = some (n * Nat.pow 10 (9 - width), rest) := by
  have hlen : (padded width n).length = width := length_padded hwidth hn
  have hd : ∀ c ∈ padded width n, isDigit c = true := fun c hc => isDigit_of_mem_padded hc
  have hne : (padded width n).isEmpty = false := by
    obtain ⟨c, cs, hp, -⟩ := padded_cons (n := n) hwidth
    rw [hp]
    rfl
  -- The ninth digit may lie past the fraction: what is cut off there is no digit either.
  have htake : ((padded width n ++ rest).take 9).takeWhile isDigit = padded width n := by
    have hcut : NoDigit (rest.take (9 - width)) := by
      cases hroom : 9 - width with
      | zero =>
        intro c hc
        simp at hc
      | succ room =>
        cases rest with
        | nil =>
          intro c hc
          simp at hc
        | cons d rest => exact noDigit_cons (hrest d rfl)
    rw [List.take_append, List.take_of_length_le (by omega), hlen]
    exact (span_run hd hcut).1
  have hdrop : ((padded width n ++ rest).drop width).dropWhile isDigit = rest := by
    have hnone : ∀ c ∈ ([] : List Char), isDigit c = true := by simp
    rw [List.drop_left' hlen]
    exact (span_run hnone hrest).2
  simp only [takeNanos, htake, hne, hlen, hdrop, value_padded, Bool.false_eq_true, if_false]

/-- A fraction ends at what follows it, which neither goes on with a digit nor has a point that
would begin a fraction where none is written. -/
theorem takeFraction_write {nanos : Nat} (hn : nanos < 1000000000) {rest : List Char}
    (hstop : NoDigit rest) (hpoint : rest.head? ≠ some '.') :
    takeFraction (writeFraction nanos ++ rest) = some (nanos, rest) := by
  unfold writeFraction
  split
  · rename_i hzero
    rw [hzero, List.nil_append]
    unfold takeFraction
    split
    · exact absurd rfl hpoint
    · rfl
  split
  · rename_i hmillis
    have hfit : nanos / 1000000 < 1000 := by omega
    have hread := takeNanos_padded 3 (by decide) (by decide) hfit hstop
    have hwhole : nanos / 1000000 * 1000000 = nanos := by omega
    rw [List.cons_append, takeFraction, hread]
    exact congrArg (fun n => some (n, rest)) hwhole
  split
  · rename_i hmicros
    have hfit : nanos / 1000 < 1000000 := by omega
    have hread := takeNanos_padded 6 (by decide) (by decide) hfit hstop
    have hwhole : nanos / 1000 * 1000 = nanos := by omega
    rw [List.cons_append, takeFraction, hread]
    exact congrArg (fun n => some (n, rest)) hwhole
  · have hread := takeNanos_padded 9 (by decide) (by decide) hn hstop
    rw [List.cons_append, takeFraction, hread]
    exact congrArg (fun n => some (n, rest)) (Nat.mul_one nanos)

/-- The parts that an instant is written in. The sixtieth second of a minute is a leap second. -/
def partsOf (t : Instant) : Parts where
  year := t.date.year
  month := t.date.month
  day := t.date.day
  hour := t.second / 3600
  minute := t.second / 60 % 60
  second := t.second % 60 + t.nanos / 1000000000
  nanos := t.nanos % 1000000000
  offset := 0

theorem toInstant_eq {p : Parts} {date : Date} {second nanos : Nat}
    (hdate : Date.of? p.year p.month p.day = some date)
    (hrange : ¬ (23 < p.hour ∨ 59 < p.minute ∨ 60 < p.second ∨ 86400 ≤ p.offset ∨
      p.offset ≤ -86400))
    (hsecond : (p.hour * 60 + p.minute) * 60 + min p.second 59 = second)
    (hnanos : p.nanos + (if p.second = 60 then 1000000000 else 0) = nanos) :
    p.toInstant? = Instant.ofLocal? date second nanos p.offset := by
  subst hsecond hnanos
  rw [Parts.toInstant?, hdate]
  exact if_neg hrange

theorem partsOf_toInstant (t : Instant) : (partsOf t).toInstant? = some t.asWritten := by
  have hsecond := t.second_lt
  have hnanos := t.nanos_lt
  have hdate : Date.of? t.date.year t.date.month t.date.day = some t.date := by
    rw [Date.of?, dif_pos t.date.valid]
  have hrange : ¬ (23 < (partsOf t).hour ∨ 59 < (partsOf t).minute ∨ 60 < (partsOf t).second ∨
      86400 ≤ (partsOf t).offset ∨ (partsOf t).offset ≤ -86400) := by
    simp only [partsOf]
    omega
  have hself := Instant.ofLocal_self t.regular_asWritten
  by_cases hregular : t.Regular
  · -- a leap second is written as second 60 and stored as a count past a whole second
    rw [Instant.asWritten_of_regular hregular] at hself ⊢
    unfold Instant.Regular at hregular
    refine (toInstant_eq hdate hrange ?_ ?_).trans hself
    · simp only [partsOf]
      omega
    · by_cases h60 : (partsOf t).second = 60
      · rw [if_pos h60]
        simp only [partsOf] at h60 ⊢
        omega
      · rw [if_neg h60]
        simp only [partsOf] at h60 ⊢
        omega
  · -- at any other second the count is carried, and the next second is written
    rw [Instant.asWritten, dif_neg hregular] at hself ⊢
    unfold Instant.Regular at hregular
    have h60 : (partsOf t).second ≠ 60 := by
      simp only [partsOf]
      omega
    refine (toInstant_eq hdate hrange ?_ ?_).trans hself
    · simp only [partsOf]
      omega
    · rw [if_neg h60]
      simp only [partsOf]
      omega

theorem regular_toInstant {p : Parts} {t : Instant} (h : p.toInstant? = some t) : t.Regular := by
  unfold Parts.toInstant? at h
  obtain ⟨date, -, h⟩ := Option.bind_eq_some_iff.1 h
  split at h
  · cases h
  · exact Instant.regular_ofLocal h

theorem takeChar_self (c : Char) (rest : List Char) : takeChar c (c :: rest) = some rest := by
  rw [takeChar, if_pos rfl]

theorem month_lt (d : Date) : d.month < 100 := by
  have h := d.valid.2.2.2.1
  omega

theorem day_lt (d : Date) : d.day < 100 := by
  have hmax : daysInMonth d.year d.month ≤ 31 := by
    unfold daysInMonth
    split
    · split <;> omega
    all_goals omega
  have h := d.valid.2.2.2.2.2
  omega

/-- The parts of a written instant in the order in which they are read. -/
theorem write_parts (zone : List Char) (t : Instant) :
    write zone t = writeYear t.date.year ++ '-' :: (padded 2 t.date.month ++
      '-' :: (padded 2 t.date.day ++ 'T' :: (padded 2 (t.second / 3600) ++
        ':' :: (padded 2 (t.second / 60 % 60) ++
          ':' :: (padded 2 (t.second % 60 + t.nanos / 1000000000) ++
            (writeFraction (t.nanos % 1000000000) ++ zone)))))) := by
  simp only [write, writeDate, writeTime, List.append_assoc, List.cons_append]

theorem takeSeparator_write (rest : List Char) : takeSeparator ('T' :: rest) = some rest := rfl

theorem takeZone_compact : takeZone ['Z'] = some (0, []) := rfl

/-- Where one part is read, the rest is read after it. -/
theorem read_on {α β : Type} {part : Option α} {found : α} {next : α → Option β} {result : Option β}
    (hpart : part = some found) (hnext : next found = result) : (part >>= next) = result := by
  rw [hpart]
  exact hnext

/-- Every instant reads back from its stored form as it was written. -/
theorem readLenient_compact (t : Instant) : readLenient (compact t) = some t.asWritten := by
  have hsecond := t.second_lt
  have hnanos := t.nanos_lt
  have hhyphen (cs : List Char) : takeChar '-' (trimLeft ('-' :: cs)) = some cs := by
    rw [trimLeft_cons (by decide), takeChar_self]
  have hcolon (cs : List Char) : takeChar ':' (trimLeft (':' :: cs)) = some cs := by
    rw [trimLeft_cons (by decide), takeChar_self]
  have hzone : takeZone (trimLeft ['Z']) = some (0, []) := by
    rw [trimLeft_cons (by decide), takeZone_compact]
  rw [compact, write_parts, readLenient]
  -- the date
  refine read_on (takeYear_write _ _) ?_
  refine read_on (hhyphen _) ?_
  refine read_on (takeShort_padded (month_lt t.date) _) ?_
  refine read_on (hhyphen _) ?_
  refine read_on (takeShort_padded (day_lt t.date) _) ?_
  refine read_on (takeSeparator_write _) ?_
  -- the time of the day
  refine read_on (takeShort_padded (show t.second / 3600 < 100 by omega) _) ?_
  refine read_on (hcolon _) ?_
  refine read_on (takeShort_padded (show t.second / 60 % 60 < 100 by omega) _) ?_
  refine read_on (hcolon _) ?_
  refine read_on
    (takeShort_padded (show t.second % 60 + t.nanos / 1000000000 < 100 by omega) _) ?_
  refine read_on (takeFraction_write (by omega) (noDigit_cons (by decide)) (by decide)) ?_
  refine read_on hzone ?_
  exact partsOf_toInstant t

/-- What is read are parts that the calendar has an instant for. -/
theorem regular_readLenient {cs : List Char} {t : Instant} (h : readLenient cs = some t) :
    t.Regular := by
  simp only [readLenient, Option.bind_eq_bind, Option.bind_eq_some_iff, Prod.exists] at h
  obtain ⟨_, _, -, _, -, _, _, -, _, -, _, _, -, _, -, _, _, -, _, -, _, _, -, _, -, _, _, -,
    _, _, -, _, _, -, h⟩ := h
  split at h
  · exact regular_toInstant h
  · cases h

end Timestamp

end Colloquy
