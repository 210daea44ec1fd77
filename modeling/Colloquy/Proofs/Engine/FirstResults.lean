import Colloquy.Proofs.Decimal
import Colloquy.Proofs.Engine.Filter

/-!
A limit, or a comparison of the position, is a gate that is open until so many candidates were
accepted, wherever it stands in a conjunction.
-/

namespace Colloquy

/-- What is made of the result of a reading has the outcome that it has for this result. -/
theorem Reading.outcome_bind {α β : Type} {answers : UInt64 → String → Except Error Value}
    {reading : Reading α} {next : α → Reading β} {a : α} (h : reading.outcome answers = .ok a) :
    (reading >>= next).outcome answers = (next a).outcome answers := by
  induction reading with
  | done result =>
    cases result with
    | error cause => cases h
    | ok b =>
      rw [← Except.ok.inj h]
      rfl
  | read message name answer ih =>
    change (Reading.read message name fun value => answer value >>= next).outcome answers = _
    rw [Reading.outcome] at h ⊢
    split at h
    · cases h
    · exact ih _ h

namespace Predicate

/-- A gate is open at every position below a number and shut there, whatever the message is. -/
def IsGate (gate : Predicate) (n : Nat) : Prop :=
  ∀ message now k, k ≤ n → truth ⟨message, .ofNat k, now⟩ gate = pure (decide (k < n))

theorem toNat_position {k : Nat} (hk : k ≤ 9223372036854775807) : (UInt64.ofNat k).toNat = k := by
  have hsize : k < UInt64.size := by
    rw [UInt64.size]
    omega
  exact UInt64.toNat_ofNat_of_lt' hsize

theorem toInt_position {k : Nat} (hk : k ≤ 9223372036854775807) :
    (UInt64.ofNat k).toInt64.toInt = k := by
  have hnat := toNat_position hk
  rw [Decimal.toInt_toInt64 (by omega), hnat]

theorem isGate_limit {n : Nat} (hn : n ≤ 9223372036854775807) : (limit (.ofNat n)).IsGate n := by
  intro message now k hk
  have hlt : UInt64.ofNat k < UInt64.ofNat n ↔ k < n := by
    rw [UInt64.lt_iff_toNat_lt, toNat_position hn, toNat_position (Nat.le_trans hk hn)]
  refine truth_of_evaluate _ ?_
  rw [evaluate]
  simp only [hlt]
  rfl

/-- A relation of the position and a number is a gate where it holds below the number only. -/
theorem isGate_relation {relation : Predicate → Predicate → Predicate} {limit : Value} {n : Nat}
    {holds : Value → Value → Except TypeMismatch Bool}
    (hevaluate : ∀ scene a b, evaluate scene (relation a b) =
      do relate holds (← evaluate scene a) (← evaluate scene b))
    (hholds : ∀ k ≤ n, holds (.number (UInt64.ofNat k).toInt64) limit = .ok (decide (k < n))) :
    (relation position (literal limit)).IsGate n := by
  intro message now k hk
  refine truth_of_evaluate _ ?_
  rw [hevaluate, evaluate, evaluate]
  change relate holds (.number (UInt64.ofNat k).toInt64) limit = _
  rw [relate, hholds k hk]
  rfl

theorem isGate_less {n : Nat} (hn : n ≤ 9223372036854775807) :
    (less position (literal (.number (.ofNat n)))).IsGate n := by
  refine isGate_relation (fun scene a b => by rw [evaluate]) fun k hk => ?_
  have hlimit : (Int64.ofNat n).toInt = n := Int64.toInt_ofNat_of_lt (by omega)
  have horder : (some (compare (k : Int) n) == some Ordering.lt) = decide (k < n) := by
    rw [Bool.eq_iff_iff]
    simp [Int.compare_eq_lt]
  rw [compareValues, Value.looseCmp, toInt_position (Nat.le_trans hk hn), hlimit, ← horder]
  rfl

/-- Nothing was accepted before the first result. -/
theorem isGate_first : (equal position (literal (.number 0))).IsGate 1 := by
  refine isGate_relation (fun scene a b => by rw [evaluate]) fun k hk => ?_
  obtain rfl | rfl : k = 0 ∨ k = 1 := by omega
  · rfl
  · rfl

section Gated
variable {α : Type} {answers : UInt64 → String → Except Error Value} {now : Instant}
  {p gate : Predicate} {number : α → UInt64} {n : Nat}

/-- A gate after a predicate that has a truth. -/
theorem outcome_gateAfter (hgate : gate.IsGate n) {message : UInt64} {k : Nat} (hk : k ≤ n)
    {b : Bool} (h : (p.truth ⟨message, .ofNat k, now⟩).outcome answers = .ok b) :
    ((and [p, gate]).truth ⟨message, .ofNat k, now⟩).outcome answers =
      .ok (b && decide (k < n)) := by
  rw [truth_and, allTrue_cons, Reading.outcome_bind h, allTrue_cons, hgate message now k hk]
  cases b <;> cases decide (k < n) <;> rfl

/-- A gate before it. Where the gate is shut the predicate is not evaluated. -/
theorem outcome_gateBefore (hgate : gate.IsGate n) {message : UInt64} {k : Nat} (hk : k ≤ n)
    {b : Bool} (h : (p.truth ⟨message, .ofNat k, now⟩).outcome answers = .ok b) :
    ((and [gate, p]).truth ⟨message, .ofNat k, now⟩).outcome answers =
      .ok (b && decide (k < n)) := by
  rw [truth_and, allTrue_cons, hgate message now k hk, pure_bind, allTrue_cons]
  cases decide (k < n) with
  | false => cases b <;> rfl
  | true =>
    rw [if_pos rfl, Reading.outcome_bind h]
    cases b <;> rfl

/-- What accepts candidates until so many are accepted selects the first of them. -/
theorem selectKnown_first {accepts : α → Bool} {candidates : List α}
    (h : ∀ c ∈ candidates, ∀ k ≤ n, (p.truth ⟨number c, .ofNat k, now⟩).outcome answers =
      .ok (accepts c && decide (k < n))) (seen : Nat) {accepted : List α}
    (hle : accepted.length ≤ n) :
    p.selectKnown answers now number (fun _ => false) seen accepted candidates =
      .ok (accepted.reverse ++ (candidates.filter accepts).take (n - accepted.length)) := by
  induction candidates generalizing seen accepted with
  | nil => simp [selectKnown]
  | cons candidate rest ih =>
    have hrest := ih fun c hc => h c (List.mem_cons_of_mem _ hc)
    rw [selectKnown, if_neg Bool.false_ne_true, h candidate List.mem_cons_self _ hle]
    cases haccepts : accepts candidate with
    | false =>
      simp only [Bool.false_and]
      rw [hrest _ hle, List.filter_cons_of_neg (Bool.not_eq_true _ ▸ haccepts)]
    | true =>
      rw [List.filter_cons_of_pos haccepts]
      by_cases hlt : accepted.length < n
      · -- the candidate is accepted, and takes the place of one of those still wanted
        have hnext : (candidate :: accepted).length ≤ n := hlt
        have hleft : n - accepted.length = n - (candidate :: accepted).length + 1 := by
          rw [List.length_cons]
          omega
        simp only [Bool.true_and, decide_eq_true hlt]
        rw [hrest _ hnext, hleft, List.take_succ_cons, List.reverse_cons, List.append_assoc]
        rfl
      · have hnone : n - accepted.length = 0 := by omega
        simp only [Bool.true_and, decide_eq_false hlt]
        rw [hrest _ hle, hnone, List.take_zero, List.take_zero]

end Gated

end Predicate

namespace Store
variable {α : Type} {source : Source} {now : Instant} {p : Predicate} {number : α → UInt64}

/-- A gate on either side of a plain predicate lets the first results through. -/
theorem select_gated (hp : p.isPlain = true) {s t : Store} (hview : t.view source = s.view source)
    {candidates found : List α} (hfound : (s.select source now p number candidates).1 = .ok found)
    {gate : Predicate} {n : Nat} (hgate : gate.IsGate n) :
    (t.select source now (.and [p, gate]) number candidates).1 = .ok (found.take n) ∧
      (t.select source now (.and [gate, p]) number candidates).1 = .ok (found.take n) := by
  have hfilters := filters_select hp s source now number
  have hjudged := hfilters.judged_of_ok hfound
  have htruth : ∀ c ∈ candidates, ∀ k ≤ n,
      (p.truth ⟨number c, .ofNat k, now⟩).outcome (t.view source) =
        .ok (decide (s.verdict source now p number c = .ok true)) := by
    intro c hc k _
    obtain ⟨b, hb⟩ := hjudged c hc
    rw [Predicate.outcome_plain hp, hview, ← verdict_eq, hb]
    cases b <;> rfl
  rw [(select_known t source now _ number candidates).1,
    (select_known t source now _ number candidates).1, hfilters.eq_filter hfound]
  constructor
  · exact Predicate.selectKnown_first
      (fun c hc k hk => Predicate.outcome_gateAfter hgate hk (htruth c hc k hk)) 0 (Nat.zero_le n)
  · exact Predicate.selectKnown_first
      (fun c hc k hk => Predicate.outcome_gateBefore hgate hk (htruth c hc k hk)) 0 (Nat.zero_le n)

/-- Where a plain predicate selects results, a limit beside it on either side lets through the first
of them, as many as it says, and so does the condition that the position is below that number; the
condition that the position is zero lets through the first. So it is in every store in which the
same is known, whatever the selections before have added to the indexes. -/
theorem select_first_results (hp : p.isPlain = true) {n : Nat} (hn : n ≤ 9223372036854775807)
    {s t : Store} (hview : t.view source = s.view source) {candidates found : List α}
    (hfound : (s.select source now p number candidates).1 = .ok found) :
    let chosen (q : Predicate) := (t.select source now q number candidates).1
    chosen (.and [p, .limit (.ofNat n)]) = .ok (found.take n) ∧
      chosen (.and [.limit (.ofNat n), p]) = .ok (found.take n) ∧
      chosen (.and [p, .less .position (.literal (.number (.ofNat n)))]) = .ok (found.take n) ∧
      chosen (.and [p, .equal .position (.literal (.number 0))]) = .ok (found.take 1) := by
  intro chosen
  obtain ⟨hafter, hbefore⟩ := select_gated hp hview hfound (Predicate.isGate_limit hn)
  obtain ⟨hbelow, -⟩ := select_gated hp hview hfound (Predicate.isGate_less hn)
  obtain ⟨hfirst, -⟩ := select_gated hp hview hfound Predicate.isGate_first
  exact ⟨hafter, hbefore, hbelow, hfirst⟩

/-- Three of four candidates are marked. The first two of them are selected also in the store that
the selection of all three has left, with marks in its index. -/
theorem select_first_two :
    let p : Predicate := .equal (.attr "mark") (.literal (.number 1))
    let s : Store := { disk := {}, directory := "idx" }
    let now : Instant := .midnight ⟨2024, 1, 1, by decide⟩
    let warm := (s.select oddMarks now p id [1, 2, 3, 5]).2
    let chosen (q : Predicate) := (warm.select oddMarks now q id [1, 2, 3, 5]).1
    p.isPlain = true ∧ (2 : Nat) ≤ 9223372036854775807 ∧
      warm.view oddMarks = s.view oddMarks ∧
      (s.select oddMarks now p id [1, 2, 3, 5]).1 = .ok [1, 3, 5] ∧
      chosen (.and [p, .limit 2]) = .ok [1, 3] ∧
      chosen (.and [.limit 2, p]) = .ok [1, 3] ∧
      chosen (.and [p, .less .position (.literal (.number 2))]) = .ok [1, 3] ∧
      chosen (.and [p, .equal .position (.literal (.number 0))]) = .ok [1] := by
  intro p s now warm chosen
  have hp : p.isPlain = true := by decide
  have htwo : (2 : Nat) ≤ 9223372036854775807 := by decide
  have hview : warm.view oddMarks = s.view oddMarks := (select_known s oddMarks now p id _).2
  have hfound : (s.select oddMarks now p id [1, 2, 3, 5]).1 = .ok [1, 3, 5] := by decide +kernel
  exact ⟨hp, htwo, hview, hfound, select_first_results hp htwo hview hfound⟩

end Store

end Colloquy
