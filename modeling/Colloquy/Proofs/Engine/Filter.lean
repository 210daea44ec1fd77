import Colloquy.Proofs.Engine
import Colloquy.Proofs.Predicate.Plain

/-!
A selection by a predicate in which neither a position nor a limit occurs is a filter.
-/

namespace Colloquy
variable {α : Type}

/-- Of candidates that are judged one by one, those are chosen that are accepted, unless some cannot
be judged: then nothing is, for the reason that the first of these gives. -/
structure Filters (verdict : α → Except Error Bool) (chosen : List α → Except Error (List α)) :
    Prop where
  judged : ∀ {xs}, (∀ c ∈ xs, ∃ b, verdict c = .ok b) →
    chosen xs = .ok (xs.filter fun c => verdict c = .ok true)
  failed : ∀ {before c after e}, (∀ b ∈ before, ∃ accepts, verdict b = .ok accepts) →
    verdict c = .error e → chosen (before ++ c :: after) = .error e

namespace Filters
variable {verdict : α → Except Error Bool} {chosen : List α → Except Error (List α)}

/-- Either all candidates can be judged, or one is the first that cannot. -/
theorem judged_cases (verdict : α → Except Error Bool) (xs : List α) :
    (∀ c ∈ xs, ∃ b, verdict c = .ok b) ∨
      ∃ before c after e, xs = before ++ c :: after ∧
        (∀ b ∈ before, ∃ accepts, verdict b = .ok accepts) ∧ verdict c = .error e := by
  induction xs with
  | nil => exact .inl fun c hc => absurd hc List.not_mem_nil
  | cons first rest ih =>
    cases hfirst : verdict first with
    | error e => exact .inr ⟨[], first, rest, e, rfl, by simp, hfirst⟩
    | ok b =>
      rcases ih with hall | ⟨before, c, after, e, rfl, hbefore, hc⟩
      · refine .inl fun c hc => ?_
        rcases List.mem_cons.1 hc with rfl | hc
        · exact ⟨b, hfirst⟩
        · exact hall c hc
      · refine .inr ⟨first :: before, c, after, e, rfl, fun d hd => ?_, hc⟩
        rcases List.mem_cons.1 hd with rfl | hd
        · exact ⟨b, hfirst⟩
        · exact hbefore d hd

variable (h : Filters verdict chosen) {xs ys found : List α}
include h

theorem judged_of_ok (hfound : chosen xs = .ok found) : ∀ c ∈ xs, ∃ b, verdict c = .ok b := by
  rcases judged_cases verdict xs with hall | ⟨before, c, after, e, rfl, hbefore, hc⟩
  · exact hall
  · rw [h.failed hbefore hc] at hfound
    cases hfound

theorem ok_iff : (∃ found, chosen xs = .ok found) ↔ ∀ c ∈ xs, ∃ b, verdict c = .ok b :=
  ⟨fun ⟨_, hfound⟩ => h.judged_of_ok hfound, fun hall => ⟨_, h.judged hall⟩⟩

theorem eq_filter (hfound : chosen xs = .ok found) :
    found = xs.filter fun c => verdict c = .ok true := by
  rw [h.judged (h.judged_of_ok hfound)] at hfound
  exact (Except.ok.inj hfound).symm

theorem error_iff {e : Error} : chosen xs = .error e ↔ ∃ before c after, xs = before ++ c :: after ∧
    (∀ b ∈ before, ∃ accepts, verdict b = .ok accepts) ∧ verdict c = .error e := by
  constructor
  · intro herror
    rcases judged_cases verdict xs with hall | ⟨before, c, after, cause, rfl, hbefore, hc⟩
    · rw [h.judged hall] at herror
      cases herror
    · rw [h.failed hbefore hc] at herror
      rw [← Except.error.inj herror]
      exact ⟨before, c, after, rfl, hbefore, hc⟩
  · rintro ⟨before, c, after, rfl, hbefore, hc⟩
    exact h.failed hbefore hc

theorem perm (hperm : xs.Perm ys) (hfound : chosen xs = .ok found) :
    ∃ found', chosen ys = .ok found' ∧ found.Perm found' := by
  have hxs := h.judged_of_ok hfound
  have hys : ∀ c ∈ ys, ∃ b, verdict c = .ok b := fun c hc => hxs c (hperm.mem_iff.2 hc)
  rw [h.eq_filter hfound]
  exact ⟨_, h.judged hys, hperm.filter _⟩

theorem append (xs ys : List α) : chosen (xs ++ ys) = do
    let first ← chosen xs
    let second ← chosen ys
    return first ++ second := by
  rcases judged_cases verdict xs with hxs | ⟨before, c, after, e, rfl, hbefore, hc⟩
  · rcases judged_cases verdict ys with hys | ⟨before, c, after, e, rfl, hbefore, hc⟩
    · have hboth : ∀ c ∈ xs ++ ys, ∃ b, verdict c = .ok b := fun c hc =>
        (List.mem_append.1 hc).elim (hxs c) (hys c)
      rw [h.judged hxs, h.judged hys, h.judged hboth, List.filter_append]
      rfl
    · -- the first failure of the second list comes after all of the first
      have hboth : ∀ b ∈ xs ++ before, ∃ accepts, verdict b = .ok accepts := fun b hb =>
        (List.mem_append.1 hb).elim (hxs b) (hbefore b)
      rw [h.judged hxs, h.failed hbefore hc, ← List.append_assoc, h.failed hboth hc]
      rfl
  · rw [h.failed hbefore hc, List.append_assoc, List.cons_append, h.failed hbefore hc]
    rfl

end Filters

namespace Predicate
variable {answers : UInt64 → String → Except Error Value} {now : Instant} {p : Predicate}
  {number : α → UInt64}

/-- How a predicate judges a candidate before which none was accepted. -/
def judge (answers : UInt64 → String → Except Error Value) (now : Instant) (p : Predicate)
    (number : α → UInt64) (candidate : α) : Except Error Bool :=
  (p.truth ⟨number candidate, 0, now⟩).outcome answers

/-- Where a predicate has one truth for each candidate, whatever was accepted before it, exactly
those are selected for which it holds. -/
theorem selectKnown_eq_filter {accepts : α → Bool} {candidates : List α}
    (h : ∀ c ∈ candidates, ∀ position,
      (p.truth ⟨number c, position, now⟩).outcome answers = .ok (accepts c))
    (seen : Nat) (accepted : List α) :
    p.selectKnown answers now number (fun _ => false) seen accepted candidates =
      .ok (accepted.reverse ++ candidates.filter accepts) := by
  induction candidates generalizing seen accepted with
  | nil => rw [selectKnown, List.filter_nil, List.append_nil]
  | cons candidate rest ih =>
    have hrest := ih fun c hc => h c (List.mem_cons_of_mem _ hc)
    rw [selectKnown, if_neg Bool.false_ne_true, h candidate List.mem_cons_self]
    cases haccepts : accepts candidate with
    | true =>
      simp only
      rw [hrest, List.filter_cons_of_pos haccepts, List.reverse_cons, List.append_assoc]
      rfl
    | false =>
      simp only
      rw [hrest, List.filter_cons_of_neg (Bool.not_eq_true _ ▸ haccepts)]

section Plain
variable (hp : p.isPlain = true)
include hp

theorem outcome_plain (candidate : α) (position : UInt64) :
    (p.truth ⟨number candidate, position, now⟩).outcome answers =
      p.judge answers now number candidate := by
  rw [judge, truth_plain (number candidate) position 0 now hp]

theorem selectKnown_judged {candidates : List α}
    (hall : ∀ c ∈ candidates, ∃ b, p.judge answers now number c = .ok b) :
    p.selectKnown answers now number (fun _ => false) 0 [] candidates =
      .ok (candidates.filter fun c => p.judge answers now number c = .ok true) := by
  refine selectKnown_eq_filter (fun c hc position => ?_) 0 []
  obtain ⟨b, hb⟩ := hall c hc
  rw [outcome_plain hp, hb]
  cases b <;> rfl

theorem selectKnown_failed {before after : List α} {c : α} {e : Error}
    (hbefore : ∀ b ∈ before, ∃ accepts, p.judge answers now number b = .ok accepts)
    (hc : p.judge answers now number c = .error e) (seen : Nat) (accepted : List α) :
    p.selectKnown answers now number (fun _ => false) seen accepted (before ++ c :: after) =
      .error e := by
  induction before generalizing seen accepted with
  | nil => rw [List.nil_append, selectKnown, if_neg Bool.false_ne_true, outcome_plain hp, hc]
  | cons first rest ih =>
    obtain ⟨b, hb⟩ := hbefore first List.mem_cons_self
    have hrest := ih fun d hd => hbefore d (List.mem_cons_of_mem _ hd)
    rw [List.cons_append, selectKnown, if_neg Bool.false_ne_true, outcome_plain hp, hb]
    cases b with
    | true => exact hrest _ _
    | false => exact hrest _ _

end Plain

end Predicate

namespace Store
variable {p : Predicate}

theorem select_known (s : Store) (source : Source) (now : Instant) (p : Predicate)
    (number : α → UInt64) (candidates : List α) :
    (s.select source now p number candidates).1 =
        p.selectKnown (s.view source) now number (fun _ => false) 0 [] candidates ∧
      (s.select source now p number candidates).2.view source = s.view source := by
  -- any attribute may be asked for
  let asked : UInt64 → String → Prop := fun _ _ => True
  have hasks : ∀ candidate ∈ candidates, ∀ name ∈ p.attributes, asked (number candidate) name :=
    fun _ _ _ _ => trivial
  obtain ⟨houtcome, hwarmed⟩ := selectFrom_warmed candidates hasks now (fun _ => false) s 0 []
  exact ⟨houtcome, view_of_warmed hwarmed⟩

theorem run_truth (s : Store) (source : Source) (p : Predicate) (scene : Predicate.Scene) :
    (s.run source (p.truth scene)).1 = (p.truth scene).outcome (s.view source) := by
  let asked : UInt64 → String → Prop := fun _ _ => True
  have hasks : (p.truth scene).Asks asked := p.asks_truth scene fun _ _ => trivial
  exact (run_warmed s hasks).1

/-- How a predicate judges a candidate in a store before anything is selected. -/
def verdict (s : Store) (source : Source) (now : Instant) (p : Predicate) (number : α → UInt64)
    (candidate : α) : Except Error Bool :=
  (s.run source (p.truth ⟨number candidate, 0, now⟩)).1

theorem verdict_eq (s : Store) (source : Source) (now : Instant) (p : Predicate)
    (number : α → UInt64) :
    s.verdict source now p number = p.judge (s.view source) now number :=
  funext fun c => run_truth s source p ⟨number c, 0, now⟩

theorem filters_select (hp : p.isPlain = true) (s : Store) (source : Source) (now : Instant)
    (number : α → UInt64) :
    Filters (s.verdict source now p number)
      fun candidates => (s.select source now p number candidates).1 := by
  rw [verdict_eq]
  constructor
  · intro xs hall
    rw [(select_known s source now p number xs).1, Predicate.selectKnown_judged hp hall]
  · intro before c after e hbefore hc
    rw [(select_known s source now p number _).1, Predicate.selectKnown_failed hp hbefore hc]

/-- A selection by a plain predicate is a filter. It succeeds where the predicate has a truth for
each candidate in the store at the beginning, with those for which that is true, and it fails as the
first candidate without one does. So candidates in another order are accepted in another order, and
candidates that follow others add to what is selected from these. -/
theorem select_plain (hp : p.isPlain = true) (s : Store) (source : Source) (now : Instant)
    (number : α → UInt64) :
    let verdict (c : α) := (s.run source (p.truth ⟨number c, 0, now⟩)).1
    let chosen (candidates : List α) := (s.select source now p number candidates).1
    (∀ xs, (∃ found, chosen xs = .ok found) ↔ ∀ c ∈ xs, ∃ b, verdict c = .ok b) ∧
    (∀ xs found, chosen xs = .ok found → found = xs.filter fun c => verdict c = .ok true) ∧
    (∀ xs e, chosen xs = .error e ↔ ∃ before c after, xs = before ++ c :: after ∧
      (∀ b ∈ before, ∃ accepts, verdict b = .ok accepts) ∧ verdict c = .error e) ∧
    (∀ xs ys found, xs.Perm ys → chosen xs = .ok found →
      ∃ found', chosen ys = .ok found' ∧ found.Perm found') ∧
    ∀ xs ys, chosen (xs ++ ys) = do
      let first ← chosen xs
      let second ← chosen ys
      return first ++ second := by
  have hfilters := filters_select hp s source now number
  refine ⟨fun xs => ?_, fun xs found => ?_, fun xs e => ?_, fun xs ys found => ?_, ?_⟩
  · exact hfilters.ok_iff
  · exact hfilters.eq_filter
  · exact hfilters.error_iff
  · exact hfilters.perm
  · exact hfilters.append

/-- Messages have the mark 1, but the second has none, and that of the fourth is no number. -/
def oddMarks : Source where
  attr? message _ :=
    .ok (if message = 2 then none else some (if message = 4 then .boolean true else .number 1))
  messages _ := .ok []

/-- The first message is a candidate twice, and is accepted twice in either order. The fourth cannot
be judged. -/
theorem select_plain_marked :
    let p : Predicate := .equal (.attr "mark") (.literal (.number 1))
    let s : Store := { disk := {}, directory := "idx" }
    let now : Instant := .midnight ⟨2024, 1, 1, by decide⟩
    let chosen (candidates : List UInt64) := (s.select oddMarks now p id candidates).1
    p.isPlain = true ∧ chosen [1, 2, 3, 1] = .ok [1, 3, 1] ∧
      (∃ found, chosen [3, 2, 1, 1] = .ok found ∧ [1, 3, 1].Perm found) ∧
      chosen [2, 4, 1] = .error (.mismatch (.equalityUndefined .boolean .number)) := by
  intro p s now chosen
  have hp : p.isPlain = true := by decide
  obtain ⟨-, -, herror, hperm, -⟩ := select_plain (α := UInt64) hp s oddMarks now id
  have hfound : chosen [1, 2, 3, 1] = .ok [1, 3, 1] := by decide +kernel
  refine ⟨hp, hfound, hperm [1, 2, 3, 1] [3, 2, 1, 1] [1, 3, 1] (by decide) hfound, ?_⟩
  -- the second message is judged, and the fourth is the first that is not
  refine (herror [2, 4, 1] _).2 ⟨[2], 4, [1], rfl, fun b hb => ?_, by decide +kernel⟩
  rw [List.mem_singleton.1 hb]
  exact ⟨false, by decide +kernel⟩

end Store

end Colloquy
