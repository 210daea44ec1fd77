import Colloquy.Proofs.Engine

/-!
Whatever is selected from the candidates up to a point is what a selection from all of them has
found by then, in the same store.
-/

namespace Colloquy

/-- The candidates that pass when their turn comes, the first of them at a position. Each that
passes takes the next ones a position further. -/
inductive Predicate.Accepts {α : Type} (p : Predicate)
    (answers : UInt64 → String → Except Error Value) (now : Instant) (number : α → UInt64) :
    Nat → List α → List α → Prop
  | nil (position : Nat) : Accepts p answers now number position [] []
  | pass {position : Nat} {candidate : α} {rest passed : List α}
      (htrue : (p.truth ⟨number candidate, .ofNat position, now⟩).outcome answers = .ok true)
      (hrest : Accepts p answers now number (position + 1) rest passed) :
      Accepts p answers now number position (candidate :: rest) (candidate :: passed)
  | skip {position : Nat} {candidate : α} {rest passed : List α}
      (hfalse : (p.truth ⟨number candidate, .ofNat position, now⟩).outcome answers = .ok false)
      (hrest : Accepts p answers now number position rest passed) :
      Accepts p answers now number position (candidate :: rest) passed

namespace Store
variable {α : Type} (source : Source) (now : Instant) (p : Predicate) (number : α → UInt64)

/-- Candidates that are selected from in two goes. A failure of the first is that of the whole. -/
theorem selectFrom_append (token : Nat → Bool) (s : Store) (seen : Nat)
    (accepted first second : List α) :
    selectFrom source now p number token s seen accepted (first ++ second) =
      match selectFrom source now p number token s seen accepted first with
      | (.error e, s) => (.error e, s)
      | (.ok found, s) =>
        selectFrom source now p number token s (seen + first.length) found.reverse second := by
  induction first generalizing s seen accepted with
  | nil => simp only [List.nil_append, selectFrom, List.length_nil, Nat.add_zero,
      List.reverse_reverse]
  | cons candidate rest ih =>
    have hseen : seen + (candidate :: rest).length = seen + 1 + rest.length := by
      rw [List.length_cons]
      omega
    rw [List.cons_append, selectFrom, selectFrom, hseen]
    by_cases htoken : token seen = true
    · rw [if_pos htoken, if_pos htoken]
    rw [if_neg htoken, if_neg htoken]
    rcases hrun : s.run source (p.truth ⟨number candidate, .ofNat accepted.length, now⟩)
      with ⟨e | accepts, s'⟩
    · simp only [hrun]
    · cases accepts with
      | true =>
        simp only [hrun]
        exact ih s' (seen + 1) (candidate :: accepted)
      | false =>
        simp only [hrun]
        exact ih s' (seen + 1) accepted

/-- A token matters only when it is looked at, once before each candidate. -/
theorem selectFrom_congr {token token' : Nat → Bool} (s : Store) (seen : Nat) (accepted : List α)
    {candidates : List α} (h : ∀ i < candidates.length, token (seen + i) = token' (seen + i)) :
    selectFrom source now p number token s seen accepted candidates =
      selectFrom source now p number token' s seen accepted candidates := by
  induction candidates generalizing s seen accepted with
  | nil => rfl
  | cons candidate rest ih =>
    have hfirst : token seen = token' seen := h 0 (Nat.zero_lt_succ _)
    have hrest : ∀ i < rest.length, token (seen + 1 + i) = token' (seen + 1 + i) := by
      intro i hi
      have hnext := h (i + 1) (Nat.succ_lt_succ hi)
      rwa [Nat.add_right_comm, Nat.add_assoc]
    rw [selectFrom, selectFrom, hfirst]
    split
    · rfl
    rcases hrun : s.run source (p.truth ⟨number candidate, .ofNat accepted.length, now⟩)
      with ⟨e | accepts, s'⟩
    · simp only [hrun]
    · cases accepts with
      | true =>
        simp only [hrun]
        exact ih s' (seen + 1) (candidate :: accepted) hrest
      | false =>
        simp only [hrun]
        exact ih s' (seen + 1) accepted hrest

/-- A selection whose token is set at a point does what one of the candidates up to there does, and
fails in the end where candidates are left. -/
theorem selectWhile_point (s : Store) (point : Nat) (candidates : List α) :
    s.selectWhile source now (fun seen => decide (point ≤ seen)) p number candidates =
      match s.select source now p number (candidates.take point) with
      | (.error e, s) => (.error e, s)
      | (.ok found, s) =>
        (if point < candidates.length then .error .cancelled else .ok found, s) := by
  have hbefore : selectFrom source now p number (fun seen => decide (point ≤ seen)) s 0 []
      (candidates.take point) = s.select source now p number (candidates.take point) := by
    apply selectFrom_congr
    intro i hi
    have hlt : i < point := by
      rw [List.length_take] at hi
      omega
    simp only [Nat.zero_add, decide_eq_false (Nat.not_le.2 hlt)]
  have hsplit := selectFrom_append source now p number (fun seen => decide (point ≤ seen)) s 0 []
    (candidates.take point) (candidates.drop point)
  rw [List.take_append_drop, hbefore] at hsplit
  rw [selectWhile, hsplit]
  rcases s.select source now p number (candidates.take point) with ⟨e | found, s'⟩
  · rfl
  simp only
  by_cases hleft : point < candidates.length
  · -- a candidate is left, and the token is looked at before it
    have hlength : 0 + (candidates.take point).length = point := by
      rw [List.length_take]
      omega
    rw [if_pos hleft, List.drop_eq_getElem_cons hleft, selectFrom, hlength, if_pos (by simp)]
  · have hnone : candidates.drop point = [] := List.drop_eq_nil_of_le (Nat.not_lt.1 hleft)
    rw [if_neg hleft, hnone, selectFrom, List.reverse_reverse]

variable {source now p number}

theorem accepts_of_selectKnown {answers : UInt64 → String → Except Error Value}
    {seen : Nat} {accepted candidates found : List α}
    (h : p.selectKnown answers now number (fun _ => false) seen accepted candidates = .ok found) :
    ∃ passed, found = accepted.reverse ++ passed ∧
      p.Accepts answers now number accepted.length candidates passed := by
  induction candidates generalizing seen accepted with
  | nil =>
    refine ⟨[], ?_, .nil _⟩
    rw [List.append_nil]
    exact (Except.ok.inj h).symm
  | cons candidate rest ih =>
    rw [Predicate.selectKnown, if_neg Bool.false_ne_true] at h
    rcases htruth : (p.truth ⟨number candidate, .ofNat accepted.length, now⟩).outcome answers
      with e | _ | _
    · rw [htruth] at h
      cases h
    · rw [htruth] at h
      obtain ⟨passed, hfound, hrest⟩ := ih h
      exact ⟨passed, hfound, .skip htruth hrest⟩
    · rw [htruth] at h
      obtain ⟨passed, hfound, hrest⟩ := ih h
      refine ⟨candidate :: passed, ?_, .pass htruth hrest⟩
      rw [hfound, List.reverse_cons, List.append_assoc]
      rfl

/-- What a selection finds beyond what it began with are the candidates that pass. -/
theorem accepts_of_selectFrom {s s' : Store} {seen : Nat} {accepted candidates found : List α}
    (h : selectFrom source now p number (fun _ => false) s seen accepted candidates =
      (.ok found, s')) :
    ∃ passed, found = accepted.reverse ++ passed ∧
      p.Accepts (s.view source) now number accepted.length candidates passed ∧
      s'.view source = s.view source := by
  -- any attribute may be asked for
  let asked : UInt64 → String → Prop := fun _ _ => True
  have hasks : ∀ candidate ∈ candidates, ∀ name ∈ p.attributes, asked (number candidate) name :=
    fun _ _ _ _ => trivial
  obtain ⟨houtcome, hwarmed⟩ :=
    selectFrom_warmed candidates hasks now (fun _ => false) s seen accepted
  rw [h] at houtcome hwarmed
  obtain ⟨passed, hfound, haccepts⟩ := accepts_of_selectKnown houtcome.symm
  exact ⟨passed, hfound, haccepts, view_of_warmed hwarmed⟩

variable (source now p number)

/-- More candidates neither mend a failure nor change what was selected before them. -/
theorem select_append (s : Store) (first second : List α) :
    (∀ e s', s.select source now p number first = (.error e, s') →
      s.select source now p number (first ++ second) = (.error e, s')) ∧
    ∀ found s', s.select source now p number (first ++ second) = (.ok found, s') →
      ∃ before after, (s.select source now p number first).1 = .ok before ∧
        found = before ++ after ∧ p.Accepts (s.view source) now number 0 first before ∧
        p.Accepts (s.view source) now number before.length second after := by
  have hsplit : s.select source now p number (first ++ second) =
      match s.select source now p number first with
      | (.error e, s) => (.error e, s)
      | (.ok before, s) => selectFrom source now p number (fun _ => false) s (0 + first.length)
          before.reverse second :=
    selectFrom_append source now p number (fun _ => false) s 0 [] first second
  constructor
  · intro e s' h
    rw [hsplit, h]
  · intro found s' h
    rw [hsplit] at h
    rcases hfirst : s.select source now p number first with ⟨e | before, middle⟩
    · rw [hfirst] at h
      cases h
    · rw [hfirst] at h
      obtain ⟨passed, hpassed, haccepted, hview⟩ := accepts_of_selectFrom hfirst
      obtain ⟨after, hafter, hlater, -⟩ := accepts_of_selectFrom h
      rw [List.reverse_nil, List.nil_append] at hpassed
      rw [List.reverse_reverse] at hafter
      rw [List.length_reverse, hview] at hlater
      refine ⟨before, after, rfl, hafter, ?_, hlater⟩
      rw [hpassed]
      exact haccepted

end Store

namespace Engine
variable {α : Type}

section Selection
variable {e : Engine} (source : Source) (now : Instant) (number : α → UInt64)
  (hcache : e.cache.Faithful)
include hcache

/-- A query is parsed first, whatever its candidates are and whether it is cancelled. -/
theorem selectWhile_cases (query : String) :
    (∃ failure, Query.parse query = .error failure ∧ ∀ token candidates,
      e.selectWhile source now token query number candidates =
        (.error (.query failure), (e.parse query).2)) ∨
    ∃ p, Query.parse query = .ok p ∧ ∀ token candidates,
      e.selectWhile source now token query number candidates =
        ((e.store.selectWhile source now token p number candidates).1,
          { (e.parse query).2 with
            store := (e.store.selectWhile source now token p number candidates).2 }) := by
  obtain ⟨-, ⟨failure, hparse, hresult⟩ | ⟨parsed, hparse, hresult⟩⟩ :=
    ParseCache.parse_faithful hcache query
  · refine .inl ⟨failure, hparse, fun token candidates => ?_⟩
    simp only [selectWhile, parse, hresult]
  · refine .inr ⟨parsed.tree, hparse, fun token candidates => ?_⟩
    simp only [selectWhile, parse, hresult]

/-- A token that is set at a point cuts the candidates off there. -/
theorem selectWhile_point (query : String) (point : Nat) (candidates : List α) :
    e.selectWhile source now (fun seen => decide (point ≤ seen)) query number candidates =
      match Query.parse query, e.select source now query number (candidates.take point) with
      | .error failure, (_, e) => (.error (.query failure), e)
      | .ok _, (.error cause, e) => (.error cause, e)
      | .ok _, (.ok found, e) =>
        (if point < candidates.length then .error .cancelled else .ok found, e) := by
  rcases selectWhile_cases source now number hcache query with
    ⟨failure, hparse, hall⟩ | ⟨p, hparse, hall⟩
  · -- the query fails before any candidate or token is looked at
    simp only [select, hall, hparse]
  · have hpoint := Store.selectWhile_point source now p number e.store point candidates
    simp only [select, hall, hparse]
    rw [hpoint, Store.select]
    rcases e.store.selectWhile source now (fun _ => false) p number (candidates.take point)
      with ⟨cause | found, s'⟩
    · rfl
    · rfl

/-- A token that is never found set changes nothing. -/
theorem selectWhile_unset (query : String) {token : Nat → Bool} {candidates : List α}
    (htoken : ∀ seen < candidates.length, token seen = false) :
    e.selectWhile source now token query number candidates =
      e.select source now query number candidates := by
  rcases selectWhile_cases source now number hcache query with
    ⟨failure, -, hall⟩ | ⟨p, -, hall⟩
  · rw [select, hall, hall]
  · have hsame : e.store.selectWhile source now token p number candidates =
        e.store.selectWhile source now (fun _ => false) p number candidates := by
      apply Store.selectFrom_congr
      intro i hi
      rw [Nat.zero_add]
      exact htoken i hi
    rw [select, hall, hall, hsame]

/-- Further candidates neither mend a failure nor change what was selected before them. -/
theorem select_append (query : String) (first second : List α) :
    (∀ cause e', e.select source now query number first = (.error cause, e') →
      e.select source now query number (first ++ second) = (.error cause, e')) ∧
    ∀ found e', e.select source now query number (first ++ second) = (.ok found, e') →
      ∃ p before after, Query.parse query = .ok p ∧
        (e.select source now query number first).1 = .ok before ∧ found = before ++ after ∧
        p.Accepts (e.store.view source) now number 0 first before ∧
        p.Accepts (e.store.view source) now number before.length second after := by
  rcases selectWhile_cases source now number hcache query with
    ⟨failure, -, hall⟩ | ⟨p, hparse, hall⟩
  · rw [select, select, hall, hall]
    constructor
    · intro cause e' h
      exact h
    · intro found e' h
      cases h
  · have hboth := Store.select_append source now p number e.store first second
    rw [Store.select, Store.select] at hboth
    obtain ⟨hfails, hfinds⟩ := hboth
    rw [select, select, hall, hall]
    constructor
    · intro cause e' h
      obtain ⟨hcause, rfl⟩ := Prod.mk.inj h
      have hfirst := hfails cause _ (Prod.ext hcause rfl)
      rw [hfirst]
    · intro found e' h
      obtain ⟨hfound, -⟩ := Prod.mk.inj h
      obtain ⟨before, after, hbefore, happend, haccepted, hlater⟩ :=
        hfinds found _ (Prod.ext hfound rfl)
      exact ⟨p, before, after, hparse, hbefore, happend, haccepted, hlater⟩

end Selection

/-- A selection whose token is set while the candidate at a point is evaluated, or beforehand where
the point is zero, has the outcome of a selection of the candidates up to there, unless that
succeeds and candidates are left: then it has been cancelled. Both leave the same engine behind. A
token that is not set where it is looked at changes nothing. Further candidates do not mend a
failure, and what is selected with them begins with what is selected without them. -/
theorem selectWhile_until_point (s : Store) (source : Source) (limit : Nat) (earlier : List String)
    (now : Instant) (query : String) (number : α → UInt64) :
    let e : Engine := { store := s, cache := ParseCache.after limit earlier }
    (∀ point candidates,
      e.selectWhile source now (fun seen => decide (point ≤ seen)) query number candidates =
        match Query.parse query, e.select source now query number (candidates.take point) with
        | .error failure, (_, e) => (.error (.query failure), e)
        | .ok _, (.error cause, e) => (.error cause, e)
        | .ok _, (.ok found, e) =>
          (if point < candidates.length then .error .cancelled else .ok found, e)) ∧
    (∀ token candidates, (∀ seen < candidates.length, token seen = false) →
      e.selectWhile source now token query number candidates =
        e.select source now query number candidates) ∧
    ∀ first second,
      (∀ cause e', e.select source now query number first = (.error cause, e') →
        e.select source now query number (first ++ second) = (.error cause, e')) ∧
      ∀ found e', e.select source now query number (first ++ second) = (.ok found, e') →
        ∃ p before after, Query.parse query = .ok p ∧
          (e.select source now query number first).1 = .ok before ∧ found = before ++ after ∧
          p.Accepts (s.view source) now number 0 first before ∧
          p.Accepts (s.view source) now number before.length second after := by
  intro e
  have hcache : e.cache.Faithful := ParseCache.after_faithful limit earlier
  refine ⟨?_, ?_, ?_⟩
  · intro point candidates
    exact selectWhile_point source now number hcache query point candidates
  · intro token candidates htoken
    exact selectWhile_unset source now number hcache query htoken
  · intro first second
    exact select_append source now number hcache query first second

/-- Every message but the second is marked. -/
def marks : Source where
  attr? message _ := .ok (if message = 2 then none else some (.number 1))
  messages _ := .ok []

/-- The token is set while the second of three candidates is evaluated. Without it the third is
selected as well. -/
theorem selectWhile_until_second :
    let e : Engine := { store := { disk := {}, directory := "idx" }, cache := .after 256 [] }
    let now : Instant := .midnight ⟨2024, 1, 1, by decide⟩
    let select (candidates : List UInt64) := e.select marks now "(equal $mark 1)" id candidates
    e.selectWhile marks now (fun seen => decide (2 ≤ seen)) "(equal $mark 1)" id [1, 2, 3] =
        (.error .cancelled, (select [1, 2]).2) ∧
      (select [1, 2]).1 = .ok [1] ∧ (select [1, 2, 3]).1 = .ok [1, 3] ∧
      ∃ after : List UInt64, [1, 3] = [1] ++ after := by
  intro e now select
  obtain ⟨hpoint, -, hprefix⟩ :=
    selectWhile_until_point (α := UInt64) e.store marks 256 [] now "(equal $mark 1)" id
  have htwo : (select [1, 2]).1 = .ok [1] := by decide +kernel
  have hthree : (select [1, 2, 3]).1 = .ok [1, 3] := by decide +kernel
  have hparse : Query.parse "(equal $mark 1)" =
      .ok (.equal (.attr "mark") (.literal (.number 1))) := by decide +kernel
  refine ⟨?_, htwo, hthree, ?_⟩
  · have hcancelled := hpoint 2 [1, 2, 3]
    rw [hparse, List.take_succ_cons, List.take_succ_cons, List.take_zero] at hcancelled
    rcases hselect : e.select marks now "(equal $mark 1)" id [1, 2] with ⟨cause | found, after⟩
    · have hfailed : (select [1, 2]).1 = .error cause := congrArg Prod.fst hselect
      rw [htwo] at hfailed
      cases hfailed
    · have hafter : (select [1, 2]).2 = after := congrArg Prod.snd hselect
      rw [hafter]
      rw [hselect] at hcancelled
      exact hcancelled
  · obtain ⟨-, hfinds⟩ := hprefix [1, 2] [3]
    obtain ⟨_, before, after, -, hbefore, happend, -, -⟩ := hfinds [1, 3] _ (Prod.ext hthree rfl)
    rw [Except.ok.inj (hbefore.symm.trans htwo)] at happend
    exact ⟨after, happend⟩

end Engine

end Colloquy
