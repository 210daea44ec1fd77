import Colloquy.Proofs.Engine

/-!
Runs that record what they ask for. All answers are those of the beginning, and what a run adds to
the indexes is told by the record.
-/

namespace Colloquy

/-- An attribute that was asked for. -/
structure Answered where
  message : UInt64
  name : String
  answer : Except Error Value

namespace Store
variable {source : Source} {asked : UInt64 → String → Prop}

/-- A reading, recorded. An answer that is an error is the last one. -/
def record {α : Type} (s : Store) (source : Source) :
    Reading α → (Except Error α × Store) × List Answered
  | .done outcome => ((outcome.mapError .mismatch, s), [])
  | .read message name next =>
    match s.attr source message name with
    | (.error e, s) => ((.error e, s), [⟨message, name, .error e⟩])
    | (.ok value, s) =>
      let (result, later) := record s source (next value)
      (result, ⟨message, name, .ok value⟩ :: later)

theorem record_run {α : Type} (s : Store) (source : Source) (reading : Reading α) :
    (s.record source reading).1 = s.run source reading := by
  induction reading generalizing s with
  | done outcome => rfl
  | read message name next ih =>
    rw [record, run]
    rcases s.attr source message name with ⟨e | value, s'⟩
    · rfl
    · exact ih value s'

theorem record_answers {α : Type} (source : Source) (s : Store) {reading : Reading α}
    (hasks : reading.Asks asked) :
    ∀ a ∈ (s.record source reading).2,
      asked a.message a.name ∧ a.answer = s.view source a.message a.name := by
  induction reading generalizing s with
  | done outcome =>
    intro a ha
    cases ha
  | read message name next ih =>
    obtain ⟨hasked, hnext⟩ := hasks
    have hattr : (s.attr source message name).1 = s.view source message name ∧
        Warmed source asked s (s.attr source message name).2 := attr_warmed s hasked
    obtain ⟨hvalue, hwarmed⟩ := hattr
    intro a ha
    rw [record] at ha
    rcases hattr : s.attr source message name with ⟨e | value, s'⟩
    · rw [hattr] at ha hvalue
      rw [List.mem_singleton.1 ha]
      exact ⟨hasked, hvalue⟩
    · rw [hattr] at ha hvalue hwarmed
      rcases List.mem_cons.1 ha with rfl | hlater
      · exact ⟨hasked, hvalue⟩
      · -- later answers are those of a warmer store, where the same is known
        rw [← view_of_warmed hwarmed]
        exact ih value s' (hnext value) a hlater

section Selection
variable {α : Type}

/-- A selection, recorded. -/
def recordFrom (source : Source) (now : Instant) (p : Predicate) (number : α → UInt64)
    (token : Nat → Bool) (s : Store) (seen : Nat) (accepted : List α) :
    List α → (Except Error (List α) × Store) × List Answered
  | [] => ((.ok accepted.reverse, s), [])
  | candidate :: rest =>
    if token seen then ((.error .cancelled, s), [])
    else
      match s.record source (p.truth ⟨number candidate, .ofNat accepted.length, now⟩) with
      | ((.error e, s), asked) => ((.error e, s), asked)
      | ((.ok true, s), asked) =>
        let (result, later) :=
          recordFrom source now p number token s (seen + 1) (candidate :: accepted) rest
        (result, asked ++ later)
      | ((.ok false, s), asked) =>
        let (result, later) := recordFrom source now p number token s (seen + 1) accepted rest
        (result, asked ++ later)

theorem recordFrom_selectFrom (now : Instant) (p : Predicate) (number : α → UInt64)
    (token : Nat → Bool) (s : Store) (seen : Nat) (accepted candidates : List α) :
    (recordFrom source now p number token s seen accepted candidates).1 =
      selectFrom source now p number token s seen accepted candidates := by
  induction candidates generalizing s seen accepted with
  | nil => rfl
  | cons candidate rest ih =>
    rw [recordFrom, selectFrom]
    split
    · rfl
    · simp only [← record_run]
      rcases s.record source (p.truth ⟨number candidate, .ofNat accepted.length, now⟩)
        with ⟨⟨e | accepts, s'⟩, asked⟩
      · rfl
      · cases accepts with
        | true => exact ih s' (seen + 1) (candidate :: accepted)
        | false => exact ih s' (seen + 1) accepted

theorem recordFrom_answers {p : Predicate} {number : α → UInt64} (candidates : List α)
    (hp : ∀ candidate ∈ candidates, ∀ name ∈ p.attributes, asked (number candidate) name)
    (now : Instant) (token : Nat → Bool) (s : Store) (seen : Nat) (accepted : List α) :
    ∀ a ∈ (recordFrom source now p number token s seen accepted candidates).2,
      asked a.message a.name ∧ a.answer = s.view source a.message a.name := by
  induction candidates generalizing s seen accepted with
  | nil =>
    intro a ha
    cases ha
  | cons candidate rest ih =>
    have ih := ih fun c hc => hp c (List.mem_cons_of_mem _ hc)
    have hasks := p.asks_truth ⟨number candidate, .ofNat accepted.length, now⟩
      (hp candidate List.mem_cons_self)
    have hanswers := record_answers source s hasks
    have hwarmed : Warmed source asked s (s.record source
        (p.truth ⟨number candidate, .ofNat accepted.length, now⟩)).1.2 := by
      rw [record_run]
      exact (run_warmed s hasks).2
    intro a ha
    rw [recordFrom] at ha
    split at ha
    · cases ha
    rcases hrecord : s.record source (p.truth ⟨number candidate, .ofNat accepted.length, now⟩)
      with ⟨⟨e | accepts, s'⟩, first⟩
    · rw [hrecord] at ha hanswers
      exact hanswers a ha
    · rw [hrecord] at ha hanswers hwarmed
      have hview : s'.view source = s.view source := view_of_warmed hwarmed
      cases accepts with
      | true =>
        rcases List.mem_append.1 ha with hfirst | hlater
        · exact hanswers a hfirst
        · rw [← hview]
          exact ih s' (seen + 1) (candidate :: accepted) a hlater
      | false =>
        rcases List.mem_append.1 ha with hfirst | hlater
        · exact hanswers a hfirst
        · rw [← hview]
          exact ih s' (seen + 1) accepted a hlater

end Selection

/-- What is found of an attribute once it was asked for. -/
def fetch (s : Store) (source : Source) (message : UInt64) (name : String) :
    Except Error (Option Value) :=
  match (s.get? name message).1 with
  | .ok none => .ok (source.attr? message name).toOption.join
  | found => found

theorem fetch_of_none {s : Store} {message : UInt64} {name : String}
    (h : (s.get? name message).1 = .ok none) :
    s.fetch source message name = .ok (source.attr? message name).toOption.join := by
  rw [fetch, h]

theorem fetch_of_some {s : Store} {message : UInt64} {name : String} {value : Value}
    (h : (s.get? name message).1 = .ok (some value)) :
    s.fetch source message name = .ok (some value) := by
  rw [fetch, h]

theorem fetch_congr {s t : Store} {message : UInt64} {name : String}
    (h : (t.get? name message).1 = (s.get? name message).1) :
    t.fetch source message name = s.fetch source message name := by
  rw [fetch, fetch, h]

/-- What was asked for once is found the same when it is asked for again. -/
theorem fetch_again {s t : Store} {message : UInt64} {name : String}
    (h : (t.get? name message).1 = s.fetch source message name) :
    t.fetch source message name = s.fetch source message name := by
  rw [fetch] at h ⊢
  rw [h]
  rcases hget : (s.get? name message).1 with e | ⟨_ | value⟩
  · rw [fetch, hget]
  · rw [fetch, hget]
    cases (source.attr? message name).toOption.join <;> rfl
  · rw [fetch, hget]

/-- An attribute is among those that were asked for. -/
def Among (asked : List Answered) (message : UInt64) (name : String) : Prop :=
  ∃ a ∈ asked, a.message = message ∧ a.name = name

instance (asked : List Answered) (message : UInt64) (name : String) :
    Decidable (Among asked message name) := by
  unfold Among; infer_instance

/-- The second store has what the first one finds for the attributes that were asked for, and what
it has for all others. -/
def Fetched (source : Source) (asked : List Answered) (s t : Store) : Prop :=
  ∀ message name, (t.get? name message).1 =
    if Among asked message name then s.fetch source message name else (s.get? name message).1

theorem fetched_refl (s : Store) : Fetched source [] s s := by
  intro message name
  rw [if_neg]
  rintro ⟨a, ha, -⟩
  cases ha

theorem fetched_trans {first second : List Answered} {s₁ s₂ s₃ : Store}
    (h₁ : Fetched source first s₁ s₂) (h₂ : Fetched source second s₂ s₃) :
    Fetched source (first ++ second) s₁ s₃ := by
  intro message name
  have happend : Among (first ++ second) message name ↔
      Among first message name ∨ Among second message name := by
    simp only [Among, List.mem_append, or_and_right, exists_or]
  have hbetween := h₁ message name
  rw [h₂ message name]
  by_cases hfirst : Among first message name
  · rw [if_pos hfirst] at hbetween
    rw [if_pos (happend.2 (.inl hfirst)), fetch_again hbetween, hbetween, ite_self]
  · rw [if_neg hfirst] at hbetween
    rw [fetch_congr hbetween, hbetween]
    simp only [happend, hfirst, false_or]

theorem fetched_attr (s : Store) (message : UInt64) (name : String) (answer : Except Error Value) :
    Fetched source [⟨message, name, answer⟩] s (s.attr source message name).2 := by
  intro m other
  have hone : Among [⟨message, name, answer⟩] m other ↔ message = m ∧ name = other := by
    simp only [Among, List.mem_singleton, exists_eq_left]
  have hindex := get?_index s name other m
  simp only [hone]
  unfold attr
  rw [get?_eq s name message]
  cases hfound : (s.index name).1.map fun i => i.get? message with
  | error e =>
    -- an index that cannot be read is left alone, and asking for it finds the same failure
    refine hindex.trans (Eq.symm (ite_eq_right_iff.2 ?_))
    rintro ⟨rfl, rfl⟩
    rw [fetch, get?_eq, hfound]
  | ok entry =>
    cases entry with
    | some value =>
      refine hindex.trans (Eq.symm (ite_eq_right_iff.2 ?_))
      rintro ⟨rfl, rfl⟩
      rw [fetch, get?_eq, hfound]
    | none =>
      have hmissing : (s.get? name message).1 = .ok none := by
        rw [get?_eq, hfound]
      have hunanswered (h : (source.attr? message name).toOption.join = none) :
          (if message = m ∧ name = other then s.fetch source m other else (s.get? other m).1) =
            (s.get? other m).1 := by
        refine ite_eq_right_iff.2 ?_
        rintro ⟨rfl, rfl⟩
        rw [fetch_of_none hmissing, h, hmissing]
      simp only
      cases hanswer : source.attr? message name with
      | error e => exact hindex.trans (hunanswered (by rw [hanswer]; rfl)).symm
      | ok answer =>
        cases answer with
        | none => exact hindex.trans (hunanswered (by rw [hanswer]; rfl)).symm
        | some value =>
          simp only
          have hput := put_ok ((get?_index s name name message).trans hmissing) message value
          have hentry := get?_put hput other m
          rcases hafter : (s.index name).2.put name message value with ⟨result, s'⟩
          rw [hafter] at hput hentry
          simp only at hput hentry
          rw [hput]
          refine hentry.trans ?_
          by_cases hplace : message = m ∧ name = other
          · obtain ⟨rfl, rfl⟩ := hplace
            rw [if_pos ⟨rfl, rfl⟩, if_pos ⟨rfl, rfl⟩, fetch_of_none hmissing, hanswer]
            rfl
          · rw [if_neg hplace, if_neg fun h => hplace ⟨h.2.symm, h.1.symm⟩, hindex]

theorem fetched_record {α : Type} (s : Store) (reading : Reading α) :
    Fetched source (s.record source reading).2 s (s.record source reading).1.2 := by
  induction reading generalizing s with
  | done outcome => exact fetched_refl s
  | read message name next ih =>
    have hattr : ∀ answer,
        Fetched source [⟨message, name, answer⟩] s (s.attr source message name).2 :=
      fetched_attr s message name
    rw [record]
    rcases hafter : s.attr source message name with ⟨e | value, s'⟩
    · rw [hafter] at hattr
      exact hattr (.error e)
    · rw [hafter] at hattr
      exact fetched_trans (hattr (.ok value)) (ih value s')

theorem fetched_recordFrom {α : Type} (now : Instant) (p : Predicate) (number : α → UInt64)
    (token : Nat → Bool) (s : Store) (seen : Nat) (accepted candidates : List α) :
    Fetched source (recordFrom source now p number token s seen accepted candidates).2 s
      (recordFrom source now p number token s seen accepted candidates).1.2 := by
  induction candidates generalizing s seen accepted with
  | nil => exact fetched_refl s
  | cons candidate rest ih =>
    have hfirst : ∀ reading : Reading Bool,
        Fetched source (s.record source reading).2 s (s.record source reading).1.2 :=
      fetched_record s
    have hfirst := hfirst (p.truth ⟨number candidate, .ofNat accepted.length, now⟩)
    rw [recordFrom]
    split
    · exact fetched_refl s
    rcases hrecord : s.record source (p.truth ⟨number candidate, .ofNat accepted.length, now⟩)
      with ⟨⟨e | accepts, s'⟩, asked⟩
    · rw [hrecord] at hfirst
      exact hfirst
    · rw [hrecord] at hfirst
      cases accepts with
      | true => exact fetched_trans hfirst (ih s' (seen + 1) (candidate :: accepted))
      | false => exact fetched_trans hfirst (ih s' (seen + 1) accepted)

end Store

namespace Engine
variable {source : Source}

/-- A call, recorded. -/
def record (e : Engine) (source : Source) :
    (c : Call) → (Except Error c.Answer × Engine) × List Answered
  | .evaluate p scene =>
    let ((outcome, store), asked) := e.store.record source (p.evaluate scene)
    ((outcome, { e with store }), asked)
  | .truth p scene =>
    let ((outcome, store), asked) := e.store.record source (p.truth scene)
    ((outcome, { e with store }), asked)
  | .fold now token p number candidates =>
    let ((outcome, store), asked) :=
      Store.recordFrom source now p number token e.store 0 [] candidates
    ((outcome, { e with store }), asked)
  | .select now token query number candidates =>
    match e.parse query with
    | (.error cause, e) => ((.error cause, e), [])
    | (.ok parsed, e) =>
      let ((outcome, store), asked) :=
        Store.recordFrom source now parsed.tree number token e.store 0 [] candidates
      ((outcome, { e with store }), asked)
  | .messages now bout query =>
    match e.parse query with
    | (.error cause, e) => ((.error cause, e), [])
    | (.ok parsed, e) =>
      match source.messages bout with
      | .error cause => ((.error cause, e), [])
      | .ok candidates =>
        let ((outcome, store), asked) := Store.recordFrom source now parsed.tree Message.number
          (fun _ => false) e.store 0 [] candidates
        ((outcome, { e with store }), asked)

theorem record_call (e : Engine) (c : Call) : (e.record source c).1 = e.call source c := by
  cases c with
  | evaluate p scene =>
    rw [record, call, ← Store.record_run]
  | truth p scene =>
    rw [record, call, ← Store.record_run]
  | fold now token p number candidates =>
    rw [record, call, Store.selectWhile, ← Store.recordFrom_selectFrom]
  | select now token query number candidates =>
    rw [record, call, selectWhile]
    rcases e.parse query with ⟨cause | parsed, e'⟩
    · rfl
    · simp only [Store.selectWhile, ← Store.recordFrom_selectFrom]
      rfl
  | messages now bout query =>
    rw [record, call, messages]
    rcases e.parse query with ⟨cause | parsed, e'⟩
    · rfl
    · cases source.messages bout with
      | error cause => rfl
      | ok candidates =>
        simp only [Store.select, Store.selectWhile, ← Store.recordFrom_selectFrom]
        rfl

theorem fetched_record (e : Engine) (c : Call) :
    Store.Fetched source (e.record source c).2 e.store (e.record source c).1.2.store := by
  cases c with
  | evaluate p scene => exact Store.fetched_record e.store (p.evaluate scene)
  | truth p scene => exact Store.fetched_record e.store (p.truth scene)
  | fold now token p number candidates =>
    exact Store.fetched_recordFrom now p number token e.store 0 [] candidates
  | select now token query number candidates =>
    have hstore : (e.parse query).2.store = e.store := rfl
    rw [record]
    rcases hparse : e.parse query with ⟨cause | parsed, e'⟩
    · rw [hparse] at hstore
      rw [← hstore]
      exact Store.fetched_refl e'.store
    · rw [hparse] at hstore
      rw [← hstore]
      exact Store.fetched_recordFrom now parsed.tree number token e'.store 0 [] candidates
  | messages now bout query =>
    have hstore : (e.parse query).2.store = e.store := rfl
    rw [record]
    rcases hparse : e.parse query with ⟨cause | parsed, e'⟩
    · rw [hparse] at hstore
      rw [← hstore]
      exact Store.fetched_refl e'.store
    · rw [hparse] at hstore
      rw [← hstore]
      simp only
      cases source.messages bout with
      | error cause => exact Store.fetched_refl e'.store
      | ok candidates =>
        exact Store.fetched_recordFrom now parsed.tree Message.number (fun _ => false) e'.store 0 []
          candidates

end Engine

end Colloquy
