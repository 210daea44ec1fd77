import Colloquy.Value.Comparison

/-!
Two lists are told apart, or found not to fit, at the same items from either side. A value equals
itself exactly where nothing in it is absent.
-/

namespace Colloquy.Value

/-! ## Symmetry -/

/-- Outcomes of one comparison made from both sides: the same answer, or the same two kinds that
have no equality, each named from its own side. -/
inductive Mirrored : Except TypeMismatch Bool → Except TypeMismatch Bool → Prop where
  | answer (same : Bool) : Mirrored (.ok same) (.ok same)
  | mismatch (x y : Kind) :
    Mirrored (.error (.equalityUndefined x y)) (.error (.equalityUndefined y x))

theorem mirrored_of_eq {left right : Bool} (h : left = right) :
    Mirrored (.ok left) (.ok right) := by
  subst h
  exact .answer left

mutual
theorem looseEq_mirrored : ∀ a b : Value, Mirrored (looseEq a b) (looseEq b a)
  | list as, b => by
    cases b with
    | list bs =>
      rw [looseEq, looseEq]
      by_cases hlength : as.length = bs.length
      · rw [if_pos hlength, if_pos hlength.symm]
        exact looseEqAll_mirrored as bs
      · rw [if_neg hlength, if_neg (Ne.symm hlength)]
        exact .answer false
    | absent => exact .answer false
    | _ => exact .mismatch _ _
  -- without lists there is one rule for each two kinds, whichever of them comes first
  | boolean a, b => by
    cases b with
    | boolean b => exact mirrored_of_eq Bool.beq_comm
    | text t => exact .answer (spellsBoolean a t)
    | absent => exact .answer false
    | _ => exact .mismatch _ _
  | number a, b => by
    cases b with
    | number b => exact mirrored_of_eq Bool.beq_comm
    | text t => exact .answer (spellsNumber a t)
    | time t => exact .answer (isMillis t a)
    | absent => exact .answer false
    | _ => exact .mismatch _ _
  | text a, b => by
    cases b with
    | boolean b => exact .answer (spellsBoolean b a)
    | number n => exact .answer (spellsNumber n a)
    | text b => exact mirrored_of_eq Bool.beq_comm
    | time t => exact .answer (spellsTime t a)
    | absent => exact .answer false
    | list bs => exact .mismatch _ _
  | time a, b => by
    cases b with
    | number n => exact .answer (isMillis a n)
    | text t => exact .answer (spellsTime a t)
    | time b => exact mirrored_of_eq (decide_eq_decide.2 eq_comm)
    | absent => exact .answer false
    | _ => exact .mismatch _ _
  | absent, b => by cases b <;> exact .answer false
/-- The first items that decide are the same from both sides. -/
theorem looseEqAll_mirrored : ∀ as bs : List Value,
    Mirrored (looseEqAll as bs) (looseEqAll bs as)
  | [], bs => by cases bs <;> exact .answer true
  | a :: as, [] => .answer true
  | a :: as, b :: bs => by
    have hitem := looseEq_mirrored a b
    rw [looseEqAll, looseEqAll]
    generalize looseEq a b = left at hitem ⊢
    generalize looseEq b a = right at hitem ⊢
    cases hitem with
    | mismatch x y => exact .mismatch x y
    | answer same =>
      cases same with
      | false => exact .answer false
      | true => exact looseEqAll_mirrored as bs
end

theorem looseEq_eq_error {a b : Value} {cause : TypeMismatch} (h : looseEq a b = .error cause) :
    ∃ x y, cause = .equalityUndefined x y := by
  have hmirrored := looseEq_mirrored a b
  rw [h] at hmirrored
  generalize looseEq b a = turned at hmirrored
  cases hmirrored with
  | mismatch x y => exact ⟨x, y, rfl⟩

/-! ## Reflexivity up to absent values -/

/-- One value is another, or an item of it at any depth. -/
inductive OccursIn (part : Value) : Value → Prop where
  | whole : OccursIn part part
  | item {item : Value} {items : List Value} (hmem : item ∈ items) (h : OccursIn part item) :
    OccursIn part (list items)

theorem absent_occursIn_list {items : List Value} :
    OccursIn absent (list items) ↔ ∃ item ∈ items, OccursIn absent item := by
  constructor
  · intro h
    cases h with
    | item hmem h => exact ⟨_, hmem, h⟩
  · rintro ⟨item, hmem, h⟩
    exact .item hmem h

mutual
theorem looseEq_self : ∀ v : Value,
    ∃ same, looseEq v v = .ok same ∧ (same = true ↔ ¬ OccursIn absent v)
  | absent => by
    have hself : OccursIn absent absent := .whole
    exact ⟨false, rfl, by simp [hself]⟩
  | list items => by
    obtain ⟨same, hitems, hsame⟩ := looseEqAll_self items
    refine ⟨same, ?_, ?_⟩
    · rw [looseEq, if_pos rfl, hitems]
    · rw [hsame, absent_occursIn_list]
      simp only [not_exists, not_and]
  | boolean _ | number _ | text _ | time _ => by
    refine ⟨true, by simp [looseEq], ?_⟩
    simp only [true_iff]
    rintro ⟨⟩
theorem looseEqAll_self : ∀ items : List Value, ∃ same,
    looseEqAll items items = .ok same ∧ (same = true ↔ ∀ v ∈ items, ¬ OccursIn absent v)
  | [] => ⟨true, rfl, by simp⟩
  | v :: items => by
    obtain ⟨same, hfirst, hsame⟩ := looseEq_self v
    rw [looseEqAll, hfirst, List.forall_mem_cons, ← hsame]
    -- after an item that differs from itself the others are not looked at
    cases same with
    | false => exact ⟨false, rfl, by simp⟩
    | true =>
      obtain ⟨rest, hrest, hothers⟩ := looseEqAll_self items
      exact ⟨rest, hrest, by simpa using hothers⟩
end

/-- Loose equality gives the same answer from both sides, or fails from both, for values of any
depth. It never fails for a value and the value itself, and they are equal unless something absent
occurs in it. -/
theorem looseEq_symmetric_and_reflexive :
    (∀ a b : Value, Mirrored (looseEq a b) (looseEq b a)) ∧
      (∀ v : Value, ∃ same,
        looseEq v v = .ok same ∧ (same = true ↔ ¬ OccursIn absent v)) :=
  ⟨looseEq_mirrored, looseEq_self⟩

-- the numbers differ before the kinds that do not fit are reached
example :
    let as := list [list [number 1, boolean true], absent]
    let bs := list [list [number 2, number 3], absent]
    looseEq as bs = .ok false ∧ looseEq bs as = .ok false :=
  ⟨rfl, rfl⟩

end Colloquy.Value
