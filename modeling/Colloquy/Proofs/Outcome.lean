/-!
Outcomes that have been mapped, and what they come from; and outcomes that yield the same.
-/

namespace Except
variable {ε ε' α β : Type} {outcome : Except ε α}

theorem map_eq_ok {f : α → β} {b : β} :
    outcome.map f = .ok b ↔ ∃ a, outcome = .ok a ∧ f a = b := by
  cases outcome <;> simp [Except.map]

theorem map_eq_error {f : α → β} {cause : ε} :
    outcome.map f = .error cause ↔ outcome = .error cause := by
  cases outcome <;> simp [Except.map]

theorem mapError_eq_ok {f : ε → ε'} {a : α} : outcome.mapError f = .ok a ↔ outcome = .ok a := by
  cases outcome with
  | error cause =>
    constructor
    · intro h
      cases h
    · intro h
      cases h
  | ok found =>
    constructor
    · intro h
      exact congrArg Except.ok (Except.ok.inj h)
    · intro h
      exact congrArg Except.ok (Except.ok.inj h)

theorem mapError_eq_error {f : ε → ε'} {cause : ε'} :
    outcome.mapError f = .error cause ↔ ∃ c, outcome = .error c ∧ f c = cause := by
  cases outcome with
  | error c =>
    constructor
    · intro h
      exact ⟨c, rfl, Except.error.inj h⟩
    · rintro ⟨c, h, rfl⟩
      obtain rfl := Except.error.inj h
      rfl
  | ok found =>
    constructor
    · intro h
      cases h
    · rintro ⟨c, h, -⟩
      cases h

/-- Outcomes that yield the same fail together. -/
theorem error_iff_error {other : Except ε' α} (h : ∀ a, outcome = .ok a ↔ other = .ok a) :
    (∃ cause, outcome = .error cause) ↔ ∃ cause, other = .error cause := by
  cases outcome with
  | ok a =>
    have hother : other = .ok a := (h a).1 rfl
    rw [hother]
    constructor
    · rintro ⟨cause, hcause⟩
      cases hcause
    · rintro ⟨cause, hcause⟩
      cases hcause
  | error cause =>
    cases other with
    | ok a => cases (h a).2 rfl
    | error cause' => exact ⟨fun _ => ⟨cause', rfl⟩, fun _ => ⟨cause, rfl⟩⟩

end Except
