import Colloquy.Predicate.Evaluation
import Colloquy.Store

/-!
The laws of boolean algebra for `and`, `or` and `not`. Two forms that are equal by a law ask for the
same attributes in the same order, so they are one reading.
-/

namespace Colloquy

namespace Reading
variable {α β γ : Type}

theorem bind_assoc (reading : Reading α) (first : α → Reading β) (second : β → Reading γ) :
    reading >>= first >>= second = reading >>= fun a => first a >>= second := by
  induction reading with
  | done outcome =>
    cases outcome with
    | error cause => rfl
    | ok a => rfl
  | read message name next ih => exact congrArg (read message name) (funext ih)

theorem bind_pure (reading : Reading α) : reading >>= pure = reading := by
  induction reading with
  | done outcome =>
    cases outcome with
    | error cause => rfl
    | ok a => rfl
  | read message name next ih => exact congrArg (read message name) (funext ih)

instance : LawfulMonad Reading :=
  .mk' Reading bind_pure (fun _ _ => rfl) bind_assoc

/-- What is made of a boolean need only be compared case by case. -/
theorem bind_bool {reading : Reading Bool} {next next' : Bool → Reading β}
    (htrue : next true = next' true) (hfalse : next false = next' false) :
    reading >>= next = reading >>= next' := by
  refine bind_congr fun b => ?_
  cases b with
  | true => exact htrue
  | false => exact hfalse

theorem bind_self {reading : Reading Bool} {next : Bool → Reading Bool}
    (htrue : next true = pure true) (hfalse : next false = pure false) :
    reading >>= next = reading := by
  rw [bind_bool htrue hfalse, bind_pure]

end Reading

namespace Predicate
variable (scene : Scene)

/-! ## Truth -/

/-- What yields a boolean has that truth. -/
theorem truth_of_evaluate {p : Predicate} {reading : Reading Bool}
    (h : evaluate scene p = do return .boolean (← reading)) : truth scene p = reading := by
  rw [truth, h, bind_assoc]
  exact bind_pure reading

theorem truth_and (children : List Predicate) :
    truth scene (and children) = allTrue scene children :=
  truth_of_evaluate scene (by rw [evaluate])

theorem truth_or (children : List Predicate) :
    truth scene (or children) = anyTrue scene children :=
  truth_of_evaluate scene (by rw [evaluate])

theorem evaluate_not (child : Predicate) :
    evaluate scene (not child) = do return .boolean !(← truth scene child) := by
  rw [evaluate, truth, bind_assoc]

theorem truth_not (child : Predicate) :
    truth scene (not child) = do return !(← truth scene child) := by
  refine truth_of_evaluate scene ?_
  rw [evaluate_not, bind_assoc]
  rfl

theorem allTrue_cons (child : Predicate) (rest : List Predicate) :
    allTrue scene (child :: rest) =
      (do if ← truth scene child then allTrue scene rest else pure false) := by
  rw [allTrue, truth, bind_assoc]

theorem anyTrue_cons (child : Predicate) (rest : List Predicate) :
    anyTrue scene (child :: rest) =
      (do if ← truth scene child then pure true else anyTrue scene rest) := by
  rw [anyTrue, truth, bind_assoc]

/-! ## Children in a row -/

theorem allTrue_append (first second : List Predicate) :
    allTrue scene (first ++ second) =
      (do if ← allTrue scene first then allTrue scene second else pure false) := by
  induction first with
  | nil => rfl
  | cons child rest ih =>
    rw [List.cons_append, allTrue_cons, allTrue_cons, ih, bind_assoc]
    exact Reading.bind_bool rfl rfl

theorem anyTrue_append (first second : List Predicate) :
    anyTrue scene (first ++ second) =
      (do if ← anyTrue scene first then pure true else anyTrue scene second) := by
  induction first with
  | nil => rfl
  | cons child rest ih =>
    rw [List.cons_append, anyTrue_cons, anyTrue_cons, ih, bind_assoc]
    exact Reading.bind_bool rfl rfl

/-- A child that stands for a row of children has the truth of the row. -/
theorem allTrue_and (children : List Predicate) :
    allTrue scene [and children] = allTrue scene children := by
  rw [allTrue_cons, truth_and]
  exact Reading.bind_self rfl rfl

theorem anyTrue_or (children : List Predicate) :
    anyTrue scene [or children] = anyTrue scene children := by
  rw [anyTrue_cons, truth_or]
  exact Reading.bind_self rfl rfl

/-- The first child that is not true ends the one search, and its denial the other. -/
theorem anyTrue_map_not (children : List Predicate) :
    anyTrue scene (children.map not) = do return !(← allTrue scene children) := by
  induction children with
  | nil => rfl
  | cons child rest ih =>
    rw [List.map_cons, anyTrue_cons, allTrue_cons, truth_not, ih, bind_assoc, bind_assoc]
    exact Reading.bind_bool rfl rfl

theorem allTrue_map_not (children : List Predicate) :
    allTrue scene (children.map not) = do return !(← anyTrue scene children) := by
  induction children with
  | nil => rfl
  | cons child rest ih =>
    rw [List.map_cons, allTrue_cons, anyTrue_cons, truth_not, ih, bind_assoc, bind_assoc]
    exact Reading.bind_bool rfl rfl

/-! ## The laws -/

theorem truth_not_and (children : List Predicate) :
    truth scene (not (and children)) = truth scene (or (children.map not)) := by
  rw [truth_not, truth_and, truth_or, anyTrue_map_not]

theorem truth_not_or (children : List Predicate) :
    truth scene (not (or children)) = truth scene (and (children.map not)) := by
  rw [truth_not, truth_or, truth_and, allTrue_map_not]

theorem truth_and_nested (before children after : List Predicate) :
    truth scene (and (before ++ [and children] ++ after)) =
      truth scene (and (before ++ children ++ after)) := by
  simp only [truth_and, allTrue_append, allTrue_and]

theorem truth_or_nested (before children after : List Predicate) :
    truth scene (or (before ++ [or children] ++ after)) =
      truth scene (or (before ++ children ++ after)) := by
  simp only [truth_or, anyTrue_append, anyTrue_or]

theorem truth_not_not (p : Predicate) : truth scene (not (not p)) = truth scene p := by
  rw [truth_not, truth_not, bind_assoc]
  exact Reading.bind_self rfl rfl

/-- Whether a predicate is a connective of others, which yields their truth. -/
def IsConnective : Predicate → Prop
  | and _ | or _ | not _ => True
  | _ => False

theorem evaluate_connective {p : Predicate} (h : p.IsConnective) :
    evaluate scene p = do return .boolean (← truth scene p) := by
  cases p with
  | and children => rw [truth_and, evaluate]
  | or children => rw [truth_or, evaluate]
  | not child =>
    rw [truth_not, evaluate_not, bind_assoc]
    rfl
  | _ => exact h.elim

/-- In a store two predicates come to the same: they have one value or one failure, and one truth or
one failure, and leave one store behind. -/
def Alike (s : Store) (source : Source) (p q : Predicate) : Prop :=
  s.run source (evaluate scene p) = s.run source (evaluate scene q) ∧
    s.run source (truth scene p) = s.run source (truth scene q)

theorem alike_of_truth {p q : Predicate} (hp : p.IsConnective) (hq : q.IsConnective)
    (h : truth scene p = truth scene q) (s : Store) (source : Source) :
    Alike scene s source p q := by
  rw [Alike, evaluate_connective scene hp, evaluate_connective scene hq, h]
  exact ⟨rfl, rfl⟩

/-- The laws of De Morgan, of nested conjunctions and disjunctions and of double negation hold in
every store, whatever the children are: the two sides have the same value or the same failure, and
leave the same entries in the indexes. -/
theorem boolean_laws (s : Store) (source : Source) :
    (∀ cs, Alike scene s source (not (and cs)) (or (cs.map not))) ∧
      (∀ cs, Alike scene s source (not (or cs)) (and (cs.map not))) ∧
      (∀ xs ys zs, Alike scene s source (and (xs ++ [and ys] ++ zs)) (and (xs ++ ys ++ zs))) ∧
      (∀ xs ys zs, Alike scene s source (or (xs ++ [or ys] ++ zs)) (or (xs ++ ys ++ zs))) ∧
      ∀ c, s.run source (truth scene (not (not c))) = s.run source (truth scene c) := by
  have halike {p q : Predicate} (hp : p.IsConnective) (hq : q.IsConnective)
      (h : truth scene p = truth scene q) : Alike scene s source p q :=
    alike_of_truth scene hp hq h s source
  refine ⟨fun cs => ?_, fun cs => ?_, fun xs ys zs => ?_, fun xs ys zs => ?_, fun c => ?_⟩
  · exact halike trivial trivial (truth_not_and scene cs)
  · exact halike trivial trivial (truth_not_or scene cs)
  · exact halike trivial trivial (truth_and_nested scene xs ys zs)
  · exact halike trivial trivial (truth_or_nested scene xs ys zs)
  · rw [truth_not_not]

end Predicate

end Colloquy
