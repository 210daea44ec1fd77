import Colloquy.Proofs.Predicate.Laws
import Colloquy.Proofs.Query.WellFormed
import Colloquy.Proofs.Store.WarmUp
import Colloquy.Proofs.Value.Comparison
import Colloquy.Proofs.Value.Equality

/-!
The tree of a query always yields a boolean, whatever its operands yield, so it is never the root
that is found not to be one.
-/

namespace Colloquy

namespace Reading
variable {α β : Type}

/-- Whatever the answers are, the result is good or the cause of the failure is. -/
def Ends (good : α → Prop) (cause : TypeMismatch → Prop) : Reading α → Prop
  | done (.ok a) => good a
  | done (.error c) => cause c
  | read _ _ next => ∀ value, Ends good cause (next value)

variable {good : α → Prop} {good' : β → Prop} {cause cause' : TypeMismatch → Prop}
  {reading : Reading α} {next : α → Reading β}

theorem ends_bind (hreading : reading.Ends good cause)
    (hnext : ∀ a, good a → (next a).Ends good' cause) : (reading >>= next).Ends good' cause := by
  induction reading with
  | done result =>
    cases result with
    | error c => exact hreading
    | ok a => exact hnext a hreading
  | read message name answer ih => exact fun value => ih value (hreading value)

theorem ends_mono {good' : α → Prop} (h : reading.Ends good cause)
    (hgood : ∀ a, good a → good' a) (hcause : ∀ c, cause c → cause' c) :
    reading.Ends good' cause' := by
  induction reading with
  | done result =>
    cases result with
    | error c => exact hcause c h
    | ok a => exact hgood a h
  | read message name answer ih => exact fun value => ih value (h value)

/-- A reading fails where something that it asks for cannot be answered, or ends in one of its own
ways. -/
theorem outcome_of_ends {asked : UInt64 → String → Prop} (hasks : reading.Asks asked)
    (hends : reading.Ends good cause) (answers : UInt64 → String → Except Error Value) :
    (∃ a, good a ∧ reading.outcome answers = .ok a) ∨
      (∃ c, cause c ∧ reading.outcome answers = .error (.mismatch c)) ∨
      ∃ message name e, asked message name ∧ answers message name = .error e ∧
        reading.outcome answers = .error e := by
  induction reading with
  | done result =>
    cases result with
    | error c => exact .inr (.inl ⟨c, hends, rfl⟩)
    | ok a => exact .inl ⟨a, hends, rfl⟩
  | read message name next ih =>
    rw [outcome]
    cases hanswer : answers message name with
    | error e => exact .inr (.inr ⟨message, name, e, hasks.1, hanswer, rfl⟩)
    | ok value => exact ih value (hasks.2 value) (hends value)

end Reading

/-- The cause is about values, not about what a predicate has yielded. -/
def TypeMismatch.IsOfValues : TypeMismatch → Prop
  | notABoolean _ _ => False
  | _ => True

namespace Value

theorem looseEq_fails (a b : Value) (c : TypeMismatch) (h : looseEq a b = .error c) :
    c.IsOfValues := by
  obtain ⟨x, y, rfl⟩ := looseEq_eq_error h
  trivial

theorem looseCmp_fails {a b : Value} {c : TypeMismatch} (h : looseCmp a b = .error c) :
    c.IsOfValues := by
  cases a <;> cases b
  case number.text n t => exact readNumber_eq_error (Except.map_eq_error.1 h) ▸ trivial
  case text.number t n => exact readNumber_eq_error (Except.map_eq_error.1 h) ▸ trivial
  case time.text u t => exact readTime_eq_error (Except.map_eq_error.1 h) ▸ trivial
  case text.time t u => exact readTime_eq_error (Except.map_eq_error.1 h) ▸ trivial
  -- a side is absent, or the kinds have an order that never fails, or none
  all_goals cases h <;> trivial

theorem ofId_fails {id : UInt64} {c : TypeMismatch} (h : ofId id = .error c) : c.IsOfValues := by
  unfold ofId at h
  split at h
  · cases h
  · exact Except.error.inj h ▸ trivial

theorem searchable_fails {v : Value} {c : TypeMismatch} (h : v.searchable = .error c) :
    c.IsOfValues := by
  cases v with
  | boolean b => exact Except.error.inj h ▸ trivial
  | list items => exact Except.error.inj h ▸ trivial
  | _ => cases h

end Value

namespace Predicate

theorem matchValues_fails (query target : Value) (c : TypeMismatch)
    (h : matchValues query target = .error c) : c.IsOfValues := by
  unfold matchValues at h
  cases hquery : query.searchable with
  | error cause =>
    rw [hquery] at h
    have hc : cause = c := Except.error.inj h
    exact Value.searchable_fails (hc ▸ hquery)
  | ok q =>
    cases htarget : target.searchable with
    | error cause =>
      rw [hquery, htarget] at h
      have hc : cause = c := Except.error.inj h
      exact Value.searchable_fails (hc ▸ htarget)
    | ok t =>
      rw [hquery, htarget] at h
      cases q <;> cases t <;> cases h

theorem anyEqual_fails (item : Value) (items : List Value) (c : TypeMismatch)
    (h : anyEqual item items = .error c) : c.IsOfValues := by
  induction items with
  | nil => cases h
  | cons candidate rest ih =>
    rw [anyEqual] at h
    cases hequal : candidate.looseEq item with
    | error cause =>
      rw [hequal] at h
      exact Value.looseEq_fails _ _ _ (hequal.trans h)
    | ok equal =>
      rw [hequal] at h
      cases equal with
      | true => cases h
      | false => exact ih h

theorem containsValue_fails (list item : Value) (c : TypeMismatch)
    (h : containsValue list item = .error c) : c.IsOfValues := by
  cases list with
  | list items => exact anyEqual_fails item items c h
  | absent => cases h
  | _ => exact Except.error.inj h ▸ trivial

theorem compareValues_fails (wanted : Ordering) (a b : Value) (c : TypeMismatch)
    (h : compareValues wanted a b = .error c) : c.IsOfValues :=
  Value.looseCmp_fails (Except.map_eq_error.1 h)

/-! ## Evaluations -/

def IsBoolean (v : Value) : Prop := ∃ b, v = .boolean b

/-- If the cause is that a predicate has not yielded a boolean, then the text of that predicate has
fewer than `n` characters. -/
def Within (n : Nat) (c : TypeMismatch) : Prop :=
  ∀ text kind, c = .notABoolean text kind → text.length < n

theorem within_of_values {c : TypeMismatch} (h : c.IsOfValues) (n : Nat) : Within n c := by
  rintro text kind rfl
  exact h.elim

theorem within_mono {m n : Nat} (hle : m ≤ n) (c : TypeMismatch) (h : Within m c) : Within n c :=
  fun text kind hc => Nat.lt_of_lt_of_le (h text kind hc) hle

theorem length_text (p : Predicate) : p.text.length = p.render.length := by
  rw [text, String.length_ofList]

theorem length_form (name : String) (arguments : List Char) :
    arguments.length < (form name arguments).length := by
  simp only [form, List.cons_append, List.length_cons, List.length_append]
  omega

theorem length_operands (name : String) (a b : Predicate) :
    a.render.length < (form name (' ' :: a.render ++ ' ' :: b.render)).length ∧
      b.render.length < (form name (' ' :: a.render ++ ' ' :: b.render)).length := by
  have harguments := length_form name (' ' :: a.render ++ ' ' :: b.render)
  simp only [List.cons_append, List.length_cons, List.length_append] at harguments ⊢
  omega

variable {n : Nat} {good : Value → Prop}

/-- A relation of two operands in a form whose text has `n` characters. -/
theorem ends_relate {relation : Value → Value → Except TypeMismatch Bool} {scene : Scene}
    {a b : Predicate} {good' : Value → Prop} {P : Prop}
    (hrelation : ∀ x y c, relation x y = .error c → c.IsOfValues)
    (ha : (evaluate scene a).Ends good (Within a.render.length))
    (hb : (evaluate scene b).Ends good' (Within b.render.length))
    (hlength : a.render.length < n ∧ b.render.length < n) :
    (do relate relation (← evaluate scene a) (← evaluate scene b) : Reading Value).Ends
      (fun v => P → IsBoolean v) (Within n) := by
  have hmono {p : Predicate} (h : p.render.length < n) := within_mono (Nat.le_of_lt h)
  refine Reading.ends_bind (Reading.ends_mono ha (fun _ => id) (hmono hlength.1)) fun x _ => ?_
  refine Reading.ends_bind (Reading.ends_mono hb (fun _ => id) (hmono hlength.2)) fun y _ => ?_
  unfold relate
  cases h : relation x y with
  | error c => exact within_of_values (hrelation x y c h) n
  | ok holds => exact fun _ => ⟨holds, rfl⟩

/-- A child that has to yield a boolean is named where it does not, and its text is shorter than
that of the form around it. -/
theorem ends_child {scene : Scene} {child : Predicate}
    (hchild : (evaluate scene child).Ends good (Within child.render.length))
    (hlength : child.render.length < n) :
    (truth scene child).Ends (fun _ => True) (Within n) := by
  have hmono := within_mono (Nat.le_of_lt hlength)
  refine Reading.ends_bind (Reading.ends_mono hchild (fun _ => id) hmono) fun v _ => ?_
  cases v with
  | boolean b => trivial
  | _ =>
    rintro text kind ⟨⟩
    rw [length_text]
    exact hlength

mutual
theorem ends_evaluate (scene : Scene) : ∀ p : Predicate,
    (evaluate scene p).Ends (fun v => p.IsForm → IsBoolean v) (Within p.render.length)
  | always | literal _ | position | now => fun hform => hform.elim
  | number => by
    unfold evaluate
    cases h : Value.ofId scene.message with
    | error c => exact within_of_values (Value.ofId_fails h) _
    | ok v => exact fun hform => hform.elim
  | attr name => fun value hform => hform.elim
  | limit m => fun _ => ⟨_, rfl⟩
  -- the operands of a relation may yield anything, and the relation yields a boolean
  | equal a b =>
    ends_relate Value.looseEq_fails (ends_evaluate scene a) (ends_evaluate scene b)
      (length_operands _ a b)
  | keywords a b =>
    ends_relate matchValues_fails (ends_evaluate scene a) (ends_evaluate scene b)
      (length_operands _ a b)
  | greater a b | less a b =>
    ends_relate (compareValues_fails _) (ends_evaluate scene a) (ends_evaluate scene b)
      (length_operands _ a b)
  | contains a b =>
    ends_relate containsValue_fails (ends_evaluate scene a) (ends_evaluate scene b)
      (length_operands _ a b)
  -- the texts of the children are shorter than that of the form, so none of them is the root
  | and children => by
    have hchildren := ends_allTrue scene children _ (length_form "and" (renderAll children))
    exact Reading.ends_bind hchildren fun b _ _ => ⟨b, rfl⟩
  | or children => by
    have hchildren := ends_anyTrue scene children _ (length_form "or" (renderAll children))
    exact Reading.ends_bind hchildren fun b _ _ => ⟨b, rfl⟩
  | not child => by
    have hlength := length_form "not" (' ' :: child.render)
    rw [List.length_cons] at hlength
    have hchild := ends_child (ends_evaluate scene child) (Nat.lt_of_succ_lt hlength)
    rw [evaluate_not]
    exact Reading.ends_bind hchild fun b _ _ => ⟨!b, rfl⟩
theorem ends_allTrue (scene : Scene) : ∀ (children : List Predicate) (n : Nat),
    (renderAll children).length < n →
    (allTrue scene children).Ends (fun _ => True) (Within n)
  | [], _, _ => trivial
  | child :: rest, n, h => by
    simp only [renderAll, List.cons_append, List.length_cons, List.length_append] at h
    have hchild := ends_child (n := n) (ends_evaluate scene child) (by omega)
    have hrest := ends_allTrue scene rest n (by omega)
    rw [allTrue_cons]
    refine Reading.ends_bind hchild fun b _ => ?_
    cases b with
    | true => exact hrest
    | false => trivial
theorem ends_anyTrue (scene : Scene) : ∀ (children : List Predicate) (n : Nat),
    (renderAll children).length < n →
    (anyTrue scene children).Ends (fun _ => True) (Within n)
  | [], _, _ => trivial
  | child :: rest, n, h => by
    simp only [renderAll, List.cons_append, List.length_cons, List.length_append] at h
    have hchild := ends_child (n := n) (ends_evaluate scene child) (by omega)
    have hrest := ends_anyTrue scene rest n (by omega)
    rw [anyTrue_cons]
    refine Reading.ends_bind hchild fun b _ => ?_
    cases b with
    | true => trivial
    | false => exact hrest
end

/-- The root of a parsed tree yields a boolean: the empty query accepts, and a form has a truth
whatever its operands yield. -/
theorem ends_of_wellFormed {p : Predicate} (hp : p.WellFormed) (scene : Scene) :
    (evaluate scene p).Ends IsBoolean (Within p.render.length) := by
  rcases hp with rfl | ⟨hform, -⟩
  · exact ⟨true, rfl⟩
  · exact Reading.ends_mono (ends_evaluate scene p) (fun v hv => hv hform) fun _ => id

theorem ends_truth {p : Predicate} (hp : p.WellFormed) (scene : Scene) :
    (truth scene p).Ends (fun _ => True) (Within p.render.length) := by
  refine Reading.ends_bind (ends_of_wellFormed hp scene) ?_
  rintro v ⟨b, rfl⟩
  trivial

/-! ## Names -/

mutual
theorem isName_of_isArgument : ∀ p : Predicate, p.IsArgument →
    ∀ name ∈ p.attributes, Index.isName name = true
  | literal _, _, _, hn | position, _, _, hn | now, _, _, hn | number, _, _, hn
  | limit _, _, _, hn => absurd hn List.not_mem_nil
  | attr name, h, other, hn => List.mem_singleton.1 hn ▸ h.1
  | equal a b, h, name, hn | keywords a b, h, name, hn | greater a b, h, name, hn
  | less a b, h, name, hn | contains a b, h, name, hn => by
    rcases List.mem_append.1 hn with ha | hb
    · exact isName_of_isArgument a h.1 name ha
    · exact isName_of_isArgument b h.2 name hb
  | and children, h, name, hn | or children, h, name, hn =>
    isName_of_allArguments children h.2 name hn
  | not child, h, name, hn => isName_of_isArgument child h name hn
theorem isName_of_allArguments : ∀ children : List Predicate, AllArguments children →
    ∀ name ∈ attributesOfAll children, Index.isName name = true
  | [], _, _, hn => absurd hn List.not_mem_nil
  | child :: rest, h, name, hn => by
    rcases List.mem_append.1 hn with hchild | hrest
    · exact isName_of_isArgument child h.1 name hchild
    · exact isName_of_allArguments rest h.2 name hrest
end

theorem isName_of_wellFormed {p : Predicate} (hp : p.WellFormed) :
    ∀ name ∈ p.attributes, Index.isName name = true := by
  rcases hp with rfl | ⟨-, hargument⟩
  · exact fun name hn => absurd hn List.not_mem_nil
  · exact isName_of_isArgument p hargument

end Predicate

end Colloquy
