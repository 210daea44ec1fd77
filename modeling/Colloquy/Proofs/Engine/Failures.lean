import Colloquy.Proofs.Engine.Filter
import Colloquy.Proofs.Engine.Selection
import Colloquy.Proofs.Predicate.Failures
import Colloquy.Proofs.Query.Layout
import Colloquy.Session

/-!
What can still fail when a query has been parsed: values do not fit together, the file of an index
cannot be read, or a source cannot be asked for a number.
-/

namespace Colloquy

/-- The failures that evaluating a predicate can have. -/
def Error.IsEvaluation : Error → Prop
  | mismatch _ | corrupted _ _ | disk _ | numberOutOfRange => True
  | query _ | invalidName _ | cancelled | timeout => False

/-- The failures that an attribute can be answered with: nothing has been evaluated yet, so it is
not that a predicate has yielded something else than a boolean. -/
def Error.IsOfAnswer : Error → Prop
  | mismatch cause => cause.IsOfValues
  | e => e.IsEvaluation

theorem Error.isEvaluation_of_answer {e : Error} (h : e.IsOfAnswer) : e.IsEvaluation := by
  cases e with
  | mismatch cause => trivial
  | _ => exact h

/-! ## Answers -/

theorem Message.attr?_fails {m : Message} {name : String} {c : TypeMismatch}
    (h : m.attr? name = .error c) : c.IsOfValues := by
  unfold Message.attr? at h
  repeat' split at h
  · exact Value.ofId_fails (Except.map_eq_error.1 h)
  · exact Value.ofId_fails (Except.map_eq_error.1 h)
  all_goals cases h

theorem Source.Memory.attr?_fails {messages : Memory} {message : UInt64} {name : String} {e : Error}
    (h : messages.attr? message name = .error e) : e.IsOfAnswer := by
  unfold Source.Memory.attr? at h
  split at h
  · cases h
  · rename_i m _
    split at h
    · cases h
    · cases hattr : m.attr? name with
      | error c =>
        rw [hattr] at h
        cases h
        exact Message.attr?_fails hattr
      | ok v =>
        rw [hattr] at h
        cases h

theorem Source.Rows.attr?_fails {messages : Rows} {message : UInt64} {name : String} {e : Error}
    (h : messages.attr? message name = .error e) : e.IsOfAnswer := by
  unfold Source.Rows.attr? at h
  split at h
  · cases h
  · split at h
    · cases h
    · cases h
      trivial

theorem Archive.attr?_fails (archive : Archive) {message : UInt64} {name : String} {e : Error}
    (h : archive.toSource.attr? message name = .error e) : e.IsOfAnswer := by
  cases archive with
  | memory messages => exact Source.Memory.attr?_fails h
  | rows messages => exact Source.Rows.attr?_fails h

theorem Store.view_fails {s : Store} {archive : Archive} {message : UInt64} {name : String}
    {e : Error} (hname : Index.isName name = true)
    (h : s.view archive.toSource message name = .error e) : e.IsOfAnswer := by
  rcases view_eq_error h with hindex | hanswer
  · -- the name is not refused, so the file has failed
    rcases Index.load_eq_error (index_eq_error hname hindex) with ⟨cause, rfl⟩ | ⟨fault, rfl⟩
    · trivial
    · trivial
  · exact archive.attr?_fails hanswer

/-! ## Names -/

/-- What is written after the dollar sign of a variable are the names that a store takes. -/
theorem Query.tokens_reference_iff (name : String) :
    tokens ('$' :: name.toList) = [(0, .reference name.toList)] ↔ Index.isName name = true := by
  constructor
  · intro h
    have hmem : (0, Token.reference name.toList) ∈ tokens ('$' :: name.toList) := by
      rw [h]
      exact List.mem_singleton_self _
    have hname := isName_of_isReference (tokensFrom_reference hmem rfl)
    rw [String.ofList_toList] at hname
    exact hname
  · intro hname
    obtain ⟨d, tail, hletters, hd, htail⟩ := isReference_of_isName hname
    -- nothing is left after the last character of the name
    have hall := List.all_eq_true.1 htail
    have hfirst : Token.first false '$' (d :: tail) = (.reference (d :: tail), []) := by
      simp [Token.first, hd, List.takeWhile_eq_self_iff.2 hall, List.dropWhile_eq_nil_iff.2 hall]
    obtain ⟨next, htokens⟩ := tokensFrom_first false 0 (by decide) hfirst
    rw [hletters, tokens, htokens, tokensFrom]

/-! ## Evaluations -/

namespace Predicate
variable {α : Type}

/-- A parsed tree asks only for attributes that have a name, and these fail as answers do. -/
theorem outcome_fails (s : Store) (archive : Archive) {good : α → Prop} {reading : Reading α}
    {n : Nat} (hasks : reading.Asks fun _ name => Index.isName name = true)
    (hends : reading.Ends good (Within n)) :
    (∃ a, good a ∧ (s.run archive.toSource reading).1 = .ok a) ∨
      ∃ e, (s.run archive.toSource reading).1 = .error e ∧ e.IsEvaluation ∧
        ∀ text kind, e = .mismatch (.notABoolean text kind) → text.length < n := by
  rw [(Store.run_warmed s hasks).1]
  obtain hgood | ⟨c, hc, houtcome⟩ | ⟨message, name, e, hname, hanswer, houtcome⟩ :=
    Reading.outcome_of_ends hasks hends (s.view archive.toSource)
  · exact .inl hgood
  · refine .inr ⟨.mismatch c, houtcome, trivial, fun text kind h => ?_⟩
    exact hc text kind (Error.mismatch.inj h)
  · have hfails := Store.view_fails hname hanswer
    refine .inr ⟨e, houtcome, Error.isEvaluation_of_answer hfails, ?_⟩
    rintro text kind rfl
    exact hfails.elim

theorem selectKnown_error {p : Predicate} {answers : UInt64 → String → Except Error Value}
    {now : Instant} {number : α → UInt64} {seen : Nat} {accepted candidates : List α} {e : Error}
    (h : p.selectKnown answers now number (fun _ => false) seen accepted candidates = .error e) :
    ∃ scene, (p.truth scene).outcome answers = .error e := by
  induction candidates generalizing seen accepted with
  | nil => cases h
  | cons candidate rest ih =>
    rw [selectKnown, if_neg Bool.false_ne_true] at h
    rcases htruth : (p.truth ⟨number candidate, .ofNat accepted.length, now⟩).outcome answers
      with cause | _ | _
    · rw [htruth] at h
      have he : cause = e := Except.error.inj h
      exact ⟨_, he ▸ htruth⟩
    · rw [htruth] at h
      exact ih h
    · rw [htruth] at h
      exact ih h

end Predicate

namespace Engine
open Predicate

/-- Nothing about a query can fail any more once it has been parsed. In any store and over any
archive its tree yields a boolean, or values do not fit together, an index is not readable, or the
archive cannot be asked for the number. So a selection does not fail because the tree yields
something else, and not because of a name either: those that a query can write are those that a
store takes. -/
theorem parsed_fails_as_evaluation {query : String} {p : Predicate}
    (hparse : Query.parse query = .ok p) (archive : Archive) (s : Store) :
    (∀ scene, (∃ b, (s.run archive.toSource (p.evaluate scene)).1 = .ok (.boolean b)) ∨
      ∃ e, (s.run archive.toSource (p.evaluate scene)).1 = .error e ∧ e.IsEvaluation) ∧
    (∀ {α : Type} (number : α → UInt64) (candidates : List α) (limit : Nat)
        (earlier : List String) (now : Instant) (e : Error),
      (select ⟨s, .after limit earlier⟩ archive.toSource now query number candidates).1 = .error e →
        e.IsEvaluation ∧ (∀ kind, e ≠ .mismatch (.notABoolean p.text kind)) ∧
          ∀ name, e ≠ .invalidName name) ∧
    ∀ name : String, Query.tokens ('$' :: name.toList) = [(0, .reference name.toList)] ↔
      Index.isName name = true := by
  have hp : p.WellFormed := Query.parseChars_wellFormed (Query.parse_eq_ok.1 hparse)
  have hnames := isName_of_wellFormed hp
  refine ⟨fun scene => ?_, ?_, Query.tokens_reference_iff⟩
  · obtain ⟨_, ⟨b, rfl⟩, houtcome⟩ | ⟨e, houtcome, he, -⟩ :=
      outcome_fails s archive (p.asks_evaluate scene hnames) (ends_of_wellFormed hp scene)
    · exact .inl ⟨b, houtcome⟩
    · exact .inr ⟨e, houtcome, he⟩
  · intro α number candidates limit earlier now e h
    have hselect : (s.select archive.toSource now p number candidates).1 = .error e := by
      let engine : Engine := ⟨s, .after limit earlier⟩
      have hcache : engine.cache.Faithful := ParseCache.after_faithful limit earlier
      rcases selectWhile_cases archive.toSource now number hcache query with
        ⟨failure, hfailure, -⟩ | ⟨tree, htree, hall⟩
      · rw [hparse] at hfailure
        cases hfailure
      · obtain rfl : p = tree := Except.ok.inj (hparse.symm.trans htree)
        rw [select, hall] at h
        exact h
    rw [(s.select_known archive.toSource now p number candidates).1] at hselect
    obtain ⟨scene, hscene⟩ := selectKnown_error hselect
    rw [← Store.run_truth] at hscene
    obtain ⟨_, -, houtcome⟩ | ⟨cause, houtcome, hcause, hwithin⟩ :=
      outcome_fails s archive (p.asks_truth scene hnames) (ends_truth hp scene)
    · rw [hscene] at houtcome
      cases houtcome
    · obtain rfl : e = cause := Except.error.inj (hscene.symm.trans houtcome)
      refine ⟨hcause, fun kind he => ?_, fun name he => ?_⟩
      · -- the text of a tree is not shorter than itself
        have hlt := hwithin p.text kind he
        rw [length_text] at hlt
        exact Nat.lt_irrefl _ hlt
      · rw [he] at hcause
        exact hcause

/-- A message without an author: the child is found not to be a boolean, not the root. -/
theorem parsed_fails_as_evaluation_unknown :
    let s : Store := { disk := {}, directory := "idx" }
    let now : Instant := .midnight ⟨2024, 1, 1, by decide⟩
    let cause : Error := .mismatch (.notABoolean "$author" .absent)
    Query.parse "(not $author)" = .ok (.not (.attr "author")) ∧
      (select ⟨s, .after 256 []⟩ (Archive.memory {}).toSource now "(not $author)" id [1]).1 =
        .error cause ∧
      cause.IsEvaluation ∧ ∀ kind, cause ≠ .mismatch (.notABoolean "(not $author)" kind) := by
  intro s now cause
  have hparse : Query.parse "(not $author)" = .ok (.not (.attr "author")) := by decide +kernel
  obtain ⟨-, hselect, -⟩ := parsed_fails_as_evaluation hparse (.memory {}) s
  have hfails : (select ⟨s, .after 256 []⟩ (Archive.memory {}).toSource now "(not $author)" id
      [1]).1 = .error cause := by decide +kernel
  obtain ⟨hcause, hroot, -⟩ := hselect (id : UInt64 → UInt64) [1] 256 [] now cause hfails
  have htext : (not (attr "author")).text = "(not $author)" := by decide
  exact ⟨hparse, hfails, hcause, fun kind => htext ▸ hroot kind⟩

end Engine

end Colloquy
