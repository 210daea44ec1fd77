import Mathlib.Data.List.Forall2
import Mathlib.Data.List.TakeWhile
import Colloquy.Proofs.Decimal
import Colloquy.Proofs.Query.WellFormed

/-!
The ways to write a query. An argument ends where a blank, a comma or a closing parenthesis follows
it, so it is read into one expression whatever surrounds it.
-/

namespace Colloquy.Query
open Predicate (IsForm IsArgument IsAttributeName AllArguments WellFormed)

/-! ### Layouts -/

def Blanks (cs : List Char) : Prop := ∀ c ∈ cs, isSpace c = true

instance (cs : List Char) : Decidable (Blanks cs) :=
  decidable_of_iff (cs.all isSpace = true) List.all_eq_true

/-- What may stand between two arguments. -/
inductive Separates : List Char → Prop where
  | blanks {cs : List Char} (h : Blanks cs) (hne : cs ≠ []) : Separates cs
  | comma {before after : List Char} (hbefore : Blanks before) (hafter : Blanks after) :
      Separates (before ++ ',' :: after)

/-- The digits of a number behind any zeros, and behind a minus where it is not positive. -/
inductive SpellsNumber (n : Int64) : List Char → Prop where
  | plain {m : Nat} (width : Nat) (h : n.toInt = m) : SpellsNumber n (Decimal.padded width m)
  | minus {m : Nat} (width : Nat) (h : n.toInt = -(m : Int)) :
      SpellsNumber n ('-' :: Decimal.padded width m)

/-- How a text may be written between quotes. Any character may have a backslash before it, and
quotes and backslashes have to. -/
inductive Escapes : List Char → List Char → Prop where
  | nil : Escapes [] []
  | plain {c : Char} {cs written : List Char} (hquote : c ≠ '"') (hslash : c ≠ '\\')
      (h : Escapes cs written) : Escapes (c :: cs) (c :: written)
  | escaped (c : Char) {cs written : List Char} (h : Escapes cs written) :
      Escapes (c :: cs) ('\\' :: c :: written)

/-- A text that may be written as it is, without quotes. -/
def IsWord (cs : List Char) : Prop :=
  cs ≠ [] ∧ (∀ c ∈ cs, isWordChar c = true) ∧ isNumber cs = false

instance (cs : List Char) : Decidable (IsWord cs) :=
  decidable_of_iff (cs ≠ [] ∧ cs.all isWordChar = true ∧ isNumber cs = false)
    (by rw [List.all_eq_true, IsWord])

/-- The form that a predicate is written as, with its arguments. A count is written as a number. -/
def parts? : Predicate → Option (Form × List Predicate)
  | .equal a b => some (.equal, [a, b])
  | .keywords a b => some (.keywords, [a, b])
  | .greater a b => some (.greater, [a, b])
  | .less a b => some (.less, [a, b])
  | .contains a b => some (.contains, [a, b])
  | .and children => some (.and, children)
  | .or children => some (.or, children)
  | .not child => some (.not, [child])
  | .limit n => some (.limit, [.literal (.number n.toInt64)])
  | _ => none

mutual
/-- A text that a predicate may be written as. -/
inductive Written : Predicate → List Char → Prop where
  | literalNumber {n : Int64} {cs : List Char} (h : SpellsNumber n cs) :
      Written (.literal (.number n)) cs
  | quoted {t : String} {written : List Char} (h : Escapes t.toList written) :
      Written (.literal (.text t)) ('"' :: written ++ ['"'])
  | word {t : String} (h : IsWord t.toList) : Written (.literal (.text t)) t.toList
  | position : Written .position "$pos".toList
  | now : Written .now "$now".toList
  | number : Written .number "$number".toList
  | attr (name : String) : Written (.attr name) ('$' :: name.toList)
  | form {p q : Predicate} {form : Form} {qs : List Predicate}
      {before gap first rest after : List Char} (h : parts? p = some (form, q :: qs))
      (hbefore : Blanks before) (hgap : Blanks gap) (hne : gap ≠ []) (hfirst : Written q first)
      (hrest : WrittenAfter qs rest) (hafter : Blanks after) :
      Written p
        ('(' :: before ++ form.name.toList ++ gap ++ first ++ rest ++ after ++ [')'])
/-- A text that the arguments after the first may be written as. -/
inductive WrittenAfter : List Predicate → List Char → Prop where
  | nil : WrittenAfter [] []
  | cons {p : Predicate} {ps : List Predicate} {gap first rest : List Char}
      (hgap : Separates gap) (hfirst : Written p first) (hrest : WrittenAfter ps rest) :
      WrittenAfter (p :: ps) (gap ++ first ++ rest)
end

/-! ### Boundaries -/

/-- The characters that end every name, variable, number and word. -/
def stops : List Char := [' ', '\t', '\r', '\n', ',', ')']

/-- What follows an argument, whatever the layout. -/
def Bounded (rest : List Char) : Prop := ∃ c ∈ stops, ∃ after, rest = c :: after

theorem mem_stops_of_isSpace {c : Char} (h : isSpace c = true) : c ∈ stops := by
  simp only [isSpace, Bool.or_eq_true, decide_eq_true_eq] at h
  rcases h with ((rfl | rfl) | rfl) | rfl <;> decide

theorem bounded_blanks {gap : List Char} (h : Blanks gap) {rest : List Char}
    (hrest : gap = [] → Bounded rest) : Bounded (gap ++ rest) := by
  cases gap with
  | nil => exact hrest rfl
  | cons c cs => exact ⟨c, mem_stops_of_isSpace (h c List.mem_cons_self), cs ++ rest, rfl⟩

theorem bounded_separates {gap : List Char} (h : Separates gap) (rest : List Char) :
    Bounded (gap ++ rest) := by
  cases h with
  | blanks hblanks hne => exact bounded_blanks hblanks fun he => absurd he hne
  | comma hbefore hafter =>
    rw [List.append_assoc]
    exact bounded_blanks hbefore fun _ => ⟨',', by decide, _, rfl⟩

theorem bounded_closing {after : List Char} (h : Blanks after) (rest : List Char) :
    Bounded (after ++ ')' :: rest) := bounded_blanks h fun _ => ⟨')', by decide, rest, rfl⟩

/-- A run of characters that a boundary ends is taken as a whole. -/
theorem run_bounded {p : Char → Bool} {run rest : List Char} (hstops : stops.any p = false)
    (hrun : ∀ c ∈ run, p c = true) (hrest : Bounded rest) :
    (run ++ rest).takeWhile p = run ∧ (run ++ rest).dropWhile p = rest := by
  obtain ⟨c, hc, after, rfl⟩ := hrest
  apply Decimal.span_run hrun
  intro d hd
  obtain rfl : c = d := Option.some.inj hd
  exact Bool.not_eq_true _ ▸ List.any_eq_false.1 hstops c hc

/-! ### Tokens -/

theorem tokensFrom_blanks (afterOpening : Bool) (offset : Nat) {gap : List Char} (h : Blanks gap)
    (rest : List Char) :
    tokensFrom afterOpening offset (gap ++ rest) =
      tokensFrom afterOpening (offset + gap.length) rest := by
  induction gap generalizing offset with
  | nil => rfl
  | cons c cs ih =>
    have hcs : Blanks cs := fun d hd => h d (List.mem_cons_of_mem _ hd)
    rw [List.cons_append, tokensFrom, if_pos (h c List.mem_cons_self), ih (offset + 1) hcs,
      List.length_cons, Nat.add_assoc, Nat.add_comm 1]

/-- The text goes on with a token, after which the tokens of the rest follow. -/
theorem tokensFrom_first (afterOpening : Bool) {c : Char} {rest after : List Char} {t : Token}
    (offset : Nat) (hc : isSpace c = false) (hf : Token.first afterOpening c rest = (t, after)) :
    ∃ next, tokensFrom afterOpening offset (c :: rest) =
      (offset, t) :: tokensFrom (t = .opening) next after := by
  refine ⟨offset + 1 + (rest.length - after.length), ?_⟩
  rw [tokensFrom, if_neg (by simp [hc])]
  simp only [hf]

theorem first_opening (afterOpening : Bool) (rest : List Char) :
    Token.first afterOpening '(' rest = (.opening, rest) := rfl

theorem first_closing (rest : List Char) : Token.first false ')' rest = (.closing, rest) := rfl

theorem first_comma (rest : List Char) : Token.first false ',' rest = (.comma, rest) := rfl

theorem first_name {c : Char} {tail rest : List Char} (hc : isLetter c = true)
    (htail : ∀ x ∈ tail, isNameChar x = true) (hrest : Bounded rest) :
    Token.first true c (tail ++ rest) = (.name (c :: tail), rest) := by
  obtain ⟨htake, hdrop⟩ := run_bounded (by decide) htail hrest
  have hne (d : Char) (hd : isLetter d = false) : c ≠ d := by
    rintro rfl
    simp [hc] at hd
  simp [Token.first, hne '(' (by decide), hne ')' (by decide), hne ',' (by decide),
    hne '$' (by decide), hne '"' (by decide), hc, htake, hdrop]

theorem first_reference_of {name rest : List Char} (hname : IsReference name)
    (hrest : Bounded rest) :
    Token.first false '$' (name ++ rest) = (.reference name, rest) := by
  obtain ⟨d, tail, rfl, hd, htail⟩ := hname
  obtain ⟨htake, hdrop⟩ := run_bounded (by decide) (List.all_eq_true.1 htail) hrest
  simp [Token.first, hd, htake, hdrop]

/-- However a text is escaped, it ends at the quote that was put after it. -/
theorem takeQuoted_of_escapes {cs written : List Char} (h : Escapes cs written)
    (rest : List Char) : takeQuoted (written ++ '"' :: rest) = some (cs, rest) := by
  induction h with
  | nil => simp [takeQuoted]
  | @plain c cs written hquote hslash _ ih =>
    have hstep : takeQuoted (c :: (written ++ '"' :: rest)) =
        (takeQuoted (written ++ '"' :: rest)).map fun x => (c :: x.1, x.2) := by
      rw [takeQuoted.eq_4 _ _ (by simp [hslash]) (by simp [hslash]), if_neg hquote]
    rw [List.cons_append, hstep, ih]
    rfl
  | escaped c _ ih => simp [takeQuoted, ih]

theorem first_quoted {cs written : List Char} (h : Escapes cs written) (rest : List Char) :
    Token.first false '"' (written ++ '"' :: rest) = (.quoted cs, rest) := by
  simp [Token.first, takeQuoted_of_escapes h]

/-- A run of plain characters is one token: a number where it is spelled as one, and else a word. -/
theorem first_run {c : Char} {tail rest : List Char}
    (hword : ∀ x ∈ c :: tail, isWordChar x = true) (hrest : Bounded rest) :
    Token.first false c (tail ++ rest) =
      (if isNumber (c :: tail) then .number (c :: tail) else .word (c :: tail), rest) := by
  have htail (x : Char) (hx : x ∈ tail) : isWordChar x = true := hword x (List.mem_cons_of_mem _ hx)
  obtain ⟨htake, hdrop⟩ := run_bounded (by decide) htail hrest
  have hne (d : Char) (hd : isWordChar d = false) : c ≠ d := by
    rintro rfl
    have hc := hword c List.mem_cons_self
    simp [hc] at hd
  simp [Token.first, hne '(' (by decide), hne ')' (by decide), hne ',' (by decide),
    hne '$' (by decide), hne '"' (by decide), htake, hdrop]

theorem isSpace_of_isWordChar {c : Char} (h : isWordChar c = true) : isSpace c = false := by
  simp only [isWordChar, Bool.not_eq_true', Bool.or_eq_false_iff] at h
  exact h.1.1.1.1.1

theorem isWordChar_of_isDigit {c : Char} (h : Decimal.isDigit c = true) :
    isWordChar c = true := by
  have hne (d : Char) (hd : Decimal.isDigit d = false) : c ≠ d := by
    rintro rfl
    simp [h] at hd
  simp [isWordChar, isSpace, hne ' ' (by decide), hne '\t' (by decide), hne '\r' (by decide),
    hne '\n' (by decide), hne '(' (by decide), hne ')' (by decide), hne ',' (by decide),
    hne '"' (by decide), hne '$' (by decide)]

theorem padded_ne_nil (width m : Nat) : Decimal.padded width m ≠ [] := by
  rw [Decimal.padded]
  exact List.append_ne_nil_of_right_ne_nil _ (Decimal.ofNat_ne_nil m)

/-- However a number is spelled, it is one run of plain characters that reads as the number. -/
theorem run_of_spellsNumber {n : Int64} {cs : List Char} (h : SpellsNumber n cs) :
    (∀ c ∈ cs, isWordChar c = true) ∧ isNumber cs = true ∧ Decimal.readInt64 cs = some n := by
  have hdigit {width m : Nat} (c : Char) (hc : c ∈ Decimal.padded width m) : isDigit c = true :=
    Decimal.isDigit_of_mem_padded hc
  have hall {width m : Nat} : (Decimal.padded width m).all isDigit = true :=
    List.all_eq_true.2 hdigit
  have hread {width m : Nat} : Decimal.readNat (Decimal.padded width m) = some m := by
    rw [Decimal.readNat_of_digits (padded_ne_nil width m) hdigit, Decimal.value_padded]
  cases h with
  | @plain m width hn =>
    refine ⟨fun c hc => isWordChar_of_isDigit (hdigit c hc), ?_, ?_⟩
    · unfold isNumber
      split
      · -- a digit is no minus
        rename_i digits hdigits
        have hminus : isDigit '-' = true := hdigit '-' (hdigits ▸ List.mem_cons_self)
        exact absurd hminus (by decide)
      · simp [hall, padded_ne_nil]
    · rw [Decimal.readInt64, Decimal.readInt_of_digits (padded_ne_nil width m) hdigit,
        Decimal.value_padded, ← hn]
      exact Decimal.toInt64?_toInt n
  | @minus m width hn =>
    refine ⟨?_, by simp [isNumber, hall, padded_ne_nil], ?_⟩
    · intro c hc
      rcases List.mem_cons.1 hc with rfl | hc
      · decide
      · exact isWordChar_of_isDigit (hdigit c hc)
    · have hsigned : Decimal.readInt ('-' :: Decimal.padded width m) = some (-(m : Int)) := by
        change (Decimal.readNat (Decimal.padded width m)).map (fun k => -(k : Int)) = _
        rw [hread]
        rfl
      rw [Decimal.readInt64, hsigned, ← hn]
      exact Decimal.toInt64?_toInt n

/-! ### Arguments -/

/-- The expression stands for the predicate in every query. A literal is written as itself, so that
no form can refuse it. -/
def Expression.Gives (e : Expression) (p : Predicate) : Prop :=
  ∀ cs, build cs e = .ok p ∧ ((∃ v, p = .literal v) → e.source? cs = none)

/-- Inside any form, the text is read into one more argument, which gives the predicate. -/
def ReadsAs (text : List Char) (p : Predicate) : Prop :=
  ∀ (stop offset : Nat) (inner : OpenForm) (outer : List OpenForm) (rest : List Char),
    Bounded rest → ∃ e next, e.Gives p ∧
      (Progress.inside inner outer).takeAll stop (tokensFrom false offset (text ++ rest)) =
        (Progress.inside (inner.push e) outer).takeAll stop (tokensFrom false next rest)

/-- One token is a whole argument. -/
theorem reads_of_token {c : Char} {tail : List Char} {t : Token} {p : Predicate}
    (make : Nat → Expression) (hc : isSpace c = false) (ht : t ≠ .opening)
    (hfirst : ∀ rest, Bounded rest → Token.first false c (tail ++ rest) = (t, rest))
    (htake : ∀ offset inner outer, (Progress.inside inner outer).take? offset t =
      some (.inside (inner.push (make offset)) outer))
    (hmake : ∀ offset, (make offset).Gives p) : ReadsAs (c :: tail) p := by
  intro stop offset inner outer rest hrest
  obtain ⟨next, htokens⟩ := tokensFrom_first _ offset hc (hfirst rest hrest)
  refine ⟨make offset, next, hmake offset, ?_⟩
  rw [List.cons_append, htokens, decide_eq_false ht]
  simp only [Progress.takeAll, htake]

theorem reads_variable {name : List Char} (h : IsReference name) :
    ReadsAs ('$' :: name) (variablePredicate name) := by
  refine reads_of_token (fun offset => .reference offset name) (by decide) (by simp)
    (fun rest hrest => first_reference_of h hrest) (fun _ _ _ => rfl) (fun offset cs => ⟨rfl, ?_⟩)
  -- A variable is never a literal.
  rintro ⟨v, hv⟩
  unfold variablePredicate at hv
  repeat' split at hv
  all_goals simp at hv

theorem reads_number {n : Int64} {cs : List Char} (h : SpellsNumber n cs) :
    ReadsAs cs (.literal (.number n)) := by
  obtain ⟨hword, hnumber, hvalue⟩ := run_of_spellsNumber h
  cases cs with
  | nil => cases hnumber
  | cons c tail =>
    refine reads_of_token (t := .number (c :: tail)) (fun offset => .number offset (c :: tail))
      (isSpace_of_isWordChar (hword c List.mem_cons_self)) (by simp) ?_ (fun _ _ _ => rfl) ?_
    · intro rest hrest
      rw [first_run hword hrest, if_pos hnumber]
    · intro offset cs
      refine ⟨?_, fun _ => rfl⟩
      simp only [build, numberPredicate, hvalue]

theorem reads_quoted {t : String} {written : List Char} (h : Escapes t.toList written) :
    ReadsAs ('"' :: written ++ ['"']) (.literal (.text t)) := by
  refine reads_of_token (t := .quoted t.toList) (fun offset => .text offset t.toList)
    (by decide) (by simp) ?_ (fun _ _ _ => rfl) ?_
  · intro rest _
    change Token.first false '"' ((written ++ ['"']) ++ rest) = _
    rw [List.append_assoc]
    exact first_quoted h rest
  · intro offset cs
    exact ⟨by simp [build], fun _ => rfl⟩

theorem reads_word {t : String} (h : IsWord t.toList) :
    ReadsAs t.toList (.literal (.text t)) := by
  obtain ⟨hne, hword, hnumber⟩ := h
  obtain ⟨c, tail, ht⟩ := List.exists_cons_of_ne_nil hne
  rw [ht] at hword hnumber ⊢
  refine reads_of_token (t := .word (c :: tail)) (fun offset => .text offset (c :: tail))
    (isSpace_of_isWordChar (hword c List.mem_cons_self)) (by simp) ?_ (fun _ _ _ => rfl) ?_
  · intro rest hrest
    rw [first_run hword hrest, if_neg (by simp [hnumber])]
  · intro offset cs
    refine ⟨?_, fun _ => rfl⟩
    rw [build, ← ht, String.ofList_toList]

theorem foldl_push (es : List Expression) (f : OpenForm) (hf : f.afterComma = false) :
    es.foldl OpenForm.push f = { f with arguments := es.reverse ++ f.arguments } := by
  induction es generalizing f with
  | nil => rfl
  | cons e es ih =>
    rw [List.foldl_cons, ih (f.push e) rfl]
    simp [OpenForm.push, hf]

/-- What separates an argument from the one before it leaves no trace once the argument is read. -/
theorem reads_separated {gap text rest : List Char} {p : Predicate} (hgap : Separates gap)
    (hread : ReadsAs text p) (hrest : Bounded rest) (stop offset : Nat) {inner : OpenForm}
    (hcomma : inner.afterComma = false) (hsome : inner.arguments ≠ []) (outer : List OpenForm) :
    ∃ e next, e.Gives p ∧
      (Progress.inside inner outer).takeAll stop (tokensFrom false offset (gap ++ (text ++ rest))) =
        (Progress.inside (inner.push e) outer).takeAll stop (tokensFrom false next rest) := by
  cases hgap with
  | blanks hblanks _ =>
    rw [tokensFrom_blanks _ _ hblanks]
    exact hread stop _ inner outer rest hrest
  | @comma before after hbefore hafter =>
    -- the comma is remembered until the next argument, which has to follow it
    obtain ⟨next, htokens⟩ := tokensFrom_first false (offset + before.length) (by decide)
      (first_comma (after ++ (text ++ rest)))
    rw [List.append_assoc, tokensFrom_blanks _ _ hbefore, List.cons_append, htokens]
    have htake (spot : Nat) : (Progress.inside inner outer).take? spot .comma =
        some (.inside { inner with afterComma := true } outer) := by
      simp [Progress.take?, hcomma, hsome]
    simp only [Progress.takeAll, htake]
    rw [decide_eq_false (by simp), tokensFrom_blanks _ _ hafter]
    exact hread stop _ { inner with afterComma := true } outer rest hrest

/-- After an argument of a form, the text is read into further ones, which give the predicates. -/
structure ReadsAfter (text : List Char) (ps : List Predicate) : Prop where
  bounded : ∀ rest, Bounded rest → Bounded (text ++ rest)
  reads : ∀ (stop offset : Nat) (inner : OpenForm) (outer : List OpenForm) (rest : List Char),
    inner.afterComma = false → inner.arguments ≠ [] → Bounded rest →
    ∃ es next, List.Forall₂ Expression.Gives es ps ∧
      (Progress.inside inner outer).takeAll stop (tokensFrom false offset (text ++ rest)) =
        (Progress.inside (es.foldl OpenForm.push inner) outer).takeAll stop
          (tokensFrom false next rest)

theorem readsAfter_nil : ReadsAfter [] [] :=
  ⟨fun _ h => h, fun _ offset _ _ _ _ _ _ => ⟨[], offset, .nil, rfl⟩⟩

theorem readsAfter_cons {gap first text : List Char} {p : Predicate} {ps : List Predicate}
    (hgap : Separates gap) (hfirst : ReadsAs first p) (htext : ReadsAfter text ps) :
    ReadsAfter (gap ++ first ++ text) (p :: ps) := by
  constructor
  · intro rest _
    rw [List.append_assoc, List.append_assoc]
    exact bounded_separates hgap _
  · intro stop offset inner outer rest hcomma hsome hrest
    obtain ⟨e, middle, he, hread⟩ :=
      reads_separated hgap hfirst (htext.bounded rest hrest) stop offset hcomma hsome outer
    obtain ⟨es, next, hes, hreads⟩ :=
      htext.reads stop middle (inner.push e) outer rest rfl (List.cons_ne_nil _ _) hrest
    refine ⟨e :: es, next, .cons he hes, ?_⟩
    rw [List.append_assoc, List.append_assoc, hread, hreads, List.foldl_cons]

/-- After the name of a form, the text is read into all of its arguments. -/
structure Fills (text : List Char) (ps : List Predicate) : Prop where
  bounded : ∀ rest, Bounded (text ++ ')' :: rest)
  reads : ∀ (stop offset : Nat) (inner : OpenForm) (outer : List OpenForm) (rest : List Char),
    ∃ es next, List.Forall₂ Expression.Gives es ps ∧
      (Progress.inside inner outer).takeAll stop (tokensFrom false offset (text ++ ')' :: rest)) =
        (Progress.inside (es.foldl OpenForm.push inner) outer).takeAll stop
          (tokensFrom false next (')' :: rest))

theorem fills_nil {after : List Char} (hafter : Blanks after) : Fills after [] := by
  constructor
  · exact bounded_closing hafter
  · intro stop offset inner outer rest
    refine ⟨[], offset + after.length, .nil, ?_⟩
    rw [tokensFrom_blanks _ _ hafter]
    rfl

theorem fills {gap first text after : List Char} {q : Predicate} {qs : List Predicate}
    (hgap : Blanks gap) (hne : gap ≠ []) (hfirst : ReadsAs first q) (htext : ReadsAfter text qs)
    (hafter : Blanks after) : Fills (gap ++ first ++ text ++ after) (q :: qs) := by
  constructor
  · intro rest
    rw [List.append_assoc, List.append_assoc, List.append_assoc]
    exact bounded_blanks hgap fun he => absurd he hne
  · intro stop offset inner outer rest
    have hend : Bounded (after ++ ')' :: rest) := bounded_closing hafter rest
    obtain ⟨e, middle, he, hread⟩ :=
      hfirst stop (offset + gap.length) inner outer _ (htext.bounded _ hend)
    obtain ⟨es, next, hes, hreads⟩ :=
      htext.reads stop middle (inner.push e) outer _ rfl (List.cons_ne_nil _ _) hend
    refine ⟨e :: es, next + after.length, .cons he hes, ?_⟩
    rw [List.append_assoc, List.append_assoc, List.append_assoc, tokensFrom_blanks _ _ hgap, hread,
      hreads, tokensFrom_blanks _ _ hafter, List.foldl_cons]

/-! ### Forms -/

/-- The arguments are as many and of such kinds as the form takes, each checked at its place. -/
def Fits (form : Form) (ps : List Predicate) : Prop :=
  (∀ i < ps.length, form.arity.hasRoom i = true) ∧
    (form.argumentKind = .literal → ∀ p ∈ ps, ∃ v, p = .literal v)

theorem misplaced_none {cs : List Char} {form : Form} {count : Nat} {e : Expression}
    {p : Predicate} (hroom : form.arity.hasRoom count = true) (he : e.Gives p)
    (hkind : form.argumentKind = .literal → ∃ v, p = .literal v) :
    misplaced? cs form count e = none := by
  rw [misplaced?, if_pos hroom]
  cases hk : form.argumentKind with
  | predicate => rfl
  | literal => rw [(he cs).2 (hkind hk)]

theorem buildAll_gives (cs : List Char) {form : Form} {es : List Expression}
    {ps : List Predicate} (count : Nat) (hes : List.Forall₂ Expression.Gives es ps)
    (hroom : ∀ i < ps.length, form.arity.hasRoom (count + i) = true)
    (hkind : form.argumentKind = .literal → ∀ p ∈ ps, ∃ v, p = .literal v) :
    buildAll cs form count es = .ok ps := by
  induction hes generalizing count with
  | nil => rfl
  | @cons e p es ps he _ ih =>
    have hplace : misplaced? cs form count e = none :=
      misplaced_none (hroom 0 (by simp)) he fun hk => hkind hk p List.mem_cons_self
    have hrest : buildAll cs form (count + 1) es = .ok ps := by
      apply ih
      · intro i hi
        have hnext := hroom (i + 1) (by simpa using hi)
        rwa [Nat.add_right_comm, Nat.add_assoc]
      · exact fun hk q hq => hkind hk q (List.mem_cons_of_mem _ hq)
    exact buildAll_cons_eq_ok.2 ⟨hplace, p, ps, (he cs).1, hrest, rfl⟩

/-- The place that an expression takes once its form has been closed. -/
def Progress.closed (e : Expression) : List OpenForm → Progress
  | [] => complete e
  | next :: outer => inside (next.push e) outer

theorem ofName_name (form : Form) : Form.ofName? form.name = some form := by
  cases form <;> decide

theorem name_letters (form : Form) : ∃ c tail, form.name.toList = c :: tail ∧
    isLetter c = true ∧ ∀ x ∈ tail, isNameChar x = true := by
  cases form <;> exact ⟨_, _, rfl, by decide, List.all_eq_true.1 (by decide)⟩

/-- The form, from the offset at which it begins, with an expression for each of its arguments. -/
inductive Expression.Applies (form : Form) (ps : List Predicate) (start : Nat) : Expression → Prop
  | intro {stop nameStart : Nat} {es : List Expression} (h : List.Forall₂ Gives es ps) :
      Applies form ps start (.form start stop form.name.toList nameStart es)

/-- Arguments in their places are built, so whatever is refused is refused by the form. -/
theorem Expression.Applies.build_fitting {form : Form} {ps : List Predicate} {start : Nat}
    {e : Expression} (h : e.Applies form ps start) (hfits : Fits form ps) (cs : List Char) :
    build cs e = (form.construct ps).mapError fun cause => ⟨start, .misuse cause⟩ := by
  obtain ⟨hes⟩ := h
  have hall := buildAll_gives cs 0 hes (by simpa using hfits.1) hfits.2
  have hlookup : Form.ofName? (String.ofList form.name.toList) = some form := by
    rw [String.ofList_toList, ofName_name]
  rw [build]
  simp only [hlookup, hall]

/-- A form is read from its name up to its closing parenthesis, at the root or inside others. -/
theorem form_reads (form : Form) {ps : List Predicate} {before text : List Char}
    (hbefore : Blanks before) (htext : Fills text ps) (stop start offset : Nat)
    (outer : List OpenForm) (rest : List Char) :
    ∃ e next, e.Applies form ps start ∧
      (Progress.opened start outer).takeAll stop
          (tokensFrom true offset (before ++ (form.name.toList ++ (text ++ ')' :: rest)))) =
        (Progress.closed e outer).takeAll stop (tokensFrom false next rest) := by
  obtain ⟨c, tail, hname, hc, htail⟩ := name_letters form
  have hspace : isSpace c = false := by
    simp only [isSpace, Bool.or_eq_false_iff, decide_eq_false_iff_not]
    refine ⟨⟨⟨?_, ?_⟩, ?_⟩, ?_⟩ <;> (rintro rfl; exact absurd hc (by decide))
  obtain ⟨afterName, hopen⟩ := tokensFrom_first true (offset + before.length) hspace
    (first_name hc htail (htext.bounded rest))
  -- the name opens `inner`, the arguments are pushed onto it, and the parenthesis closes it
  let inner : OpenForm := ⟨start, form.name.toList, offset + before.length, [], false⟩
  obtain ⟨es, beforeClosing, hes, hargs⟩ := htext.reads stop afterName inner outer rest
  obtain ⟨next, hclose⟩ :=
    tokensFrom_first _ beforeClosing (by decide) (first_closing rest)
  let e : Expression :=
    .form start (beforeClosing + 1) form.name.toList (offset + before.length) es
  have hclosed : Progress.close (es.foldl OpenForm.push inner) (beforeClosing + 1) outer =
      Progress.closed e outer := by
    rw [foldl_push es inner rfl]
    cases outer <;> simp [Progress.close, Progress.closed, inner, e]
  refine ⟨e, next, .intro hes, ?_⟩
  calc
    _ = (Progress.inside inner outer).takeAll stop
          (tokensFrom false afterName (text ++ ')' :: rest)) := by
      simp only [inner]
      rw [tokensFrom_blanks _ _ hbefore, hname, List.cons_append, hopen]
      rfl
    _ = _ := hargs
    _ = (Progress.closed e outer).takeAll stop (tokensFrom false next rest) := by
      rw [hclose, ← hclosed, foldl_push es inner rfl]
      rfl

theorem reads_form {form : Form} {ps : List Predicate} {p : Predicate} {before text : List Char}
    (hbuild : form.construct ps = .ok p) (hfits : Fits form ps) (hform : p.IsForm)
    (hbefore : Blanks before) (htext : Fills text ps) :
    ReadsAs ('(' :: before ++ form.name.toList ++ text ++ [')']) p := by
  intro stop offset inner outer rest hrest
  obtain ⟨afterOpening, hopening⟩ := tokensFrom_first false offset (by decide)
    (first_opening false (before ++ (form.name.toList ++ (text ++ ')' :: rest))))
  obtain ⟨e, next, he, hread⟩ :=
    form_reads form hbefore htext stop offset afterOpening (inner :: outer) rest
  refine ⟨e, next, fun cs => ⟨?_, ?_⟩, ?_⟩
  · rw [he.build_fitting hfits, hbuild]
    rfl
  · rintro ⟨v, rfl⟩
    exact absurd hform id
  · have hsplit : '(' :: before ++ form.name.toList ++ text ++ [')'] ++ rest =
        '(' :: (before ++ (form.name.toList ++ (text ++ ')' :: rest))) := by simp
    rw [hsplit, hopening]
    exact hread

theorem construct_parts {p : Predicate} {form : Form} {ps : List Predicate}
    (h : parts? p = some (form, ps)) (hp : p.IsArgument) :
    form.construct ps = .ok p ∧ Fits form ps ∧ p.IsForm := by
  cases p
  case and children | or children =>
    obtain ⟨q, qs, rfl⟩ := List.exists_cons_of_ne_nil hp.1
    simp only [parts?, Option.some.injEq, Prod.mk.injEq] at h
    obtain ⟨rfl, rfl⟩ := h
    exact ⟨rfl, ⟨fun _ _ => rfl, fun hk => by cases hk⟩, trivial⟩
  case limit n =>
    simp only [parts?, Option.some.injEq, Prod.mk.injEq] at h
    obtain ⟨rfl, rfl⟩ := h
    have hpos : ¬ n.toInt64 < 0 := by
      rw [Int64.lt_iff_toInt_lt, Decimal.toInt_toInt64 (Predicate.isArgument_limit.1 hp),
        Int64.toInt_zero]
      omega
    refine ⟨by simp [Form.construct, hpos], ⟨?_, ?_⟩, trivial⟩
    · simp [Form.arity, Arity.hasRoom]
    · simp
  all_goals simp only [parts?, Option.some.injEq, Prod.mk.injEq, reduceCtorEq] at h
  all_goals
    obtain ⟨rfl, rfl⟩ := h
    exact ⟨rfl, ⟨by simp [Form.arity, Arity.hasRoom], fun hk => by cases hk⟩, trivial⟩

theorem parts_isArgument {p : Predicate} {form : Form} {ps : List Predicate}
    (h : parts? p = some (form, ps)) (hp : p.IsArgument) : AllArguments ps := by
  cases p
  all_goals simp only [parts?, Option.some.injEq, Prod.mk.injEq, reduceCtorEq] at h
  all_goals
    obtain ⟨rfl, rfl⟩ := h
    simp_all [IsArgument, AllArguments, Value.kind]

theorem isReference_of_isName {name : String} (h : Index.isName name = true) :
    IsReference name.toList := by
  unfold Index.isName at h
  split at h
  · simp at h
  · rename_i c rest hname
    simp only [ne_eq, decide_not, List.all_cons, Bool.and_eq_true, Bool.not_eq_true',
      decide_eq_false_iff_not] at h
    refine ⟨c, rest, hname, ?_, h.2.2⟩
    simpa [isVariableChar, h.1] using h.2.1

theorem variablePredicate_attr {name : String} (h : IsAttributeName name) :
    variablePredicate name.toList = .attr name := by
  have hne (reserved : String) (hr : name ≠ reserved) : name.toList ≠ reserved.toList :=
    fun he => hr (String.toList_inj.1 he)
  rw [variablePredicate, if_neg (hne "pos" h.2.1), if_neg (hne "now" h.2.2.1),
    if_neg (hne "number" h.2.2.2), String.ofList_toList]

mutual
/-- Every argument is read from all that it may be written as. -/
theorem reads_of_written {p : Predicate} {cs : List Char} :
    Written p cs → p.IsArgument → ReadsAs cs p
  | .literalNumber h, _ => reads_number h
  | .quoted h, _ => reads_quoted h
  | .word h, _ => reads_word h
  | .position, _ => reads_variable ⟨'p', _, rfl, by decide, by decide⟩
  | .now, _ => reads_variable ⟨'n', _, rfl, by decide, by decide⟩
  | .number, _ => reads_variable ⟨'n', _, rfl, by decide, by decide⟩
  | .attr name, hp => by
    have hread := reads_variable (isReference_of_isName hp.1)
    rwa [variablePredicate_attr hp] at hread
  | .form h hbefore hgap hne hfirst hrest hafter, hp => by
    obtain ⟨hbuild, hfits, hform⟩ := construct_parts h hp
    obtain ⟨hq, hqs⟩ := parts_isArgument h hp
    have htext := fills hgap hne (reads_of_written hfirst hq) (readsAfter_of_written hrest hqs)
      hafter
    have hread := reads_form hbuild hfits hform hbefore htext
    simpa only [List.append_assoc] using hread
theorem readsAfter_of_written {ps : List Predicate} {cs : List Char} :
    WrittenAfter ps cs → AllArguments ps → ReadsAfter cs ps
  | .nil, _ => readsAfter_nil
  | .cons hgap hfirst hrest, hps =>
    readsAfter_cons hgap (reads_of_written hfirst hps.1) (readsAfter_of_written hrest hps.2)
end

/-! ### Queries -/

/-- A text with a character that is not blank keeps it. -/
theorem trim_ne_nil {cs : List Char} {c : Char} (hmem : c ∈ cs) (hc : Text.isBlank c = false) :
    (Text.trim cs).isEmpty = false := by
  have hne {ds : List Char} (hds : c ∈ ds) : ds.dropWhile Text.isBlank ≠ [] := by
    intro he
    have hblank : Text.isBlank c = true := List.dropWhile_eq_nil_iff.1 he c hds
    simp [hc] at hblank
  have hleft : c ∈ Text.trimLeft cs := by
    rw [← List.takeWhile_append_dropWhile (p := Text.isBlank) (l := cs)] at hmem
    rcases List.mem_append.1 hmem with htaken | hleft
    · simp [List.mem_takeWhile_imp htaken] at hc
    · exact hleft
  have hright := hne (List.mem_reverse.2 hleft)
  simpa [Text.trim, Text.trimRight] using hright

theorem tokensFrom_of_blanks (afterOpening : Bool) (offset : Nat) {cs : List Char}
    (h : Blanks cs) : tokensFrom afterOpening offset cs = [] := by
  have hblanks := tokensFrom_blanks afterOpening offset h []
  rw [List.append_nil] at hblanks
  rw [hblanks, tokensFrom]

/-- A query is the form at its root with blanks around it. No form encloses that one, so it is not
read as an argument is. -/
theorem parseChars_form (form : Form) {ps : List Predicate}
    {before inside text after : List Char} (hbefore : Blanks before) (hinside : Blanks inside)
    (htext : Fills text ps) (hafter : Blanks after) :
    let cs := before ++ '(' :: (inside ++ (form.name.toList ++ (text ++ ')' :: after)))
    ∃ e, e.Applies form ps before.length ∧ parseChars cs = build cs e := by
  intro cs
  obtain ⟨afterOpening, hopening⟩ := tokensFrom_first false (0 + before.length) (by decide)
    (first_opening false (inside ++ (form.name.toList ++ (text ++ ')' :: after))))
  obtain ⟨e, next, he, hread⟩ :=
    form_reads form hinside htext cs.length before.length afterOpening [] after
  have hwhole : Expression.read cs = .ok e := by
    rw [Expression.read, tokens, tokensFrom_blanks _ _ hbefore, hopening, Nat.zero_add]
    refine Eq.trans hread ?_
    rw [tokensFrom_of_blanks _ _ hafter]
    rfl
  have hmem : '(' ∈ cs := List.mem_append_right _ List.mem_cons_self
  refine ⟨e, he, ?_⟩
  rw [parseChars, hwhole, trim_ne_nil hmem (by decide)]
  rfl

theorem parseChars_written {p : Predicate} (hform : p.IsForm) (hp : p.IsArgument)
    {before text after : List Char} (hbefore : Blanks before) (hafter : Blanks after)
    (h : Written p text) : parseChars (before ++ text ++ after) = .ok p := by
  cases h with
  | @form _ q form qs inside gap first rest beforeClosing hparts hinside hgap hne hfirst hrest
      hclosing =>
    obtain ⟨hbuild, hfits, -⟩ := construct_parts hparts hp
    obtain ⟨hq, hqs⟩ := parts_isArgument hparts hp
    have htext := fills hgap hne (reads_of_written hfirst hq) (readsAfter_of_written hrest hqs)
      hclosing
    obtain ⟨e, he, hparse⟩ := parseChars_form form hbefore hinside htext hafter
    have hsplit : before ++ ('(' :: inside ++ form.name.toList ++ gap ++ first ++ rest ++
        beforeClosing ++ [')']) ++ after = before ++ '(' :: (inside ++ (form.name.toList ++
          (gap ++ first ++ rest ++ beforeClosing ++ ')' :: after))) := by simp
    rw [hsplit, hparse, he.build_fitting hfits, hbuild]
    rfl
  | _ => exact hform.elim

/-- Every text that the tree of a query may be written as, with blanks around it, is read into the
same tree again. -/
theorem parse_written {query : String} {p : Predicate} (hquery : parse query = .ok p)
    (hform : p.IsForm) {before text after : List Char} (hbefore : Blanks before)
    (hafter : Blanks after) (h : Written p text) :
    parse (String.ofList (before ++ text ++ after)) = .ok p := by
  have hp : p.IsArgument := by
    rcases parseChars_wellFormed (parse_eq_ok.1 hquery) with rfl | ⟨-, hp⟩
    · exact hform.elim
    · exact hp
  rw [parse_eq_ok, String.toList_ofList]
  exact parseChars_written hform hp hbefore hafter h

/-- Commas, a bare word, zeros in front of a number and blanks in all places. -/
theorem parse_written_loosely :
    let p : Predicate := .or [.equal (.attr "author") (.literal (.text "bob")), .limit 7]
    parse "(or (equal $author \"bob\") (limit 7))" = .ok p ∧
      parse " (\tor (equal $author , bob),(limit 007 ))\n" = .ok p := by
  intro p
  have hnone : Blanks [] := by decide
  have hspace : Blanks [' '] := by decide
  have htab : Blanks ['\t'] := by decide
  have hnewline : Blanks ['\n'] := by decide
  have hword : Written (.literal (.text "bob")) "bob".toList := .word (by decide)
  have hseven : SpellsNumber 7 "007".toList := .plain (m := 7) 3 (by decide)
  -- the two arguments, and the form around them
  have hequalParts : parts? (.equal (.attr "author") (.literal (.text "bob"))) =
      some (.equal, [.attr "author", .literal (.text "bob")]) := rfl
  have hequal := Written.form hequalParts hnone hspace (by decide) (.attr "author")
    (.cons (.comma hspace hspace) hword .nil) hnone
  have hlimitParts : parts? (.limit 7) = some (.limit, [.literal (.number 7)]) := rfl
  have hlimit := Written.form hlimitParts hnone hspace (by decide) (.literalNumber hseven) .nil
    hspace
  have hparts : parts? p =
      some (.or, [.equal (.attr "author") (.literal (.text "bob")), .limit 7]) := rfl
  have htext := Written.form hparts htab hspace (by decide) hequal
    (.cons (.comma hnone hnone) hlimit .nil) hnone
  have hcanonical : parse "(or (equal $author \"bob\") (limit 7))" = .ok p := by decide +kernel
  have hloose := parse_written hcanonical trivial hspace hnewline htext
  exact ⟨hcanonical, Eq.trans (congrArg parse (by decide +kernel)) hloose⟩

end Colloquy.Query
