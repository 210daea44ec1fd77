import Colloquy.Index
import Colloquy.Proofs.Outcome
import Colloquy.Query

/-!
What is read is made of the tokens of the query, and what is built from these can be written.
-/

namespace Colloquy.Predicate

/-- The root is a form. -/
def IsForm : Predicate → Prop
  | equal _ _ | keywords _ _ | greater _ _ | less _ _ | contains _ _ => True
  | and _ | or _ | not _ | limit _ => True
  | always | literal _ | position | now | number | attr _ => False

/-- The name of an index that is not reserved for another variable. -/
def IsAttributeName (name : String) : Prop :=
  Index.isName name = true ∧ name ≠ "pos" ∧ name ≠ "now" ∧ name ≠ "number"

mutual
/-- A predicate that can be written as an argument, all the way down. -/
def IsArgument : Predicate → Prop
  | always => False
  | literal v => v.kind = .number ∨ v.kind = .text
  | position | now | number => True
  | attr name => IsAttributeName name
  | equal a b | keywords a b | greater a b | less a b | contains a b =>
    IsArgument a ∧ IsArgument b
  | and children | or children => children ≠ [] ∧ AllArguments children
  | not child => IsArgument child
  | limit n => n.toNat ≤ 9223372036854775807
def AllArguments : List Predicate → Prop
  | [] => True
  | child :: children => IsArgument child ∧ AllArguments children
end

/-- The tree of a query: everything is accepted, or the root is a form of arguments. -/
def WellFormed (p : Predicate) : Prop := p = always ∨ p.IsForm ∧ p.IsArgument

theorem isArgument_limit {n : UInt64} : (limit n).IsArgument ↔ n.toNat ≤ 9223372036854775807 := by
  simp only [IsArgument]

end Colloquy.Predicate

namespace Colloquy.Query
open Predicate (IsForm IsArgument IsAttributeName AllArguments WellFormed)

/-- A name that a variable can have in a query. -/
def IsReference (name : List Char) : Prop :=
  ∃ d rest, name = d :: rest ∧ isNameChar d = true ∧ rest.all isVariableChar = true

theorem isVariableChar_of_isNameChar {c : Char} (h : isNameChar c = true) :
    isVariableChar c = true := by
  simp [isVariableChar, h]

theorem isName_of_isReference {name : List Char} (h : IsReference name) :
    Index.isName (String.ofList name) = true := by
  obtain ⟨d, rest, rfl, hd, hrest⟩ := h
  have hdot : d ≠ '.' := by
    rintro rfl
    exact absurd hd (by decide)
  simpa [Index.isName, hdot, isVariableChar_of_isNameChar hd] using List.all_eq_true.1 hrest

theorem variablePredicate_isArgument {name : List Char} (h : IsReference name) :
    (variablePredicate name).IsArgument := by
  unfold variablePredicate
  split
  · trivial
  split
  · trivial
  split
  · trivial
  · rename_i hpos hnow hnumber
    refine ⟨isName_of_isReference h, ?_, ?_, ?_⟩
    · exact fun e => hpos (by rw [← e, String.toList_ofList])
    · exact fun e => hnow (by rw [← e, String.toList_ofList])
    · exact fun e => hnumber (by rw [← e, String.toList_ofList])

theorem first_reference {afterOpening : Bool} {c : Char} {rest name : List Char}
    (h : (Token.first afterOpening c rest).1 = .reference name) : IsReference name := by
  unfold Token.first at h
  repeat' split at h
  all_goals try simp at h
  all_goals first
    | (rename_i d after hd
       exact ⟨d, after.takeWhile isVariableChar, h.symm, hd, List.all_takeWhile⟩)
    | (split at h <;> simp at h)

theorem tokensFrom_reference {afterOpening : Bool} {offset : Nat} {cs : List Char}
    {x : Nat × Token} {name : List Char} (hx : x ∈ tokensFrom afterOpening offset cs)
    (h : x.2 = .reference name) : IsReference name := by
  fun_induction tokensFrom afterOpening offset cs with
  | case1 => simp at hx
  | case2 _ _ _ _ _ ih => exact ih hx
  | case3 afterOpening offset c rest _ step ih =>
    rcases List.mem_cons.1 hx with rfl | hx
    · exact first_reference h
    · exact ih hx

/-- Whatever is built from the expression can be an argument. -/
def Expression.Yields (e : Expression) : Prop := ∀ cs p, build cs e = .ok p → p.IsArgument

def Expression.YieldsForm (e : Expression) : Prop :=
  ∀ cs p, build cs e = .ok p → p.IsForm ∧ p.IsArgument

theorem Expression.YieldsForm.yields {e : Expression} (h : e.YieldsForm) : e.Yields :=
  fun cs p hb => (h cs p hb).2

theorem toNat_toUInt64_le {n : Int64} (h : ¬ n < 0) :
    n.toUInt64.toNat ≤ 9223372036854775807 := by
  have hn : 0 ≤ n.toInt := by
    rw [Int64.lt_iff_toInt_lt] at h
    simpa using h
  have hlt := n.toInt_lt
  have he : (n.toUInt64.toNat : Int) = n.toInt := by
    rw [Int64.toNat_toUInt64_of_le (Int64.le_iff_toInt_le.2 (by simpa using hn))]
    rw [Int64.toNatClampNeg, Int.toNat_of_nonneg hn]
  omega

theorem construct_isForm {form : Form} {ps : List Predicate} {p : Predicate}
    (h : form.construct ps = .ok p) (hps : AllArguments ps) : p.IsForm ∧ p.IsArgument := by
  unfold Form.construct at h
  split at h
  -- a limit: its count was checked not to be negative
  case h_9 n =>
    split at h
    · simp at h
    · rename_i hn
      simp only [Except.ok.injEq] at h
      subst h
      exact ⟨trivial, toNat_toUInt64_le hn⟩
  all_goals simp only [Except.ok.injEq, reduceCtorEq] at h
  all_goals subst h
  all_goals simp_all [IsForm, IsArgument, AllArguments]

theorem numberPredicate_isArgument {start : Nat} {text : List Char} {p : Predicate}
    (h : numberPredicate start text = .ok p) : p.IsArgument := by
  unfold numberPredicate at h
  split at h
  · simp only [Except.ok.injEq] at h
    subst h
    exact .inl rfl
  · simp at h

/-- A form is built where it is known, all of its arguments are and it can be made of them. -/
theorem build_form_eq_ok {cs : List Char} {start stop nameStart : Nat} {name : List Char}
    {es : List Expression} {p : Predicate} :
    build cs (.form start stop name nameStart es) = .ok p ↔
      ∃ form built, Form.ofName? (String.ofList name) = some form ∧
        buildAll cs form 0 es = .ok built ∧ form.construct built = .ok p := by
  rw [build]
  constructor
  · intro h
    split at h
    · cases h
    · rename_i form hform
      split at h
      · cases h
      · rename_i built hbuilt
        exact ⟨form, built, hform, hbuilt, Except.mapError_eq_ok.1 h⟩
  · rintro ⟨form, built, hform, hbuilt, hp⟩
    simp only [hform, hbuilt]
    exact Except.mapError_eq_ok.2 hp

theorem buildAll_cons_eq_ok {cs : List Char} {form : Form} {count : Nat} {e : Expression}
    {rest : List Expression} {ps : List Predicate} :
    buildAll cs form count (e :: rest) = .ok ps ↔ misplaced? cs form count e = none ∧
      ∃ p qs, build cs e = .ok p ∧ buildAll cs form (count + 1) rest = .ok qs ∧ ps = p :: qs := by
  rw [buildAll]
  constructor
  · intro h
    split at h
    · cases h
    · rename_i hplace
      split at h
      · cases h
      · rename_i p hp
        obtain ⟨qs, hqs, hps⟩ := Except.map_eq_ok.1 h
        exact ⟨hplace, p, qs, hp, hqs, hps.symm⟩
  · rintro ⟨hplace, p, qs, hp, hqs, rfl⟩
    simp only [hplace, hp]
    exact Except.map_eq_ok.2 ⟨qs, hqs, rfl⟩

theorem buildAll_allArguments {cs : List Char} {form : Form} {count : Nat}
    {es : List Expression} {ps : List Predicate} (hes : ∀ e ∈ es, e.Yields)
    (h : buildAll cs form count es = .ok ps) : AllArguments ps := by
  induction es generalizing count ps with
  | nil =>
    simp only [buildAll, Except.ok.injEq] at h
    subst h
    trivial
  | cons e rest ih =>
    obtain ⟨-, p, qs, hp, hq, rfl⟩ := buildAll_cons_eq_ok.1 h
    exact ⟨hes e List.mem_cons_self cs p hp, ih (fun e he => hes e (List.mem_cons_of_mem _ he)) hq⟩

theorem form_yieldsForm {start stop nameStart : Nat} {name : List Char} {es : List Expression}
    (hes : ∀ e ∈ es, e.Yields) : (Expression.form start stop name nameStart es).YieldsForm := by
  intro cs p h
  obtain ⟨form, built, -, hbuilt, hp⟩ := build_form_eq_ok.1 h
  exact construct_isForm hp (buildAll_allArguments hes hbuilt)

/-! ### Where expressions come from -/

/-- An expression that is made of certain tokens, each at its offset. -/
inductive Expression.MadeOf (ts : List (Nat × Token)) : Expression → Prop where
  | reference {offset : Nat} {name : List Char} (h : (offset, .reference name) ∈ ts) :
      MadeOf ts (.reference offset name)
  | number {offset : Nat} {digits : List Char} (h : (offset, .number digits) ∈ ts) :
      MadeOf ts (.number offset digits)
  | quoted {offset : Nat} {content : List Char} (h : (offset, .quoted content) ∈ ts) :
      MadeOf ts (.text offset content)
  | word {offset : Nat} {content : List Char} (h : (offset, .word content) ∈ ts) :
      MadeOf ts (.text offset content)
  | form {start nameStart : Nat} (stop : Nat) {name : List Char} {arguments : List Expression}
      (hopening : (start, .opening) ∈ ts) (hname : (nameStart, .name name) ∈ ts)
      (harguments : ∀ e ∈ arguments, MadeOf ts e) :
      MadeOf ts (.form start stop name nameStart arguments)

structure OpenForm.MadeOf (ts : List (Nat × Token)) (f : OpenForm) : Prop where
  opening : (f.start, .opening) ∈ ts
  name : (f.nameStart, .name f.name) ∈ ts
  arguments : ∀ e ∈ f.arguments, e.MadeOf ts

/-- The expression that an open form becomes when it is closed. -/
def OpenForm.closed (f : OpenForm) (stop : Nat) : Expression :=
  .form f.start stop f.name f.nameStart f.arguments.reverse

theorem OpenForm.MadeOf.closed {ts : List (Nat × Token)} {f : OpenForm} (h : f.MadeOf ts)
    (stop : Nat) : (f.closed stop).MadeOf ts :=
  .form stop h.opening h.name fun e he => h.arguments e (List.mem_reverse.1 he)

theorem OpenForm.MadeOf.push {ts : List (Nat × Token)} {f : OpenForm} {e : Expression}
    (h : f.MadeOf ts) (he : e.MadeOf ts) : (f.push e).MadeOf ts :=
  ⟨h.opening, h.name, List.forall_mem_cons.2 ⟨he, h.arguments⟩⟩

namespace Progress

/-- What has been read is made of certain tokens, and a form if it is complete. -/
def MadeOf (ts : List (Nat × Token)) : Progress → Prop
  | nothing => True
  | opened start outer => (start, .opening) ∈ ts ∧ ∀ f ∈ outer, f.MadeOf ts
  | inside inner outer => inner.MadeOf ts ∧ ∀ f ∈ outer, f.MadeOf ts
  | complete e => ∃ f stop, OpenForm.MadeOf ts f ∧ e = f.closed stop

theorem close_madeOf {ts : List (Nat × Token)} {inner : OpenForm} {outer : List OpenForm}
    (stop : Nat) (h : (inside inner outer).MadeOf ts) : (close inner stop outer).MadeOf ts := by
  obtain ⟨hinner, houter⟩ := h
  cases outer with
  | nil => exact ⟨inner, stop, hinner, rfl⟩
  | cons next outer =>
    obtain ⟨hnext, houter⟩ := List.forall_mem_cons.1 houter
    exact ⟨hnext.push (hinner.closed stop), houter⟩

theorem take_madeOf {ts : List (Nat × Token)} {offset : Nat} {t : Token} {p q : Progress}
    (hp : p.MadeOf ts) (ht : (offset, t) ∈ ts) (h : p.take? offset t = some q) : q.MadeOf ts := by
  unfold take? at h
  split at h
  -- a closing parenthesis
  case h_4 =>
    split at h
    · cases h
    · obtain rfl := Option.some.inj h
      exact close_madeOf _ hp
  -- a comma, which leaves the arguments as they are
  case h_5 =>
    split at h
    · cases h
    · obtain rfl := Option.some.inj h
      exact ⟨⟨hp.1.opening, hp.1.name, hp.1.arguments⟩, hp.2⟩
  all_goals simp only [Option.some.injEq, reduceCtorEq] at h
  all_goals subst h
  · exact ⟨ht, nofun⟩
  · exact ⟨⟨hp.1, ht, nofun⟩, hp.2⟩
  · exact ⟨ht, List.forall_mem_cons.2 hp⟩
  · exact ⟨hp.1.push (.reference ht), hp.2⟩
  · exact ⟨hp.1.push (.number ht), hp.2⟩
  · exact ⟨hp.1.push (.quoted ht), hp.2⟩
  · exact ⟨hp.1.push (.word ht), hp.2⟩

theorem takeAll_madeOf {stop : Nat} {all ts : List (Nat × Token)} {p : Progress}
    {e : Expression} (hp : p.MadeOf all) (hts : ∀ x ∈ ts, x ∈ all)
    (h : p.takeAll stop ts = .ok e) : (complete e).MadeOf all := by
  induction ts generalizing p with
  | nil =>
    cases p with
    | complete found =>
      obtain rfl := Except.ok.inj h
      exact hp
    | _ => cases h
  | cons x rest ih =>
    obtain ⟨hx, hrest⟩ := List.forall_mem_cons.1 hts
    rw [takeAll] at h
    split at h
    · rename_i next hnext
      exact ih (take_madeOf hp hx hnext) hrest h
    · cases h

end Progress

/-- Whatever is read is a form of tokens of the text. -/
theorem read_madeOf {cs : List Char} {e : Expression} (h : Expression.read cs = .ok e) :
    ∃ f stop, OpenForm.MadeOf (tokens cs) f ∧ e = f.closed stop :=
  Progress.takeAll_madeOf (p := .nothing) trivial (fun _ hx => hx) h

theorem Expression.MadeOf.yields {ts : List (Nat × Token)} {e : Expression} (h : e.MadeOf ts)
    (hts : ∀ x ∈ ts, ∀ name, x.2 = .reference name → IsReference name) : e.Yields := by
  induction h with
  | @reference offset name hmem =>
    intro cs p hb
    obtain rfl := Except.ok.inj hb
    exact variablePredicate_isArgument (hts _ hmem name rfl)
  | number _ => exact fun cs p hb => numberPredicate_isArgument hb
  | quoted _ | word _ =>
    intro cs p hb
    obtain rfl := Except.ok.inj hb
    exact .inr rfl
  | form _ _ _ _ ih => exact (form_yieldsForm ih).yields

theorem read_yieldsForm {cs : List Char} {e : Expression} (h : Expression.read cs = .ok e) :
    e.YieldsForm := by
  obtain ⟨f, stop, hf, rfl⟩ := read_madeOf h
  apply form_yieldsForm
  intro a ha
  exact (hf.arguments a (List.mem_reverse.1 ha)).yields fun x hx name hname =>
    tokensFrom_reference hx hname

theorem parse_eq_ok {query : String} {p : Predicate} :
    parse query = .ok p ↔ parseChars query.toList = .ok p := Except.mapError_eq_ok

theorem parseChars_wellFormed {cs : List Char} {p : Predicate} (h : parseChars cs = .ok p) :
    p.WellFormed := by
  unfold parseChars at h
  split at h
  · simp only [Except.ok.injEq] at h
    exact .inl h.symm
  · split at h
    · simp at h
    · rename_i e he
      exact .inr (read_yieldsForm he cs p h)

end Colloquy.Query
