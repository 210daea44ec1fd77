import Colloquy.Proofs.Query.Layout
import Mathlib.Data.List.Induction

/-!
Each problem of a query lies at a token or at the end. Blanks put before the query move it by their
number and change nothing else.
-/

namespace Colloquy.Text

/-- The line of a place is told by the line feeds before it, and the column by the characters since
the last of them. -/
def Location.IsAt (l : Location) (cs : List Char) (offset : Nat) : Prop :=
  l.line = 1 + (cs.take offset).count '\n' ∧
    l.column = 1 + ((cs.take offset).reverse.takeWhile (· ≠ '\n')).length

theorem Location.ofOffset_isAt (cs : List Char) (offset : Nat) :
    (ofOffset cs offset).IsAt cs offset := by
  have hread (passed : List Char) :
      (passed.foldl advance ⟨1, 1⟩).line = 1 + passed.count '\n' ∧
        (passed.foldl advance ⟨1, 1⟩).column =
          1 + (passed.reverse.takeWhile (· ≠ '\n')).length := by
    -- the character passed last is the one that the column looks at first
    induction passed using List.reverseRecOn with
    | nil => exact ⟨rfl, rfl⟩
    | append_singleton passed c ih =>
      rw [List.foldl_concat, advance, List.count_append, List.reverse_concat]
      by_cases hc : c = '\n'
      · subst hc
        simp [ih.1, Nat.add_assoc]
      · simp [hc, ih.1, ih.2, Nat.add_assoc]
  exact hread (cs.take offset)

end Colloquy.Text

namespace Colloquy.Query

/-! ### Tokens -/

theorem tokensFrom_shift (afterOpening : Bool) (offset shift : Nat) (cs : List Char) :
    tokensFrom afterOpening (offset + shift) cs =
      (tokensFrom afterOpening offset cs).map fun x => (x.1 + shift, x.2) := by
  fun_induction tokensFrom afterOpening offset cs with
  | case1 => rw [tokensFrom]; rfl
  | case2 afterOpening offset c rest hspace ih =>
    rw [tokensFrom, if_pos hspace, ← ih, Nat.add_right_comm]
  | case3 afterOpening offset c rest hspace step ih =>
    rw [tokensFrom, if_neg hspace, List.map_cons, ← ih]
    simp only [step, Nat.add_right_comm _ shift]

/-! ### Expressions -/

mutual
/-- The same expression further on in a text. -/
def Expression.shift (k : Nat) : Expression → Expression
  | form start stop name nameStart arguments =>
    form (start + k) (stop + k) name (nameStart + k) (shiftAll k arguments)
  | reference start name => reference (start + k) name
  | number start digits => number (start + k) digits
  | text start content => text (start + k) content
def Expression.shiftAll (k : Nat) : List Expression → List Expression
  | [] => []
  | e :: rest => e.shift k :: shiftAll k rest
end

theorem Expression.shiftAll_eq_map (k : Nat) (es : List Expression) :
    shiftAll k es = es.map (shift k) := by
  induction es with
  | nil => rfl
  | cons e rest ih => rw [shiftAll, ih, List.map_cons]

theorem Expression.start_shift (k : Nat) (e : Expression) : (e.shift k).start = e.start + k := by
  cases e <;> rw [Expression.shift] <;> rfl

def OpenForm.shift (k : Nat) (f : OpenForm) : OpenForm :=
  { f with
    start := f.start + k
    nameStart := f.nameStart + k
    arguments := f.arguments.map (Expression.shift k) }

theorem OpenForm.push_shift (k : Nat) (f : OpenForm) (e : Expression) :
    (f.push e).shift k = (f.shift k).push (e.shift k) := rfl

theorem OpenForm.closed_shift (k stop : Nat) (f : OpenForm) :
    (f.shift k).closed (stop + k) = (f.closed stop).shift k := by
  rw [closed, closed, Expression.shift, Expression.shiftAll_eq_map, List.map_reverse]
  rfl

namespace Progress

def shift (k : Nat) : Progress → Progress
  | nothing => nothing
  | opened start outer => opened (start + k) (outer.map (OpenForm.shift k))
  | inside inner outer => inside (inner.shift k) (outer.map (OpenForm.shift k))
  | complete e => complete (e.shift k)

theorem close_shift (k : Nat) (inner : OpenForm) (stop : Nat) (outer : List OpenForm) :
    close (inner.shift k) (stop + k) (outer.map (OpenForm.shift k)) =
      (close inner stop outer).shift k := by
  cases outer with
  | nil => exact congrArg complete (inner.closed_shift k stop)
  | cons next outer =>
    exact congrArg (fun e => inside ((next.shift k).push e) _) (inner.closed_shift k stop)

theorem take?_shift (k offset : Nat) (p : Progress) (t : Token) :
    (p.shift k).take? (offset + k) t = (p.take? offset t).map (shift k) := by
  cases p with
  | nothing => cases t <;> rfl
  | opened start outer => cases t <;> rfl
  | complete e => cases t <;> rfl
  | inside inner outer =>
    cases t with
    | closing =>
      have hclose := close_shift k inner (offset + 1) outer
      rw [Nat.add_right_comm] at hclose
      rw [shift, take?, take?, hclose, apply_ite (Option.map (shift k))]
      rfl
    | comma =>
      have hnone : (inner.shift k).arguments.isEmpty = inner.arguments.isEmpty := List.isEmpty_map
      rw [shift, take?, take?, hnone, apply_ite (Option.map (shift k))]
      rfl
    | _ => simp [shift, take?, OpenForm.push_shift, Expression.shift]

theorem takeAll_shift (k stop : Nat) (p : Progress) (ts : List (Nat × Token)) :
    (p.shift k).takeAll (stop + k) (ts.map fun x => (x.1 + k, x.2)) =
      ((p.takeAll stop ts).map (Expression.shift k)).mapError fun x => (x.1 + k, x.2) := by
  induction ts generalizing p with
  | nil => cases p <;> rfl
  | cons x ts ih =>
    obtain ⟨offset, t⟩ := x
    have hexpected : (p.shift k).expected = p.expected := by cases p <;> rfl
    rw [List.map_cons, takeAll, takeAll, take?_shift]
    cases p.take? offset t with
    | none =>
      rw [hexpected]
      rfl
    | some next => exact ih next

end Progress

theorem read_indented {blanks cs : List Char} (hblanks : Blanks blanks) :
    Expression.read (blanks ++ cs) =
      ((Expression.read cs).map (Expression.shift blanks.length)).mapError
        fun x => (x.1 + blanks.length, x.2) := by
  have htokens : tokens (blanks ++ cs) = (tokens cs).map fun x => (x.1 + blanks.length, x.2) := by
    rw [tokens, tokensFrom_blanks _ _ hblanks, tokensFrom_shift]
    rfl
  have hlength : (blanks ++ cs).length = cs.length + blanks.length := by
    rw [List.length_append, Nat.add_comm]
  rw [Expression.read, htokens, hlength]
  exact Progress.takeAll_shift blanks.length cs.length .nothing (tokens cs)

/-! ### Predicates -/

def Problem.shift (k : Nat) (p : Problem) : Problem := { p with offset := p.offset + k }

theorem source?_shift (front cs : List Char) (e : Expression) :
    (e.shift front.length).source? (front ++ cs) = e.source? cs := by
  cases e with
  | form start stop name nameStart arguments =>
    have hlength : stop + front.length - (start + front.length) = stop - start :=
      Nat.add_sub_add_right stop front.length start
    have hdrop : (front ++ cs).drop (start + front.length) = cs.drop start := by
      rw [Nat.add_comm, List.drop_length_add_append]
    rw [Expression.shift, Expression.source?, Expression.source?, hlength, hdrop]
  | _ => rw [Expression.shift]; rfl

theorem misplaced?_shift (front cs : List Char) (form : Form) (count : Nat) (e : Expression) :
    misplaced? (front ++ cs) form count (e.shift front.length) = misplaced? cs form count e := by
  rw [misplaced?, misplaced?, source?_shift]

mutual
theorem build_shift (front cs : List Char) : ∀ e : Expression,
    build (front ++ cs) (e.shift front.length) =
      (build cs e).mapError (Problem.shift front.length)
  | .form start stop name nameStart arguments => by
    -- the name of the form has moved with it, and so has what its arguments complain about
    rw [Expression.shift, build, build]
    cases Form.ofName? (String.ofList name) with
    | none => rfl
    | some form =>
      simp only [buildAll_shift front cs form 0 arguments]
      cases buildAll cs form 0 arguments with
      | error problem => rfl
      | ok built =>
        simp only [Except.mapError]
        cases form.construct built <;> rfl
  | .reference _ _ => by rw [Expression.shift, build, build]; rfl
  | .number start text => by
    rw [Expression.shift, build, build, numberPredicate, numberPredicate]
    cases Decimal.readInt64 text <;> rfl
  | .text _ _ => by rw [Expression.shift, build, build]; rfl
theorem buildAll_shift (front cs : List Char) (form : Form) : ∀ (count : Nat)
    (es : List Expression),
    buildAll (front ++ cs) form count (Expression.shiftAll front.length es) =
      (buildAll cs form count es).mapError (Problem.shift front.length)
  | count, [] => by rw [Expression.shiftAll, buildAll, buildAll]; rfl
  | count, e :: rest => by
    rw [Expression.shiftAll, buildAll, buildAll, misplaced?_shift]
    cases misplaced? cs form count e with
    | some complaint =>
      rw [Expression.start_shift]
      rfl
    | none =>
      -- the first problem is that of this argument, or else that of the rest
      simp only [build_shift front cs e, buildAll_shift front cs form (count + 1) rest]
      cases build cs e with
      | error problem => rfl
      | ok p => cases buildAll cs form (count + 1) rest <;> rfl
end

theorem isBlank_of_isSpace {c : Char} (h : isSpace c = true) : Text.isBlank c = true := by
  simp only [isSpace, Bool.or_eq_true, decide_eq_true_eq] at h
  rcases h with ((rfl | rfl) | rfl) | rfl <;> decide

/-- Blanks before a query only move what is wrong with it. -/
theorem parseChars_indented {blanks : List Char} (hblanks : Blanks blanks) (cs : List Char) :
    parseChars (blanks ++ cs) = (parseChars cs).mapError (Problem.shift blanks.length) := by
  -- a query that is blank is blank with them
  have htrim : Text.trim (blanks ++ cs) = Text.trim cs := by
    have hskip : (blanks ++ cs).dropWhile Text.isBlank = cs.dropWhile Text.isBlank := by
      apply List.dropWhile_append_of_pos
      intro c hc
      exact isBlank_of_isSpace (hblanks c hc)
    rw [Text.trim, Text.trim, Text.trimLeft, Text.trimLeft, hskip]
  rw [parseChars, parseChars, htrim, read_indented hblanks]
  split
  · rfl
  · cases Expression.read cs with
    | error x => rfl
    | ok e => exact build_shift blanks cs e

/-! ### Offsets -/

theorem tokensFrom_offset {afterOpening : Bool} {offset : Nat} {cs : List Char} {x : Nat × Token}
    (hx : x ∈ tokensFrom afterOpening offset cs) : x.1 < offset + cs.length := by
  fun_induction tokensFrom afterOpening offset cs with
  | case1 => cases hx
  | case2 afterOpening offset c rest _ ih =>
    have hlater := ih hx
    rw [List.length_cons]
    omega
  | case3 afterOpening offset c rest _ step ih =>
    -- what is left after a token is no longer than what was left after its first character
    have hshort : step.2.length ≤ rest.length := Token.first_length afterOpening c rest
    rw [List.length_cons]
    rcases List.mem_cons.1 hx with rfl | hx
    · exact Nat.lt_add_of_pos_right (Nat.succ_pos _)
    · have hlater := ih hx
      omega

/-- Reading stops at the token that does not fit, or at the end of the text. -/
theorem Progress.takeAll_error {stop : Nat} {p : Progress} {ts : List (Nat × Token)}
    {x : Nat × Expected} (h : p.takeAll stop ts = .error x) :
    x.1 = stop ∨ x.1 ∈ ts.map Prod.fst := by
  induction ts generalizing p with
  | nil =>
    cases p with
    | complete e => cases h
    | _ =>
      obtain rfl := Except.error.inj h
      exact .inl rfl
  | cons token rest ih =>
    rw [takeAll] at h
    split at h
    · rcases ih h with hstop | hmem
      · exact .inl hstop
      · exact .inr (List.mem_cons_of_mem _ hmem)
    · obtain rfl := Except.error.inj h
      exact .inr List.mem_cons_self

section Problems

variable {ts : List (Nat × Token)} {cs : List Char} {problem : Problem}

theorem Expression.MadeOf.start_mem {e : Expression} (h : e.MadeOf ts) :
    e.start ∈ ts.map Prod.fst := by
  cases h with
  | reference h | number h | quoted h | word h => exact List.mem_map_of_mem h
  | form _ hopening _ _ => exact List.mem_map_of_mem hopening

theorem buildAll_error {form : Form} {count : Nat} {es : List Expression}
    (hmade : ∀ e ∈ es, e.MadeOf ts)
    (herror : ∀ e ∈ es, ∀ problem, build cs e = .error problem → problem.offset ∈ ts.map Prod.fst)
    (h : buildAll cs form count es = .error problem) : problem.offset ∈ ts.map Prod.fst := by
  induction es generalizing count with
  | nil => cases h
  | cons e rest ih =>
    obtain ⟨he, hrest⟩ := List.forall_mem_cons.1 hmade
    obtain ⟨hproblem, hproblems⟩ := List.forall_mem_cons.1 herror
    rw [buildAll] at h
    split at h
    · obtain rfl := Except.error.inj h
      exact he.start_mem
    · split at h
      · rename_i found hfound
        obtain rfl := Except.error.inj h
        exact hproblem found hfound
      · -- this argument is built, so the problem is in the rest
        exact ih hrest hproblems (Except.map_eq_error.1 h)

/-- What is wrong with an expression is wrong with one of its tokens. -/
theorem build_error {e : Expression} (hmade : e.MadeOf ts) (h : build cs e = .error problem) :
    problem.offset ∈ ts.map Prod.fst := by
  induction hmade generalizing problem with
  | reference _ => cases h
  | @number offset digits hmem =>
    rw [build, numberPredicate] at h
    split at h
    · cases h
    · obtain rfl := Except.error.inj h
      exact List.mem_map_of_mem hmem
  | quoted _ => cases h
  | word _ => cases h
  | @form start nameStart stop name arguments hopening hname harguments ih =>
    rw [build] at h
    split at h
    · -- no form has the name
      obtain rfl := Except.error.inj h
      exact List.mem_map_of_mem hname
    · split at h
      · -- an argument is wrong
        rename_i found hfound
        obtain rfl := Except.error.inj h
        exact buildAll_error harguments (fun e he _ => ih e he) hfound
      · -- the arguments do not make up the form
        obtain ⟨cause, -, rfl⟩ := Except.mapError_eq_error.1 h
        exact List.mem_map_of_mem hopening

/-- What is wrong with a query is wrong with one of its tokens or with its end. -/
theorem parseChars_error (h : parseChars cs = .error problem) :
    problem.offset = cs.length ∨ problem.offset ∈ (tokens cs).map Prod.fst := by
  unfold parseChars at h
  split at h
  · cases h
  · split at h
    · rename_i offset what hread
      obtain rfl := Except.error.inj h
      exact Progress.takeAll_error hread
    · rename_i e hread
      obtain ⟨f, stop, hf, rfl⟩ := read_madeOf hread
      exact .inr (build_error (hf.closed stop) h)

theorem parseChars_error_offset_le (h : parseChars cs = .error problem) :
    problem.offset ≤ cs.length := by
  rcases parseChars_error h with hend | hmem
  · exact hend.le
  · obtain ⟨x, hx, htoken⟩ := List.mem_map.1 hmem
    have hlt := tokensFrom_offset hx
    omega

end Problems

theorem parse_eq_error {query : String} {f : Failure} :
    parse query = .error f ↔ ∃ problem, parseChars query.toList = .error problem ∧
      ⟨Text.Location.ofOffset query.toList problem.offset, problem.complaint⟩ = f :=
  Except.mapError_eq_error

/-- What is wrong with a query has a place in it, and blanks before the query move that place by
their number and change nothing else. -/
theorem parse_error_moves {query : String} {f : Failure} (h : parse query = .error f) :
    ∃ offset ≤ query.length, f.location.IsAt query.toList offset ∧
      ∀ blanks : String, Blanks blanks.toList →
        ∃ moved, parse (blanks ++ query) = .error ⟨moved, f.complaint⟩ ∧
          moved.IsAt (blanks ++ query).toList (blanks.length + offset) := by
  obtain ⟨problem, hproblem, rfl⟩ := parse_eq_error.1 h
  refine ⟨problem.offset, ?_, Text.Location.ofOffset_isAt _ _, ?_⟩
  · exact parseChars_error_offset_le hproblem
  · intro blanks hblanks
    refine ⟨_, ?_, Text.Location.ofOffset_isAt _ _⟩
    rw [parse_eq_error]
    refine ⟨problem.shift blanks.length, ?_, ?_⟩
    · rw [String.toList_append, parseChars_indented hblanks, hproblem]
      rfl
    · rw [Problem.shift, Nat.add_comm]

/-- The name of a form on the second line is unknown, and moves to the third. -/
theorem parse_error_moves_unknown :
    let query := "(and (limit 1)\n  (bogus 1))"
    let f : Failure := ⟨⟨2, 4⟩, .unknownForm "bogus"⟩
    parse query = .error f ∧ Blanks "\n\t ".toList ∧
      parse ("\n\t " ++ query) = .error ⟨⟨3, 4⟩, f.complaint⟩ ∧
      ∃ offset ≤ query.length, f.location.IsAt query.toList offset := by
  intro query f
  have hquery : parse query = .error f := by decide +kernel
  obtain ⟨offset, hle, hat, -⟩ := parse_error_moves hquery
  exact ⟨hquery, by decide, by decide +kernel, offset, hle, hat⟩

end Colloquy.Query
