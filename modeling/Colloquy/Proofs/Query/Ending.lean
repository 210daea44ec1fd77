import Colloquy.Proofs.Query.Layout

/-!
A token is told by its own characters and the one after them, so the parenthesis that closes the
form at the root closes it whatever follows.
-/

namespace Colloquy.Query
open Predicate (IsForm)

/-! ### Tokens -/

/-- Whatever is read up to a quote is one of the ways to write the text. -/
theorem escapes_of_takeQuoted {rest text after : List Char}
    (h : takeQuoted rest = some (text, after)) :
    ∃ written, Escapes text written ∧ rest = written ++ '"' :: after := by
  fun_induction takeQuoted rest generalizing text after with
  | case1 => cases h
  | case2 => cases h
  | case3 c rest ih =>
    obtain ⟨⟨t, a⟩, hrest, he⟩ := Option.map_eq_some_iff.1 h
    obtain ⟨rfl, rfl⟩ := Prod.mk.inj he
    obtain ⟨written, hwritten, rfl⟩ := ih hrest
    exact ⟨'\\' :: c :: written, .escaped c hwritten, rfl⟩
  | case4 rest =>
    obtain ⟨rfl, rfl⟩ := Prod.mk.inj (Option.some.inj h)
    exact ⟨[], .nil, rfl⟩
  | case5 c rest hlast hescaped hquote ih =>
    obtain ⟨⟨t, a⟩, hrest, he⟩ := Option.map_eq_some_iff.1 h
    obtain ⟨rfl, rfl⟩ := Prod.mk.inj he
    obtain ⟨written, hwritten, rfl⟩ := ih hrest
    have hslash : c ≠ '\\' := by
      rintro rfl
      cases written with
      | nil => exact hescaped _ _ rfl rfl
      | cons d written => exact hescaped _ _ rfl rfl
    exact ⟨c :: written, .plain hquote hslash hwritten, rfl⟩

/-- A run of characters is told by itself and by the character that ends it. -/
theorem run_taken {p : Char → Bool} (token : List Char → Token) {rest after : List Char} {t : Token}
    (h : (token (rest.takeWhile p), rest.dropWhile p) = (t, after)) :
    ∃ taken, rest = taken ++ after ∧ ∀ other : List Char, other.head? = after.head? →
      (token ((taken ++ other).takeWhile p), (taken ++ other).dropWhile p) = (t, other) := by
  obtain ⟨rfl, rfl⟩ := Prod.mk.inj h
  refine ⟨rest.takeWhile p, List.takeWhile_append_dropWhile.symm, ?_⟩
  intro other hhead
  have hrun : ∀ c ∈ rest.takeWhile p, p c = true := fun c hc => List.mem_takeWhile_imp hc
  have hstop : ∀ c ∈ other.head?, p c = false := by
    intro c hc
    have hfirst := List.head?_dropWhile_not p rest
    rw [← hhead, hc] at hfirst
    simpa using hfirst
  obtain ⟨htake, hdrop⟩ := Decimal.span_run hrun hstop
  rw [htake, hdrop]

/-- A token takes the same characters of every text that goes on with the same one after them. -/
theorem first_taken {afterOpening : Bool} {c : Char} {rest after : List Char} {t : Token}
    (h : Token.first afterOpening c rest = (t, after)) (ht : t ≠ .stray) :
    ∃ taken, rest = taken ++ after ∧ ∀ other : List Char, other.head? = after.head? →
      Token.first afterOpening c (taken ++ other) = (t, other) := by
  by_cases hmark : c = '(' ∨ c = ')' ∨ c = ','
  · -- a mark is one character, and takes nothing after it
    refine ⟨[], ?_, ?_⟩
    · rcases hmark with rfl | rfl | rfl <;> exact (Prod.mk.inj h).2
    · intro other _
      rcases hmark with rfl | rfl | rfl <;> exact congrArg (·, other) (Prod.mk.inj h).1
  simp only [not_or] at hmark
  unfold Token.first at h ⊢
  simp only [if_neg hmark.1, if_neg hmark.2.1, if_neg hmark.2.2] at h ⊢
  by_cases hdollar : c = '$'
  · -- a variable, as far as its name runs
    simp only [if_pos hdollar] at h ⊢
    split at h
    · rename_i d name
      split at h
      · rename_i hd
        obtain ⟨taken, rfl, hother⟩ := run_taken (fun run => .reference (d :: run)) h
        refine ⟨d :: taken, rfl, ?_⟩
        intro other hhead
        simp only [List.cons_append, if_pos hd]
        exact hother other hhead
      · exact absurd (Prod.mk.inj h).1.symm ht
    · exact absurd (Prod.mk.inj h).1.symm ht
  simp only [if_neg hdollar] at h ⊢
  by_cases hquote : c = '"'
  · -- a quoted text takes its closing quote too, so what follows does not matter
    simp only [if_pos hquote] at h ⊢
    split at h
    · rename_i text left htaken
      obtain ⟨rfl, rfl⟩ := Prod.mk.inj h
      obtain ⟨written, hwritten, rfl⟩ := escapes_of_takeQuoted htaken
      refine ⟨written ++ ['"'], by simp, ?_⟩
      intro other _
      rw [List.append_assoc, List.singleton_append, takeQuoted_of_escapes hwritten]
    · exact absurd (Prod.mk.inj h).1.symm ht
  simp only [if_neg hquote] at h ⊢
  by_cases hname : (afterOpening && isLetter c) = true
  · simp only [if_pos hname] at h ⊢
    exact run_taken (fun run => .name (c :: run)) h
  · simp only [if_neg hname] at h ⊢
    exact run_taken
      (fun run => if isNumber (c :: run) then .number (c :: run) else .word (c :: run)) h

/-- Parentheses are told by one character. -/
theorem mark_of_first {afterOpening : Bool} {c : Char} {rest after : List Char} {t : Token}
    (h : Token.first afterOpening c rest = (t, after)) :
    (t = .opening → c = '(') ∧ (t = .closing → c = ')' ∧ rest = after) := by
  unfold Token.first at h
  repeat' split at h
  all_goals obtain ⟨rfl, rfl⟩ := Prod.mk.inj h
  all_goals constructor
  all_goals intro ht
  -- a run is a number or a word, and each other token shows what it is
  all_goals first
    | assumption
    | exact ⟨by assumption, rfl⟩
    | cases ht
    | (split at ht <;> cases ht)

/-- A token is followed by the tokens of what it leaves. -/
theorem tokensFrom_taken (afterOpening : Bool) (offset : Nat) {c : Char} {taken after : List Char}
    {t : Token} (hc : isSpace c = false)
    (hfirst : Token.first afterOpening c (taken ++ after) = (t, after)) :
    tokensFrom afterOpening offset (c :: (taken ++ after)) =
      (offset, t) :: tokensFrom (t = .opening) (offset + 1 + taken.length) after := by
  rw [tokensFrom, if_neg (by simp [hc])]
  simp only [hfirst, List.length_append, Nat.add_sub_cancel]

theorem tokensFrom_eq_nil {afterOpening : Bool} {offset : Nat} {cs : List Char} :
    tokensFrom afterOpening offset cs = [] ↔ Blanks cs := by
  constructor
  · intro h
    induction cs generalizing offset with
    | nil => exact fun c hc => absurd hc List.not_mem_nil
    | cons c cs ih =>
      rw [tokensFrom] at h
      split at h
      · rename_i hc
        exact List.forall_mem_cons.2 ⟨hc, ih h⟩
      · cases h
  · intro h
    exact tokensFrom_of_blanks afterOpening offset h

/-! ### The closing parenthesis -/

namespace Progress

theorem take?_complete {p : Progress} {offset : Nat} {t : Token} {e : Expression}
    (h : p.take? offset t = some (.complete e)) : t = .closing := by
  unfold take? at h
  split at h
  case h_4 => rfl
  case h_5 => split at h <;> cases h
  all_goals cases h

theorem takeAll_complete_iff {stop : Nat} {e found : Expression} {ts : List (Nat × Token)} :
    (complete e).takeAll stop ts = .ok found ↔ ts = [] ∧ found = e := by
  cases ts with
  | nil =>
    constructor
    · intro h
      exact ⟨rfl, (Except.ok.inj h).symm⟩
    · rintro ⟨-, rfl⟩
      rfl
  | cons x ts =>
    constructor
    · intro h
      cases h
    · rintro ⟨h, -⟩
      cases h

/-- One token is taken, and then the rest of the text. -/
theorem takeAll_taken {afterOpening : Bool} {stop offset : Nat} {c : Char}
    {taken after : List Char} {t : Token} {p next : Progress} (hc : isSpace c = false)
    (hfirst : Token.first afterOpening c (taken ++ after) = (t, after))
    (hnext : p.take? offset t = some next) :
    p.takeAll stop (tokensFrom afterOpening offset (c :: (taken ++ after))) =
      next.takeAll stop (tokensFrom (t = .opening) (offset + 1 + taken.length) after) := by
  rw [tokensFrom_taken afterOpening offset hc hfirst, takeAll, hnext]

/-- A text that is read to its end begins with a token that fits. -/
theorem takeAll_begins {afterOpening : Bool} {stop offset : Nat} {c : Char} {rest : List Char}
    {p : Progress} {e : Expression} (hc : isSpace c = false)
    (h : p.takeAll stop (tokensFrom afterOpening offset (c :: rest)) = .ok e) :
    ∃ t taken after next, rest = taken ++ after ∧ p.take? offset t = some next ∧
      ∀ other : List Char, other.head? = after.head? →
        Token.first afterOpening c (taken ++ other) = (t, other) := by
  rcases hfirst : Token.first afterOpening c rest with ⟨t, after⟩
  obtain ⟨spot, htokens⟩ := tokensFrom_first afterOpening offset hc hfirst
  rw [htokens, takeAll] at h
  split at h
  · rename_i next hnext
    have ht : t ≠ .stray := by
      rintro rfl
      cases p <;> cases hnext
    obtain ⟨taken, hrest, hother⟩ := first_taken hfirst ht
    exact ⟨t, taken, after, next, hrest, hnext, hother⟩
  · cases h

/-- Nothing but blanks stands before the first parenthesis of an expression. -/
theorem takeAll_opening {stop offset : Nat} {cs : List Char} {e : Expression}
    (h : nothing.takeAll stop (tokensFrom false offset cs) = .ok e) :
    ∃ gap rest, cs = gap ++ '(' :: rest ∧ Blanks gap := by
  induction cs generalizing offset with
  | nil =>
    rw [tokensFrom] at h
    cases h
  | cons c cs ih =>
    by_cases hspace : isSpace c = true
    · rw [tokensFrom, if_pos hspace] at h
      obtain ⟨gap, rest, rfl, hgap⟩ := ih h
      exact ⟨c :: gap, rest, rfl, List.forall_mem_cons.2 ⟨hspace, hgap⟩⟩
    · have hc : isSpace c = false := by simpa using hspace
      obtain ⟨t, taken, after, next, rfl, hnext, hother⟩ := takeAll_begins hc h
      have ht : t = .opening := by
        cases t <;> first | rfl | cases hnext
      obtain rfl := (mark_of_first (hother after rfl)).1 ht
      exact ⟨[], taken ++ after, rfl, fun c hc => absurd hc List.not_mem_nil⟩

/-- What has been begun is completed by a parenthesis with blanks after it, and by the same one
whatever comes after it. -/
theorem takeAll_closing {afterOpening : Bool} {stop offset : Nat} {cs : List Char} {p : Progress}
    {e : Expression} (hp : ∀ found, p ≠ .complete found)
    (h : p.takeAll stop (tokensFrom afterOpening offset cs) = .ok e) :
    ∃ body gap, cs = body ++ ')' :: gap ∧ Blanks gap ∧ ∀ (stop : Nat) (more : List Char), ∃ next,
      p.takeAll stop (tokensFrom afterOpening offset (body ++ ')' :: more)) =
        (complete e).takeAll stop (tokensFrom false next more) := by
  -- a token may take any number of characters, so the induction is on the length of the text
  induction hlength : cs.length using Nat.strongRecOn generalizing afterOpening offset cs p with
  | ind length ih =>
    cases cs with
    | nil =>
      rw [tokensFrom] at h
      cases p with
      | complete found => exact absurd rfl (hp found)
      | _ => cases h
    | cons c rest =>
      rw [List.length_cons] at hlength
      by_cases hspace : isSpace c = true
      · -- a blank is passed over, with the same tokens after it
        rw [tokensFrom, if_pos hspace] at h
        obtain ⟨body, gap, rfl, hgap, hmore⟩ := ih rest.length (by omega) hp h rfl
        refine ⟨c :: body, gap, rfl, hgap, fun stop more => ?_⟩
        rw [List.cons_append, tokensFrom, if_pos hspace]
        exact hmore stop more
      have hc : isSpace c = false := by simpa using hspace
      obtain ⟨t, taken, after, next, rfl, hnext, hother⟩ := takeAll_begins hc h
      rw [takeAll_taken hc (hother after rfl) hnext] at h
      rw [List.length_append] at hlength
      by_cases hdone : ∃ found, next = .complete found
      · -- the parenthesis that completes it
        obtain ⟨found, rfl⟩ := hdone
        obtain rfl := take?_complete hnext
        obtain ⟨hnone, rfl⟩ := takeAll_complete_iff.1 h
        obtain ⟨rfl, hrest⟩ := (mark_of_first (hother after rfl)).2 rfl
        have hblank : Blanks (taken ++ after) := by
          rw [hrest]
          exact tokensFrom_eq_nil.1 hnone
        have hfirst (more : List Char) :
            Token.first afterOpening ')' ([] ++ more) = (.closing, more) := rfl
        exact ⟨[], taken ++ after, rfl, hblank,
          fun stop more => ⟨_, takeAll_taken hc (hfirst more) hnext⟩⟩
      · -- the parenthesis comes later, and the token ends in front of the same character
        obtain ⟨body, gap, rfl, hgap, hmore⟩ :=
          ih after.length (by omega) (fun found hfound => hdone ⟨found, hfound⟩) h rfl
        refine ⟨c :: (taken ++ body), gap, by simp, hgap, fun stop more => ?_⟩
        have hhead : (body ++ ')' :: more).head? = (body ++ ')' :: gap).head? := by
          cases body <;> rfl
        obtain ⟨spot, hspot⟩ := hmore stop more
        refine ⟨spot, ?_⟩
        rw [List.cons_append, List.append_assoc, takeAll_taken hc (hother _ hhead) hnext, hspot]

end Progress

/-! ### Queries -/

/-- An expression ends with its parenthesis: after it blanks may follow, and nothing else. -/
theorem read_closing {cs : List Char} {e : Expression} (h : Expression.read cs = .ok e) :
    ∃ body gap, cs = body ++ ')' :: gap ∧ Blanks gap ∧ ∀ more found,
      Expression.read (body ++ ')' :: more) = .ok found ↔ Blanks more ∧ found = e := by
  obtain ⟨body, gap, hsplit, hgap, hmore⟩ := Progress.takeAll_closing (by nofun) h
  refine ⟨body, gap, hsplit, hgap, fun more found => ?_⟩
  obtain ⟨next, hnext⟩ := hmore (body ++ ')' :: more).length more
  rw [Expression.read, tokens, hnext, Progress.takeAll_complete_iff, tokensFrom_eq_nil]

theorem read_begins {cs : List Char} {e : Expression} (h : Expression.read cs = .ok e) :
    ∃ gap rest, cs = gap ++ '(' :: rest ∧ Blanks gap := Progress.takeAll_opening h

theorem source?_eq_none {e : Expression} {cs : List Char} (h : e.source? cs = none)
    (other : List Char) : e.source? other = none := by
  cases e with
  | form _ _ _ _ _ => cases h
  | reference _ _ => cases h
  | number _ _ => rfl
  | text _ _ => rfl

theorem misplaced?_eq_none {cs : List Char} {form : Form} {count : Nat} {e : Expression}
    (h : misplaced? cs form count e = none) (other : List Char) :
    misplaced? other form count e = none := by
  unfold misplaced? at h ⊢
  split at h
  · rename_i hroom
    rw [if_pos hroom]
    split at h
    · cases h
    · rename_i hliteral
      cases hkind : form.argumentKind with
      | predicate => rfl
      | literal =>
        cases hsource : e.source? cs with
        | none => rw [source?_eq_none hsource]
        | some source => exact absurd hsource (hliteral source hkind)
  · cases h

mutual
/-- The query around an expression is only looked at for what a message quotes. -/
theorem build_other {cs : List Char} {e : Expression} {p : Predicate} (other : List Char)
    (h : build cs e = .ok p) : build other e = .ok p := by
  match e with
  | .form start stop name nameStart arguments =>
    obtain ⟨form, built, hform, hbuilt, hp⟩ := build_form_eq_ok.1 h
    exact build_form_eq_ok.2 ⟨form, built, hform, buildAll_other other hbuilt, hp⟩
  | .reference _ _ => exact h
  | .number _ _ => exact h
  | .text _ _ => exact h
theorem buildAll_other {cs : List Char} {form : Form} {count : Nat} {es : List Expression}
    {ps : List Predicate} (other : List Char) (h : buildAll cs form count es = .ok ps) :
    buildAll other form count es = .ok ps := by
  match es with
  | [] => exact h
  | e :: rest =>
    obtain ⟨hplace, p, qs, hp, hqs, rfl⟩ := buildAll_cons_eq_ok.1 h
    exact buildAll_cons_eq_ok.2 ⟨misplaced?_eq_none hplace other, p, qs, build_other other hp,
      buildAll_other other hqs, rfl⟩
end

/-- A text with a parenthesis is a query where it is read to its end and can be built. -/
theorem parseChars_eq_ok {cs : List Char} {p : Predicate} (hmem : '(' ∈ cs) :
    parseChars cs = .ok p ↔ ∃ e, Expression.read cs = .ok e ∧ build cs e = .ok p := by
  rw [parseChars, trim_ne_nil hmem (by decide)]
  constructor
  · intro h
    rw [if_neg (by decide)] at h
    split at h
    · cases h
    · exact ⟨_, ‹_›, h⟩
  · rintro ⟨e, hread, hp⟩
    rw [hread]
    exact hp

theorem read_of_isForm {cs : List Char} {p : Predicate} (h : parseChars cs = .ok p)
    (hform : p.IsForm) : ∃ e, Expression.read cs = .ok e := by
  unfold parseChars at h
  split at h
  · obtain rfl := Except.ok.inj h
    exact hform.elim
  · split at h
    · cases h
    · exact ⟨_, ‹_›⟩

/-- What has been read of a query before its last parenthesis has its first one already. -/
theorem opening_mem {cut rest : List Char} {e : Expression}
    (h : Expression.read (cut ++ rest) = .ok e) (hcut : ¬ Blanks cut) : '(' ∈ cut := by
  obtain ⟨gap, after, hsplit, hgap⟩ := read_begins h
  rcases List.append_eq_append_iff.1 hsplit with ⟨more, rfl, -⟩ | ⟨more, rfl, hmore⟩
  · exact absurd (fun c hc => hgap c (List.mem_append_left more hc)) hcut
  · cases more with
    | nil => exact absurd (by simpa using hgap) hcut
    | cons c more =>
      obtain rfl := (List.cons.inj hmore).1
      exact List.mem_append_right gap List.mem_cons_self

theorem not_blanks_of_mem {cs : List Char} {c : Char} (hmem : c ∈ cs) (hc : isSpace c = false) :
    ¬ Blanks cs := by
  intro h
  rw [h c hmem] at hc
  cases hc

/-- The parenthesis that closes a query is told by what stands before it. -/
theorem parseChars_closing {cs : List Char} {p : Predicate} (hmem : '(' ∈ cs)
    (h : parseChars cs = .ok p) :
    ∃ body gap, cs = body ++ ')' :: gap ∧ Blanks gap ∧ ∀ more q,
      parseChars (body ++ ')' :: more) = .ok q ↔ Blanks more ∧ q = p := by
  obtain ⟨e, hread, hbuild⟩ := (parseChars_eq_ok hmem).1 h
  obtain ⟨body, gap, rfl, hgap, hmore⟩ := read_closing hread
  refine ⟨body, gap, rfl, hgap, fun more q => ?_⟩
  -- the first parenthesis opens, so it is not the last one and no blank after that
  have hbody : '(' ∈ body := by
    rcases List.mem_append.1 hmem with hbody | hrest
    · exact hbody
    · rcases List.mem_cons.1 hrest with he | hin
      · exact absurd he (by decide)
      · exact absurd hgap (not_blanks_of_mem hin (by decide))
  rw [parseChars_eq_ok (List.mem_append_left _ hbody)]
  constructor
  · rintro ⟨found, hfound, hq⟩
    obtain ⟨hblank, rfl⟩ := (hmore more found).1 hfound
    have hp := build_other (body ++ ')' :: more) hbuild
    rw [hq] at hp
    exact ⟨hblank, Except.ok.inj hp⟩
  · rintro ⟨hblank, rfl⟩
    exact ⟨e, (hmore more e).2 ⟨hblank, rfl⟩, build_other _ hbuild⟩

theorem exists_failure {query : String} (h : ∀ p, parse query ≠ .ok p) :
    ∃ f, parse query = .error f := by
  cases hparse : parse query with
  | error f => exact ⟨f, rfl⟩
  | ok p => exact absurd hparse (h p)

/-- No query is a proper part of the front of another. A query with a form has a last parenthesis,
after which there are blanks; with anything else added it is no query, and neither is what is left
of it without that parenthesis, unless nothing but blanks is left. -/
theorem parse_prefix_free {query : String} {p : Predicate} (hquery : parse query = .ok p)
    (hform : p.IsForm) :
    (∀ more q, parse (query ++ more) = .ok q ↔ Blanks more.toList ∧ q = p) ∧
      (∃ body gap, query.toList = body ++ ')' :: gap ∧ Blanks gap ∧
        ∀ more, ¬ Blanks more → ∃ f, parse (String.ofList (body ++ ')' :: more)) = .error f) ∧
      ∀ cut rest, query.toList = cut ++ rest → ')' ∈ rest → ¬ Blanks cut →
        ∃ f, parse (String.ofList cut) = .error f := by
  have hchars := parse_eq_ok.1 hquery
  obtain ⟨e, hread⟩ := read_of_isForm hchars hform
  have hmem : '(' ∈ query.toList := by
    obtain ⟨gap, rest, hsplit, -⟩ := read_begins hread
    rw [hsplit]
    exact List.mem_append_right gap List.mem_cons_self
  obtain ⟨body, gap, hbody, hgap, hmore⟩ := parseChars_closing hmem hchars
  refine ⟨?_, ⟨body, gap, hbody, hgap, ?_⟩, ?_⟩
  · intro more q
    have hadded : (query ++ more).toList = body ++ ')' :: (gap ++ more.toList) := by
      rw [String.toList_append, hbody, List.append_assoc, List.cons_append]
    have hblanks : Blanks (gap ++ more.toList) ↔ Blanks more.toList := by
      rw [Blanks, List.forall_mem_append]
      exact and_iff_right hgap
    rw [parse_eq_ok, hadded, hmore, hblanks]
  · intro more hblanks
    apply exists_failure
    intro q hq
    rw [parse_eq_ok, String.toList_ofList] at hq
    exact hblanks ((hmore more q).1 hq).1
  · intro cut rest hsplit hrest hcut
    apply exists_failure
    intro q hq
    rw [parse_eq_ok, String.toList_ofList] at hq
    rw [hsplit] at hread hchars
    -- the parenthesis that is left out would have to be a blank after the cut
    obtain ⟨front, after, rfl, -, hother⟩ := parseChars_closing (opening_mem hread hcut) hq
    rw [List.append_assoc, List.cons_append] at hchars
    have hblanks := ((hother (after ++ rest) p).1 hchars).1
    exact not_blanks_of_mem (List.mem_append_right after hrest) (by decide) hblanks

/-- Parentheses and an escaped quote within a text close nothing. -/
theorem parse_prefix_free_quoted :
    let query := "(equal $text \"a)\\\"(\")"
    let p : Predicate := .equal (.attr "text") (.literal (.text "a)\"("))
    parse query = .ok p ∧ parse (query ++ " \n") = .ok p ∧ (∃ f, parse (query ++ ")") = .error f) ∧
      ∃ f, parse "(equal $text \"a)" = .error f := by
  intro query p
  have hquery : parse query = .ok p := by decide +kernel
  obtain ⟨hadded, -, hcut⟩ := parse_prefix_free hquery trivial
  refine ⟨hquery, (hadded " \n" p).2 ⟨by decide, rfl⟩, ?_, ?_⟩
  · apply exists_failure
    intro q hq
    exact absurd ((hadded ")" q).1 hq).1 (by decide)
  · exact hcut "(equal $text \"a)".toList "\\\"(\")".toList (by decide) (by decide) (by decide)

end Colloquy.Query
