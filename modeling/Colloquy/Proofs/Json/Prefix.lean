import Colloquy.Proofs.Json.Tree
import Mathlib.Data.List.TakeDrop

/-!
Texts of JSON that go on. The tree of an array is there with its last bracket and not before.
-/

namespace Colloquy.Json
open Progress

section Taken
variable {bs rest after s taken : List UInt8}

theorem mapTaken_append {α β : Type} {f : α → β} {o o' : Option (α × List UInt8)} {x : β}
    (h : mapTaken f o = some (x, after))
    (hmore : ∀ a, o = some (a, after) → o' = some (a, after ++ s)) :
    mapTaken f o' = some (x, after ++ s) := by
  obtain ⟨⟨a, left⟩, ho, he⟩ := Option.map_eq_some_iff.1 h
  obtain ⟨rfl, rfl⟩ := Prod.mk.inj he
  rw [hmore a ho]
  rfl

/-- A string ends with its quote, whatever follows. -/
theorem takeString_append (h : takeString bs = some (taken, after)) :
    takeString (bs ++ s) = some (taken, after ++ s) := by
  fun_induction takeString bs generalizing taken after with
  | case2 rest =>
    obtain ⟨rfl, rfl⟩ := Prod.mk.inj (Option.some.inj h)
    rw [List.cons_append, takeString.eq_def]
    simp only [if_true]
  | case5 e rest hshort hquote hlow ih =>
    rw [List.cons_append, List.cons_append, takeString.eq_def]
    simp only [if_neg hquote, if_neg hlow, if_pos hshort, if_true]
    exact mapTaken_append h fun a ha => ih ha
  | case6 h1 h2 h3 h4 rest hhex hquote hlow hshort ih =>
    rw [takeString.eq_def]
    simp only [List.cons_append, if_neg hquote, if_neg hlow, if_neg hshort, if_pos hhex, if_true]
    exact mapTaken_append h fun a ha => ih ha
  | case10 b rest hquote hlow hback ih =>
    rw [List.cons_append, takeString.eq_def]
    simp only [if_neg hquote, if_neg hlow, if_neg hback]
    exact mapTaken_append h fun a ha => ih ha
  | _ => cases h

/-- Digits end where something else follows, so that has to be there. -/
theorem takeDigits_append (h : takeDigits bs = some (taken, after)) (hafter : after ≠ []) :
    takeDigits (bs ++ s) = some (taken, after ++ s) := by
  unfold takeDigits at h ⊢
  simp only at h
  split at h
  · cases h
  rename_i hsome
  obtain ⟨rfl, rfl⟩ := Prod.mk.inj (Option.some.inj h)
  have hrest : (bs.dropWhile isDigit).isEmpty = false := by simp [hafter]
  have hlength : (bs.takeWhile isDigit).length ≠ bs.length := by
    intro hall
    have hwhole := congrArg List.length (List.takeWhile_append_dropWhile (p := isDigit) (l := bs))
    rw [List.length_append] at hwhole
    exact hafter (List.length_eq_zero_iff.1 (by omega))
  have htake : (bs ++ s).takeWhile isDigit = bs.takeWhile isDigit := by
    rw [List.takeWhile_append, if_neg hlength]
  have hdrop : (bs ++ s).dropWhile isDigit = bs.dropWhile isDigit ++ s := by
    rw [List.dropWhile_append, hrest]
    rfl
  simp only [htake, hdrop, if_neg hsome]

theorem takeWhole_append (h : takeWhole bs = some (taken, after)) (hafter : after ≠ []) :
    takeWhole (bs ++ s) = some (taken, after ++ s) := by
  unfold takeWhole at h ⊢
  split at h
  · cases h
  rename_i digits left hdigits
  split at h
  · cases h
  rename_i hzero
  obtain ⟨rfl, rfl⟩ := Prod.mk.inj (Option.some.inj h)
  rw [takeDigits_append hdigits hafter]
  simp only [if_neg hzero]

theorem takeFraction_append (h : takeFraction bs = some (taken, after)) (hafter : after ≠ []) :
    takeFraction (bs ++ s) = some (taken, after ++ s) := by
  cases bs with
  | nil =>
    cases h
    exact absurd rfl hafter
  | cons b rest =>
    rw [takeFraction] at h
    rw [List.cons_append, takeFraction]
    split
    · rename_i hpoint
      rw [if_pos hpoint] at h
      exact mapTaken_append h fun digits hdigits => takeDigits_append hdigits hafter
    · rename_i hpoint
      rw [if_neg hpoint] at h
      obtain ⟨rfl, rfl⟩ := Prod.mk.inj (Option.some.inj h)
      rfl

theorem takeExponent_append (h : takeExponent bs = some (taken, after)) (hafter : after ≠ []) :
    takeExponent (bs ++ s) = some (taken, after ++ s) := by
  cases bs with
  | nil =>
    cases h
    exact absurd rfl hafter
  | cons b rest =>
    rw [takeExponent.eq_def] at h
    rw [List.cons_append, takeExponent.eq_def]
    simp only at h ⊢
    split
    · rename_i hletter
      rw [if_pos hletter] at h
      cases rest with
      | nil => cases h
      | cons sign digits =>
        simp only [List.cons_append] at h ⊢
        -- with a sign or without, it is digits that end the exponent
        split
        · rename_i hsign
          rw [if_pos hsign] at h
          exact mapTaken_append h fun digits hdigits => takeDigits_append hdigits hafter
        · rename_i hsign
          rw [if_neg hsign] at h
          rw [← List.cons_append]
          exact mapTaken_append h fun digits hdigits => takeDigits_append hdigits hafter
    · rename_i hletter
      rw [if_neg hletter] at h
      obtain ⟨rfl, rfl⟩ := Prod.mk.inj (Option.some.inj h)
      rfl

/-- A number that something follows ends there. -/
theorem takeUnsigned_append (h : takeUnsigned bs = some (taken, after)) (hafter : after ≠ []) :
    takeUnsigned (bs ++ s) = some (taken, after ++ s) := by
  unfold takeUnsigned at h ⊢
  simp only [Option.bind_eq_bind, Option.bind_eq_some_iff, Option.some.injEq, Prod.mk.injEq] at h
  obtain ⟨⟨whole, r₁⟩, hwhole, ⟨fraction, r₂⟩, hfraction, ⟨exponent, r₃⟩, hexponent, rfl, rfl⟩ := h
  -- what is left only gets shorter, so there is something after each of the parts
  have hleft {l r : List UInt8} (hle : r.length ≤ l.length) (hr : r ≠ []) : l ≠ [] := by
    rintro rfl
    exact hr (List.length_eq_zero_iff.1 (Nat.le_zero.1 hle))
  have h₂ : r₂ ≠ [] := hleft (takeExponent_length hexponent) hafter
  have h₁ : r₁ ≠ [] := hleft (takeFraction_length hfraction) h₂
  simp only [takeWhole_append hwhole h₁, takeFraction_append hfraction h₂,
    takeExponent_append hexponent hafter, Option.bind_eq_bind, Option.bind_some]

theorem takeKeyword_append {keyword : List UInt8} (h : takeKeyword keyword bs = some after) :
    takeKeyword keyword (bs ++ s) = some (after ++ s) := by
  unfold takeKeyword at h ⊢
  split at h
  · rename_i hkeyword
    have hbegins : keyword <+: bs := List.isPrefixOf_iff_prefix.1 hkeyword
    have hmore : keyword.isPrefixOf (bs ++ s) = true :=
      List.isPrefixOf_iff_prefix.2 (hbegins.trans (List.prefix_append bs s))
    rw [if_pos hmore, List.drop_append_of_le_length hbegins.length_le, Option.some.inj h]
  · cases h

theorem keyword?_append {b : UInt8} {t : Token} (h : keyword? b rest = some (t, after)) :
    keyword? b (rest ++ s) = some (t, after ++ s) := by
  have hmap {keyword : List UInt8} {word : Token}
      (hword : (takeKeyword keyword rest).map (fun a => (word, a)) = some (t, after)) :
      (takeKeyword keyword (rest ++ s)).map (fun a => (word, a)) = some (t, after ++ s) := by
    obtain ⟨left, hleft, he⟩ := Option.map_eq_some_iff.1 hword
    obtain ⟨rfl, rfl⟩ := Prod.mk.inj he
    rw [takeKeyword_append hleft]
    rfl
  unfold keyword? at h ⊢
  repeat' split at h
  · rw [if_pos ‹_›]
    exact hmap h
  · rw [if_neg ‹_›, if_pos ‹_›]
    exact hmap h
  · rw [if_neg ‹_›, if_neg ‹_›, if_pos ‹_›]
    exact hmap h
  · cases h

end Taken

/-- The token that ends a text may still grow. -/
def Token.isNumber : Token → Bool
  | .number _ => true
  | _ => false

theorem Token.first_append {b : UInt8} {rest after s : List UInt8} {t : Token}
    (h : first b rest = some (t, after)) (hends : after ≠ [] ∨ t.isNumber = false) :
    first b (rest ++ s) = some (t, after ++ s) := by
  have hnumber {f : List UInt8 → List UInt8} {bs : List UInt8}
      (htaken : mapTaken (fun n => number (f n)) (takeUnsigned bs) = some (t, after)) :
      mapTaken (fun n => number (f n)) (takeUnsigned (bs ++ s)) = some (t, after ++ s) := by
    refine mapTaken_append htaken fun n hn => takeUnsigned_append hn ?_
    obtain ⟨⟨m, left⟩, -, he⟩ := Option.map_eq_some_iff.1 htaken
    obtain ⟨rfl, rfl⟩ := Prod.mk.inj he
    exact hends.resolve_right (by simp [isNumber])
  unfold first at h ⊢
  split at h
  · rename_i mark hmark
    obtain ⟨rfl, rfl⟩ := Prod.mk.inj (Option.some.inj h)
    rfl
  split at h
  · rename_i hquote
    rw [if_pos hquote]
    exact mapTaken_append h fun taken htaken => takeString_append htaken
  rename_i hquote
  rw [if_neg hquote]
  split at h
  · rename_i hminus
    rw [if_pos hminus]
    exact hnumber h
  rename_i hminus
  rw [if_neg hminus]
  split at h
  · rename_i hdigit
    rw [if_pos hdigit, ← List.cons_append]
    exact hnumber (f := id) h
  rename_i hdigit
  rw [if_neg hdigit]
  exact keyword?_append h

/-- The tokens of a text that does not end in a number are the first ones of every longer text. -/
theorem tokens_append {bs s : List UInt8} {ts : List Token} (h : tokens bs = some ts)
    (hlast : ∀ t ∈ ts.getLast?, t.isNumber = false) :
    tokens (bs ++ s) = (tokens s).map (ts ++ ·) := by
  fun_induction tokens bs generalizing ts with
  | case1 =>
    cases h
    cases hs : tokens s <;> simp [hs]
  | case2 b rest hspace ih =>
    rw [List.cons_append, tokens, if_pos hspace]
    exact ih h hlast
  | case3 b rest hspace hfirst => cases h
  | case4 b rest hspace t after hfirst ih =>
    obtain ⟨later, hlater, rfl⟩ := Option.map_eq_some_iff.1 h
    have hends : after ≠ [] ∨ t.isNumber = false := by
      by_cases hnil : after = []
      · subst hnil
        rw [tokens] at hlater
        obtain rfl := Option.some.inj hlater
        exact .inr (hlast t rfl)
      · exact .inl hnil
    have hrest : ∀ u ∈ later.getLast?, u.isNumber = false := by
      intro u hu
      apply hlast
      rw [List.getLast?_cons, hu]
      rfl
    have hspace : isSpace b = false := by simpa using hspace
    rw [List.cons_append, tokens_cons hspace (Token.first_append hfirst hends), ih hlater hrest,
      Option.map_map]
    rfl

/-- A text without tokens is blank. -/
theorem blank_of_tokens {bs : List UInt8} (h : tokens bs = some []) :
    ∀ b ∈ bs, isSpace b = true := by
  fun_induction tokens bs with
  | case1 => simp
  | case2 b rest hspace ih =>
    intro c hc
    rcases List.mem_cons.1 hc with rfl | hc
    · exact hspace
    · exact ih h c hc
  | case3 b rest hspace hfirst => cases h
  | case4 b rest hspace t after hfirst ih =>
    obtain ⟨later, -, he⟩ := Option.map_eq_some_iff.1 h
    cases he

/-- After the whole value no token is taken. -/
theorem takeAll_complete (value : Json) (t : Token) (ts : List Token) :
    takeAll (.complete value) (t :: ts) = none := by
  rw [takeAll, take?]
  all_goals simp

theorem takeAll_append {p : Progress} {ts : List Token} {value : Json}
    (h : takeAll p ts = some value) (more : List Token) :
    takeAll p (ts ++ more) = takeAll (.complete value) more := by
  induction ts generalizing p with
  | nil =>
    cases p with
    | complete found =>
      obtain rfl := Option.some.inj h
      rfl
    | unfinished due outer => cases h
  | cons t ts ih =>
    rw [takeAll] at h
    obtain ⟨next, hnext, hrest⟩ := Option.bind_eq_some_iff.1 h
    rw [List.cons_append, takeAll, hnext]
    exact ih hrest

theorem place_eq_complete {outer : List Container} {j value : Json}
    (h : place j outer = some (.complete value)) : value = j := by
  unfold place at h
  split at h
  · exact (Progress.complete.inj (Option.some.inj h)).symm
  all_goals cases h

theorem take?_number {p : Progress} {written : List UInt8} {value : Json}
    (h : p.take? (.number written) = some (.complete value)) : value = .number written := by
  unfold take? at h
  split at h
  all_goals first | contradiction | exact place_eq_complete h

/-- A number that is the last token of a value is all of it. -/
theorem number_of_getLast? {p : Progress} {ts : List Token} {value : Json} {written : List UInt8}
    (h : takeAll p ts = some value) (hlast : ts.getLast? = some (.number written)) :
    value = .number written := by
  induction ts generalizing p with
  | nil => cases hlast
  | cons t ts ih =>
    rw [takeAll] at h
    obtain ⟨next, hnext, hrest⟩ := Option.bind_eq_some_iff.1 h
    cases ts with
    | nil =>
      obtain rfl : t = .number written := Option.some.inj hlast
      cases next with
      | complete found =>
        obtain rfl := Option.some.inj hrest
        exact take?_number hnext
      | unfinished due outer => cases hrest
    | cons u ts =>
      rw [List.getLast?_cons_cons] at hlast
      exact ih hrest hlast

/-- A text that reads as an array goes on with blanks only, if it is to be read. -/
theorem blank_of_read {bs s : List UInt8} {items : List Json} {value : Json}
    (h : read bs = some (.array items)) (hmore : read (bs ++ s) = some value) :
    ∀ b ∈ s, isSpace b = true := by
  obtain ⟨ts, hts, hall⟩ := Option.bind_eq_some_iff.1 h
  have hlast : ∀ t ∈ ts.getLast?, t.isNumber = false := by
    intro t ht
    cases t with
    | number written => cases number_of_getLast? hall ht
    | _ => rfl
  rw [read, tokens_append hts hlast] at hmore
  obtain ⟨later, hlater, hvalue⟩ := Option.bind_eq_some_iff.1 hmore
  obtain ⟨more, htokens, rfl⟩ := Option.map_eq_some_iff.1 hlater
  rw [takeAll_append hall] at hvalue
  -- the array is complete, so there is no token left for what is added
  cases more with
  | nil => exact blank_of_tokens htokens
  | cons t more =>
    rw [takeAll_complete] at hvalue
    cases hvalue

end Colloquy.Json
