import Colloquy.Keyword

/-!
Separators cut a text into parts that have their keywords each for itself, so a run is lowered the
same wherever it stands.
-/

namespace Colloquy.Keyword
open Colloquy.Text

/-! ## The keywords of a text -/

/-- A run ends at a separator, whatever was read of it before. -/
theorem runsFrom_separated {s : Char} (hs : isLetterOrNumber s = false) (run a b : List Char) :
    runsFrom run (a ++ s :: b) = runsFrom run a ++ runs b := by
  induction a generalizing run with
  | nil =>
    rw [List.nil_append, runsFrom, runsFrom, hs]
    -- without a run before it the separator leaves nothing behind
    by_cases hrun : run.isEmpty
    · simp [hrun, runs]
    · simp [hrun, runs]
  | cons c a ih =>
    rw [List.cons_append, runsFrom, runsFrom]
    by_cases hc : isLetterOrNumber c
    · rw [if_pos hc, if_pos hc]
      exact ih (c :: run)
    · rw [if_neg hc, if_neg hc, ih []]
      by_cases hrun : run.isEmpty
      · rw [if_pos hrun, if_pos hrun]
      · rw [if_neg hrun, if_neg hrun, List.cons_append]

/-- Characters that are no separators go on with the run. -/
theorem runsFrom_word {word : List Char} (hword : ∀ c ∈ word, isLetterOrNumber c = true)
    {run : List Char} (hne : run.reverse ++ word ≠ []) :
    runsFrom run word = [run.reverse ++ word] := by
  induction word generalizing run with
  | nil =>
    have hrun : run ≠ [] := by simpa using hne
    simp [runsFrom, hrun]
  | cons c word ih =>
    obtain ⟨hc, hrest⟩ := List.forall_mem_cons.1 hword
    have hrun : (c :: run).reverse ++ word = run.reverse ++ c :: word := by simp
    rw [← hrun] at hne ⊢
    rw [runsFrom, if_pos hc]
    exact ih hrest hne

/-- What stands before a separator and what stands after it have their keywords each for itself. -/
theorem ofText_separated {s : Char} (hs : isLetterOrNumber s = false) (a b : List Char) :
    ofText (a ++ s :: b) = ofText a ++ ofText b := by
  have hruns : runs (a ++ s :: b) = runs a ++ runs b := runsFrom_separated hs [] a b
  rw [ofText, hruns, List.map_append]
  rfl

/-- A text without separators is one keyword. -/
theorem ofText_word {word : List Char} (hne : word ≠ [])
    (hword : ∀ c ∈ word, isLetterOrNumber c = true) : ofText word = [lower word] := by
  have hread : ([] : List Char).reverse ++ word ≠ [] := hne
  have hruns : runs word = [word] := runsFrom_word hword hread
  rw [ofText, hruns]
  rfl

theorem mem_sorted {text : List Char} {w : String} : w ∈ sorted text ↔ w.toList ∈ ofText text := by
  rw [sorted, List.mem_mergeSort, List.mem_eraseDups, List.mem_map]
  constructor
  · rintro ⟨k, hk, rfl⟩
    rwa [String.toList_ofList]
  · intro hw
    exact ⟨w.toList, hw, String.ofList_toList⟩

/-! ## Matching -/

theorem occursIn_iff {word text : List Char} : occursIn word text = true ↔ word <:+: text := by
  induction text with
  | nil => rw [occursIn, List.isEmpty_iff, List.infix_nil]
  | cons c rest ih =>
    rw [occursIn, Bool.or_eq_true, List.isPrefixOf_iff_prefix, ih, List.infix_cons_iff]

/-- Every keyword of the query lies inside one of the target. -/
theorem matchesText_iff {query target : List Char} : matchesText query target = true ↔
    ∀ wanted ∈ ofText query, ∃ found ∈ ofText target, wanted <:+: found := by
  simp only [matchesText, List.all_eq_true, List.any_eq_true, occursIn_iff]

theorem matchesText_separated {s : Char} (hs : isLetterOrNumber s = false)
    (a b target : List Char) :
    matchesText (a ++ s :: b) target = (matchesText a target && matchesText b target) := by
  unfold matchesText
  rw [ofText_separated hs, List.all_append]

theorem matchesText_of_subset {query target more : List Char}
    (hsub : ∀ k ∈ ofText target, k ∈ ofText more) (h : matchesText query target = true) :
    matchesText query more = true := by
  rw [matchesText_iff] at h ⊢
  intro wanted hwanted
  obtain ⟨found, hfound, hin⟩ := h wanted hwanted
  exact ⟨found, hsub found hfound, hin⟩

/-- A separator cuts a text in two: its keywords are those of the one part and those of the other,
down to the words, which are one keyword each. So a query of two parts matches what both parts
match, and a target of two parts is matched by what matches one of them. -/
theorem keywords_of_separated {s : Char} (hs : isLetterOrNumber s = false) (a b : List Char) :
    (∀ w, w ∈ sorted (a ++ s :: b) ↔ w ∈ sorted a ∨ w ∈ sorted b) ∧
      (∀ word, word ≠ [] → (∀ c ∈ word, isLetterOrNumber c = true) →
        ∀ w, w ∈ sorted word ↔ w.toList = lower word) ∧
      (∀ target, matchesText (a ++ s :: b) target =
        (matchesText a target && matchesText b target)) ∧
      (∀ query, matchesText query a = true ∨ matchesText query b = true →
        matchesText query (a ++ s :: b) = true) := by
  have hparts := ofText_separated hs a b
  refine ⟨fun w => ?_, fun word hne hword w => ?_, matchesText_separated hs a b, fun query => ?_⟩
  · rw [mem_sorted, mem_sorted, mem_sorted, hparts, List.mem_append]
  · rw [mem_sorted, ofText_word hne hword, List.mem_singleton]
  · rintro (h | h)
    · apply matchesText_of_subset _ h
      intro k hk
      exact hparts ▸ List.mem_append_left _ hk
    · apply matchesText_of_subset _ h
      intro k hk
      exact hparts ▸ List.mem_append_right _ hk

/-- The sigma before the hyphen is at the end of its word. -/
theorem keywords_of_separated_sigmas :
    isLetterOrNumber '-' = false ∧
      "ος" ∈ sorted ['Ο', 'Σ', '-', 'Σ', 'Α'] ∧ "οσ" ∉ sorted ['Ο', 'Σ', '-', 'Σ', 'Α'] ∧
      matchesText ['Ο', 'Σ', '-', 'Σ', 'Α'] ['Ο', 'Σ'] = false ∧
      matchesText ['Σ', 'Α'] ['Ο', 'Σ', '-', 'Σ', 'Α'] = true := by
  have hhyphen : isLetterOrNumber '-' = false := by decide
  obtain ⟨hsets, hwords, hquery, htarget⟩ :=
    keywords_of_separated hhyphen ['Ο', 'Σ'] ['Σ', 'Α']
  have hfirst (w : String) : w ∈ sorted ['Ο', 'Σ'] ↔ w.toList = ['ο', 'ς'] :=
    hwords ['Ο', 'Σ'] (by decide) (List.all_eq_true.1 (by decide)) w
  have hsecond (w : String) : w ∈ sorted ['Σ', 'Α'] ↔ w.toList = ['σ', 'α'] :=
    hwords ['Σ', 'Α'] (by decide) (List.all_eq_true.1 (by decide)) w
  refine ⟨hhyphen, ?_, ?_, ?_, ?_⟩
  · apply (hsets "ος").2
    exact Or.inl ((hfirst "ος").2 (by decide))
  · intro hmem
    rcases (hsets "οσ").1 hmem with h | h
    · exact absurd ((hfirst "οσ").1 h) (by decide)
    · exact absurd ((hsecond "οσ").1 h) (by decide)
  · exact (hquery ['Ο', 'Σ']).trans (by decide)
  · apply htarget
    exact Or.inr (by decide)

theorem matchesText_refl (text : List Char) : matchesText text text = true := by
  rw [matchesText_iff]
  intro wanted hwanted
  exact ⟨wanted, hwanted, List.infix_rfl⟩

/-- A keyword inside a keyword inside a third one lies inside that one. -/
theorem matchesText_trans {query text target : List Char} (hquery : matchesText query text = true)
    (htext : matchesText text target = true) : matchesText query target = true := by
  rw [matchesText_iff] at hquery htext ⊢
  intro wanted hwanted
  obtain ⟨found, hfound, hin⟩ := hquery wanted hwanted
  obtain ⟨around, haround, hinside⟩ := htext found hfound
  exact ⟨around, haround, hin.trans hinside⟩

theorem matchesText_of_none {query : List Char} (hquery : ofText query = []) (target : List Char) :
    matchesText query target = true := by
  simp only [matchesText, hquery, List.all_nil]

/-- Where the target has no keywords there is nothing that a keyword could lie inside. -/
theorem matchesText_none_iff {target : List Char} (htarget : ofText target = [])
    (query : List Char) : matchesText query target = true ↔ ofText query = [] := by
  constructor
  · intro h
    rw [matchesText_iff, htarget] at h
    apply List.eq_nil_iff_forall_not_mem.2
    intro wanted hwanted
    obtain ⟨found, hfound, -⟩ := h wanted hwanted
    exact List.not_mem_nil hfound
  · intro hquery
    exact matchesText_of_none hquery target

/-- Matching is a preorder of texts: each text matches itself, and a query that matches a text
matches whatever that text matches. The texts without keywords are its least elements. -/
theorem matchesText_preorder :
    (∀ text, matchesText text text = true) ∧
      (∀ query text target, matchesText query text = true → matchesText text target = true →
        matchesText query target = true) ∧
      (∀ query target, ofText query = [] → matchesText query target = true) ∧
      (∀ query target, ofText target = [] →
        (matchesText query target = true ↔ ofText query = [])) := by
  refine ⟨matchesText_refl, ?_, ?_, ?_⟩
  · intro query text target hquery htext
    exact matchesText_trans hquery htext
  · intro query target hquery
    exact matchesText_of_none hquery target
  · intro query target htarget
    exact matchesText_none_iff htarget query

/-- From a part of a word to a part of another one, and through a text without keywords. -/
theorem matchesText_preorder_chains :
    matchesText "BOW".toList "bows!".toList = true ∧
      matchesText "bows!".toList "two rainbows".toList = true ∧
      matchesText "BOW".toList "two rainbows".toList = true ∧
      ofText "--".toList = [] ∧ matchesText "?!".toList "--".toList = true ∧
      matchesText "?!".toList "two rainbows".toList = true := by
  obtain ⟨-, htrans, hleast, hnone⟩ := matchesText_preorder
  have hpart : matchesText "BOW".toList "bows!".toList = true := by decide
  have hwhole : matchesText "bows!".toList "two rainbows".toList = true := by decide
  have hdashes : ofText "--".toList = [] := by decide
  have hmarks : matchesText "?!".toList "--".toList = true :=
    (hnone "?!".toList "--".toList hdashes).2 (by decide)
  have hempty : matchesText "--".toList "two rainbows".toList = true :=
    hleast "--".toList "two rainbows".toList hdashes
  refine ⟨hpart, hwhole, ?_, hdashes, hmarks, ?_⟩
  · exact htrans _ _ _ hpart hwhole
  · exact htrans _ _ _ hmarks hempty

end Colloquy.Keyword
