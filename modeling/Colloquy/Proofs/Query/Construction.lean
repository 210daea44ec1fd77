import Colloquy.Proofs.Query.RoundTrip

/-!
The catalog is given all arguments of a form at once, while the parser meets them one by one. What
the catalog builds passes the checks of the parser.
-/

namespace Colloquy

/-- Arguments that are admitted together are admitted one after another. -/
theorem Arity.hasRoom_of_admits {arity : Arity} {count i : Nat} (h : arity.admits count = true)
    (hi : i < count) : arity.hasRoom i = true := by
  cases arity with
  | exactly n =>
    have hcount : count = n := of_decide_eq_true h
    exact decide_eq_true (hcount ▸ hi)
  | atLeast n => rfl

theorem Form.admits_of_construct {form : Form} {ps : List Predicate} {p : Predicate}
    (h : form.construct ps = .ok p) : form.arity.admits ps.length = true := by
  unfold construct at h
  split at h
  -- `and` and `or` take as many as there are, so long as there is one
  case h_6 | h_7 => simp [arity, Arity.admits]
  all_goals first
    | rfl
    | cases h

/-- A form that only takes literals is built of literals. -/
theorem Form.literal_of_construct {form : Form} {ps : List Predicate} {p : Predicate}
    (h : form.construct ps = .ok p) (hkind : form.argumentKind = .literal) :
    ∀ a ∈ ps, ∃ v, a = .literal v := by
  unfold construct at h
  split at h
  -- a limit with its count; no other form only takes literals
  case h_9 n =>
    intro a ha
    exact ⟨.number n, List.mem_singleton.1 ha⟩
  case h_10 | h_11 => cases h
  all_goals cases hkind

namespace Query
open Predicate (AllArguments)

/-- What the catalog builds passes every check that the parser makes before. -/
theorem fits_of_construct {form : Form} {ps : List Predicate} {p : Predicate}
    (h : form.construct ps = .ok p) : Fits form ps := by
  constructor
  · intro i hi
    exact Arity.hasRoom_of_admits (Form.admits_of_construct h) hi
  · exact Form.literal_of_construct h

/-- The arguments that are built are the ones that the expressions give. -/
theorem eq_of_buildAll {cs : List Char} {form : Form} {count : Nat} {es : List Expression}
    {ps built : List Predicate} (hes : List.Forall₂ Expression.Gives es ps)
    (h : buildAll cs form count es = .ok built) : built = ps := by
  induction hes generalizing count built with
  | nil => exact (Except.ok.inj h).symm
  | @cons e p es ps he _ ih =>
    obtain ⟨-, q, qs, hq, hqs, rfl⟩ := buildAll_cons_eq_ok.1 h
    have hsame : q = p := Except.ok.inj (hq.symm.trans (he cs).1)
    rw [hsame, ih hqs]

/-- Past the checks, the parser leaves it to the catalog what becomes of the arguments. -/
theorem Expression.Applies.construct_of_build {form : Form} {ps : List Predicate} {start : Nat}
    {e : Expression} {cs : List Char} {p : Predicate} (h : e.Applies form ps start)
    (hbuild : build cs e = .ok p) : form.construct ps = .ok p := by
  obtain ⟨hes⟩ := h
  obtain ⟨found, built, hfound, hall, hp⟩ := build_form_eq_ok.1 hbuild
  rw [String.ofList_toList, ofName_name] at hfound
  obtain rfl := Option.some.inj hfound
  rwa [eq_of_buildAll hes hall] at hp

/-! ### Texts -/

/-- The canonical texts of arguments, each with blanks before it. -/
inductive RenderedAfter : List Predicate → List Char → Prop where
  | nil : RenderedAfter [] []
  | cons {p : Predicate} {ps : List Predicate} {gap rest : List Char} (hgap : Blanks gap)
      (hne : gap ≠ []) (hrest : RenderedAfter ps rest) :
      RenderedAfter (p :: ps) (gap ++ p.render ++ rest)

theorem written_of_renderedAfter {ps : List Predicate} {text : List Char}
    (h : RenderedAfter ps text) (hps : AllArguments ps) : WrittenAfter ps text := by
  induction h with
  | nil => exact .nil
  | @cons p ps gap rest hgap hne _ ih =>
    exact .cons (.blanks hgap hne) (written_render p hps.1) (ih hps.2)

theorem fills_of_renderedAfter {ps : List Predicate} {text after : List Char}
    (h : RenderedAfter ps text) (hps : AllArguments ps) (hafter : Blanks after) :
    Fills (text ++ after) ps := by
  cases h with
  | nil => exact fills_nil hafter
  | @cons p ps gap rest hgap hne hrest =>
    have hfirst : ReadsAs p.render p := reads_of_written (written_render p hps.1) hps.1
    have hothers : ReadsAfter rest ps :=
      readsAfter_of_written (written_of_renderedAfter hrest hps.2) hps.2
    exact fills hgap hne hfirst hothers hafter

/-! ### Queries -/

section Calls

variable (form : Form) {arguments : List Predicate} {before text after : List Char}

/-- The text of a form with canonical arguments is read into that form, whether or not the arguments
suit it. -/
theorem parseChars_call (harguments : AllArguments arguments) (hbefore : Blanks before)
    (htext : RenderedAfter arguments text) (hafter : Blanks after) :
    let cs := '(' :: before ++ form.name.toList ++ text ++ after ++ [')']
    ∃ e, e.Applies form arguments 0 ∧ parseChars cs = build cs e := by
  intro cs
  have hnone : Blanks [] := by decide
  have hfills := fills_of_renderedAfter htext harguments hafter
  have hsplit : cs =
      [] ++ '(' :: (before ++ (form.name.toList ++ (text ++ after ++ ')' :: []))) := by simp [cs]
  rw [hsplit]
  exact parseChars_form form hnone hbefore hfills hnone

/-- Where each argument is in its place, the parser answers what the catalog does. What the catalog
refuses, the parser complains about at the parenthesis of the form. -/
theorem parse_fitting (harguments : AllArguments arguments) (hfits : Fits form arguments)
    (hbefore : Blanks before) (htext : RenderedAfter arguments text) (hafter : Blanks after) :
    parse (String.ofList ('(' :: before ++ form.name.toList ++ text ++ after ++ [')'])) =
      (form.construct arguments).mapError fun cause => ⟨⟨1, 1⟩, .misuse cause⟩ := by
  obtain ⟨e, he, hparse⟩ := parseChars_call form harguments hbefore htext hafter
  rw [parse, String.toList_ofList, hparse, he.build_fitting hfits]
  cases form.construct arguments <;> rfl

/-- The catalog and the parser agree on every form and all arguments that can be written: of the
arguments the catalog builds what the parser reads the text of the form into, and where the one
fails the other does. -/
theorem construct_iff_parse (harguments : AllArguments arguments) (hbefore : Blanks before)
    (htext : RenderedAfter arguments text) (hafter : Blanks after) :
    let query := String.ofList ('(' :: before ++ form.name.toList ++ text ++ after ++ [')'])
    (∀ p, form.construct arguments = .ok p ↔ parse query = .ok p) ∧
      ((∃ cause, form.construct arguments = .error cause) ↔ ∃ f, parse query = .error f) := by
  intro query
  have hagree (p : Predicate) : form.construct arguments = .ok p ↔ parse query = .ok p := by
    constructor
    · intro hp
      have hfits : Fits form arguments := fits_of_construct hp
      rw [parse_fitting form harguments hfits hbefore htext hafter, hp]
      rfl
    · intro hp
      obtain ⟨e, he, hparse⟩ := parseChars_call form harguments hbefore htext hafter
      rw [parse_eq_ok, String.toList_ofList, hparse] at hp
      exact he.construct_of_build hp
  exact ⟨hagree, Except.error_iff_error hagree⟩

end Calls

/-- The same two arguments make up an alternative and are one too many for a negation. -/
theorem construct_iff_parse_quoted :
    let p : Predicate := .equal (.attr "author") (.literal (.text "a\"b"))
    let arguments : List Predicate := [p, .literal (.number (-7))]
    let text := " (equal $author \"a\\\"b\")\t -7".toList
    AllArguments arguments ∧ RenderedAfter arguments text ∧
      parse "( or (equal $author \"a\\\"b\")\t -7\n)" = .ok (.or arguments) ∧
      ∃ f, parse "( not (equal $author \"a\\\"b\")\t -7\n)" = .error f := by
  intro p arguments text
  have hname : Predicate.IsAttributeName "author" :=
    ⟨by decide, by decide, by decide, by decide⟩
  have harguments : AllArguments arguments := ⟨⟨hname, .inr rfl⟩, .inl rfl, trivial⟩
  have hspace : Blanks [' '] := by decide
  have htab : Blanks ['\t', ' '] := by decide
  have hnewline : Blanks ['\n'] := by decide
  have htext : RenderedAfter arguments text :=
    .cons hspace (by decide) (.cons htab (by decide) .nil)
  obtain ⟨hor, -⟩ := construct_iff_parse .or harguments hspace htext hnewline
  obtain ⟨-, hnot⟩ := construct_iff_parse .not harguments hspace htext hnewline
  exact ⟨harguments, htext, (hor (.or arguments)).1 rfl, hnot.1 ⟨_, rfl⟩⟩

end Query

end Colloquy
