import Colloquy.Json
import Colloquy.Proofs.Json.Token
import Mathlib.Data.List.Forall2

/-!
A text is written for a tree where its tokens put that tree in place, in whatever containers are
open.
-/

namespace Colloquy.Json
open Progress

/-- The tokens put a tree where a value is due, also where the end of an array could stand. -/
def Builds (ts : List Token) (j : Json) : Prop :=
  ∃ t after, ts = t :: after ∧ t ≠ .endArray ∧ ∀ outer rest,
    (takeValue outer t).bind (takeAll · (after ++ rest)) = (place j outer).bind (takeAll · rest)

theorem takeAll_value {ts : List Token} {j : Json} (h : Builds ts j) (outer : List Container)
    (rest : List Token) :
    takeAll (.unfinished .value outer) (ts ++ rest) = (place j outer).bind (takeAll · rest) := by
  obtain ⟨t, after, rfl, -, hbuild⟩ := h
  rw [List.cons_append, takeAll, take?]
  exact hbuild outer rest

theorem takeAll_valueOrEnd {ts : List Token} {j : Json} (h : Builds ts j)
    (outer : List Container) (rest : List Token) :
    takeAll (.unfinished .valueOrEnd outer) (ts ++ rest) =
      (place j outer).bind (takeAll · rest) := by
  obtain ⟨t, after, rfl, hend, hbuild⟩ := h
  have htake : take? (.unfinished .valueOrEnd outer) t = takeValue outer t := by
    rw [take?]
    exact fun _ he _ => hend he
  rw [List.cons_append, takeAll, htake]
  exact hbuild outer rest

/-- The tokens after an item or a field of a container that bring it from one state to another. -/
def Adds (ts : List Token) (c c' : Container) : Prop :=
  ∀ outer rest, takeAll (.unfinished .commaOrEnd (c :: outer)) (ts ++ rest) =
    takeAll (.unfinished .commaOrEnd (c' :: outer)) rest

theorem adds_append {ts₁ ts₂ : List Token} {c₁ c₂ c₃ : Container} (h₁ : Adds ts₁ c₁ c₂)
    (h₂ : Adds ts₂ c₂ c₃) : Adds (ts₁ ++ ts₂) c₁ c₃ := by
  intro outer rest
  rw [List.append_assoc, h₁, h₂]

theorem adds_item {ts : List Token} {j : Json} (h : Builds ts j) (done : List Json) :
    Adds (.comma :: ts) (.array done) (.array (j :: done)) := by
  intro outer rest
  exact takeAll_value h (.array done :: outer) rest

theorem adds_field {ts : List Token} {j : Json} (h : Builds ts j)
    (done : List (List UInt8 × Json)) (name : List UInt8) :
    Adds (.comma :: .string name :: .colon :: ts) (.object done)
      (.object ((name, j) :: done)) := by
  intro outer rest
  exact takeAll_value h (.field done name :: outer) rest

/-- A text is written for a tree: its tokens are found whatever follows, and they build the tree. -/
def Writes (text : List Char) (j : Json) : Prop :=
  ∃ ts, Spells (Utf8.encode text) ts ∧ Builds ts j

theorem writes_scalar {text : List Char} {t : Token} {j : Json}
    (hspells : Spells (Utf8.encode text) [t]) (hscalar : scalar? t = some j) : Writes text j := by
  refine ⟨[t], hspells, t, [], rfl, ?_, ?_⟩
  · rintro rfl
    cases hscalar
  · intro outer rest
    cases t with
    | null | boolean | number | string =>
      cases hscalar
      rfl
    | _ => cases hscalar

/-- The tree of a text in quotes. -/
def ofText (cs : List Char) : Json := .string (Utf8.encode (cs.flatMap escapeChar))

/-- The tree of a whole number. -/
def ofInt (n : Int) : Json := .number (Utf8.encode (Decimal.ofInt n))

theorem writes_quote (cs : List Char) : Writes (quote cs) (ofText cs) :=
  writes_scalar (spells_string cs) rfl

theorem writes_ofInt (n : Int) : Writes (Decimal.ofInt n) (ofInt n) :=
  writes_scalar (spells_ofInt n) rfl

theorem text_ofText (cs : List Char) : (ofText cs).text? = some cs := unquote_escape cs

theorem integer_ofInt (n : Int) : (ofInt n).integer? = some n := by
  have hchars : ∀ c ∈ Decimal.ofInt n, c.toNat ≤ 0x7f := by
    intro c hc
    cases n with
    | ofNat m => exact (isDigit_byte (Decimal.isDigit_of_mem_ofNat hc)).2
    | negSucc m =>
      rcases List.mem_cons.1 hc with rfl | hc
      · decide
      · exact (isDigit_byte (Decimal.isDigit_of_mem_ofNat hc)).2
  have hascii : ascii (Utf8.encode (Decimal.ofInt n)) = Decimal.ofInt n := by
    rw [encode_eq_map_byte hchars]
    exact ascii_map_byte hchars
  have hread := Decimal.readInt_ofInt n
  -- A minus sign before zero makes no whole number, and is never written.
  have hzero : Utf8.encode (Decimal.ofInt n) ≠ bytes "-0" := by
    intro he
    have hminus : Decimal.ofInt n = ['-', '0'] := by
      rw [← hascii, he]
      decide
    rw [hminus] at hread
    have hn : n = 0 := (Option.some.inj hread).symm
    rw [hn] at hminus
    exact absurd hminus (by decide)
  rw [ofInt, integer?, if_neg hzero, hascii]
  exact hread

theorem intercalate_cons (x : List Char) (xs : List (List Char)) :
    List.intercalate [','] (x :: xs) = x ++ xs.flatMap (',' :: ·) := by
  induction xs generalizing x with
  | nil => simp [List.intercalate]
  | cons y ys ih =>
    rw [List.intercalate, List.intersperse_cons_cons, List.flatten_cons, List.flatten_cons,
      ← List.intercalate, ih y, List.flatMap_cons]
    rfl

theorem endsNumber_more (xs : List (List Char)) (rest : List UInt8) (hrest : EndsNumber rest) :
    EndsNumber (Utf8.encode (xs.flatMap (',' :: ·)) ++ rest) := by
  cases xs with
  | nil => exact hrest
  | cons x xs =>
    rw [List.flatMap_cons, List.cons_append, encode_ascii (by decide), List.cons_append]
    exact endsNumber_punctuation (t := .comma) (by decide) _

theorem spells_more {x : List Char} {xs : List (List Char)} {ts more : List Token}
    (hx : Spells (Utf8.encode x) ts) (hxs : Spells (Utf8.encode (xs.flatMap (',' :: ·))) more) :
    Spells (Utf8.encode ((x :: xs).flatMap (',' :: ·))) ((.comma :: ts) ++ more) := by
  rw [List.flatMap_cons, List.cons_append, encode_ascii (by decide), Utf8.encode_append,
    List.cons_append]
  exact spells_punctuation (by decide) (spells_append hx (endsNumber_more xs) hxs)

theorem spells_brackets {opening closing : Char} {before after : Token} {x : List Char}
    {xs : List (List Char)} {ts more : List Token}
    (hopen : opening.toNat ≤ 0x7f) (hclose : closing.toNat ≤ 0x7f)
    (hbefore : punctuation? (.ofNat opening.toNat) = some before)
    (hafter : punctuation? (.ofNat closing.toNat) = some after)
    (hx : Spells (Utf8.encode x) ts) (hxs : Spells (Utf8.encode (xs.flatMap (',' :: ·))) more) :
    Spells (Utf8.encode (brackets opening closing (x :: xs)))
      (before :: (ts ++ (more ++ [after]))) := by
  have hlast : Spells (Utf8.encode [closing]) [after] := by
    rw [encode_ascii hclose]
    exact spells_punctuation hafter spells_nil
  have hends (rest : List UInt8) (_ : EndsNumber rest) :
      EndsNumber (Utf8.encode [closing] ++ rest) := by
    rw [encode_ascii hclose]
    exact endsNumber_punctuation hafter _
  rw [brackets, intercalate_cons, List.cons_append, List.append_assoc, encode_ascii hopen,
    Utf8.encode_append, Utf8.encode_append]
  refine spells_punctuation hbefore (spells_append hx ?_ (spells_append hxs hends hlast))
  intro rest hrest
  rw [List.append_assoc]
  exact endsNumber_more xs _ (hends rest hrest)

theorem writes_more_items {items : List (List Char)} {js : List Json}
    (h : List.Forall₂ Writes items js) : ∃ ts,
      Spells (Utf8.encode (items.flatMap (',' :: ·))) ts ∧
        ∀ done, Adds ts (.array done) (.array (js.reverse ++ done)) := by
  induction h with
  | nil => exact ⟨[], spells_nil, fun done outer rest => rfl⟩
  | cons hitem _ ih =>
    obtain ⟨ts, hspells, hbuilds⟩ := hitem
    obtain ⟨more, hmore, hadds⟩ := ih
    refine ⟨_, spells_more hspells hmore, fun done => ?_⟩
    rw [List.reverse_cons, List.append_assoc]
    exact adds_append (adds_item hbuilds done) (hadds _)

theorem writes_array {items : List (List Char)} {js : List Json}
    (h : List.Forall₂ Writes items js) : Writes (brackets '[' ']' items) (.array js) := by
  cases h with
  | nil =>
    refine ⟨[.beginArray, .endArray], ?_, .beginArray, [.endArray], rfl, by simp, ?_⟩
    · exact spells_punctuation (by decide) (spells_punctuation (by decide) spells_nil)
    · exact fun outer rest => rfl
  | cons hitem hitems =>
    rename_i item j items js
    obtain ⟨ts, hspells, hbuilds⟩ := hitem
    obtain ⟨more, hmore, hadds⟩ := writes_more_items hitems
    have hopen : punctuation? (.ofNat '['.toNat) = some .beginArray := by decide
    have hclose : punctuation? (.ofNat ']'.toNat) = some .endArray := by decide
    refine ⟨_, spells_brackets (by decide) (by decide) hopen hclose hspells hmore,
      .beginArray, _, rfl, by simp, fun outer rest => ?_⟩
    -- The first item, the items after commas, the closing bracket.
    calc takeAll (.unfinished .valueOrEnd (.array [] :: outer))
          (ts ++ (more ++ [.endArray]) ++ rest)
        = takeAll (.unfinished .commaOrEnd (.array [j] :: outer)) (more ++ .endArray :: rest) := by
          rw [List.append_assoc, takeAll_valueOrEnd hbuilds, List.append_assoc]
          rfl
      _ = takeAll (.unfinished .commaOrEnd (.array (js.reverse ++ [j]) :: outer))
            (.endArray :: rest) := hadds [j] outer _
      _ = (place (.array (j :: js)) outer).bind (takeAll · rest) := by
          rw [takeAll, take?, List.reverse_append, List.reverse_reverse]
          rfl

/-- A text is written for a field of an object. -/
def WritesField (text : List Char) (f : List UInt8 × Json) : Prop :=
  ∃ name value, text = quote name ++ ':' :: value ∧
    f.1 = Utf8.encode (name.flatMap escapeChar) ∧ Writes value f.2

theorem spells_field {name value : List Char} {ts : List Token}
    (hvalue : Spells (Utf8.encode value) ts) :
    Spells (Utf8.encode (quote name ++ ':' :: value))
      (.string (Utf8.encode (name.flatMap escapeChar)) :: .colon :: ts) := by
  have hcolon : Spells (Utf8.encode (':' :: value)) (.colon :: ts) := by
    rw [encode_ascii (by decide)]
    exact spells_punctuation (by decide) hvalue
  rw [Utf8.encode_append]
  refine spells_append (spells_string name) (fun rest _ => ?_) hcolon
  rw [encode_ascii (by decide)]
  exact endsNumber_punctuation (t := .colon) (by decide) _

theorem writes_more_fields {texts : List (List Char)} {fields : List (List UInt8 × Json)}
    (h : List.Forall₂ WritesField texts fields) : ∃ ts,
      Spells (Utf8.encode (texts.flatMap (',' :: ·))) ts ∧
        ∀ done, Adds ts (.object done) (.object (fields.reverse ++ done)) := by
  induction h with
  | nil => exact ⟨[], spells_nil, fun done outer rest => rfl⟩
  | cons hfield _ ih =>
    rename_i text f texts fields _
    obtain ⟨name, value, rfl, hname, ts, hspells, hbuilds⟩ := hfield
    obtain ⟨more, hmore, hadds⟩ := ih
    refine ⟨_, spells_more (spells_field hspells) hmore, fun done => ?_⟩
    rw [List.reverse_cons, List.append_assoc]
    have hf : f = (Utf8.encode (name.flatMap escapeChar), f.2) := Prod.ext hname rfl
    rw [hf]
    exact adds_append (adds_field hbuilds done _) (hadds _)

theorem writes_object {text : List Char} {f : List UInt8 × Json} {texts : List (List Char)}
    {fields : List (List UInt8 × Json)} (hfield : WritesField text f)
    (hfields : List.Forall₂ WritesField texts fields) :
    Writes (brackets '{' '}' (text :: texts)) (.object (f :: fields)) := by
  obtain ⟨name, value, rfl, hname, ts, hspells, hbuilds⟩ := hfield
  obtain ⟨more, hmore, hadds⟩ := writes_more_fields hfields
  have hf : f = (Utf8.encode (name.flatMap escapeChar), f.2) := Prod.ext hname rfl
  have hopen : punctuation? (.ofNat '{'.toNat) = some .beginObject := by decide
  have hclose : punctuation? (.ofNat '}'.toNat) = some .endObject := by decide
  refine ⟨_, spells_brackets (by decide) (by decide) hopen hclose (spells_field hspells) hmore,
    .beginObject, _, rfl, by simp, fun outer rest => ?_⟩
  calc takeAll (.unfinished .nameOrEnd (.object [] :: outer))
        (.string (Utf8.encode (name.flatMap escapeChar)) :: .colon :: ts ++
          (more ++ [.endObject]) ++ rest)
      = takeAll (.unfinished .value (.field [] (Utf8.encode (name.flatMap escapeChar)) :: outer))
          (ts ++ (more ++ .endObject :: rest)) := by
        rw [List.append_assoc, List.append_assoc]
        rfl
    _ = takeAll (.unfinished .commaOrEnd (.object [f] :: outer)) (more ++ .endObject :: rest) := by
        rw [takeAll_value hbuilds, hf]
        rfl
    _ = takeAll (.unfinished .commaOrEnd (.object (fields.reverse ++ [f]) :: outer))
          (.endObject :: rest) := hadds [f] outer _
    _ = (place (.object (f :: fields)) outer).bind (takeAll · rest) := by
        rw [takeAll, take?, List.reverse_append, List.reverse_reverse]
        rfl

/-- What is written for a tree reads back as the tree. -/
theorem read_of_writes {text : List Char} {j : Json} (h : Writes text j) :
    read (Utf8.encode text) = some j := by
  obtain ⟨ts, hspells, hbuilds⟩ := h
  have htokens : tokens (Utf8.encode text) = some ts := by
    have h := hspells [] endsNumber_nil
    rw [List.append_nil] at h
    rw [h, tokens]
    simp
  have htree := takeAll_value hbuilds [] []
  rw [List.append_nil] at htree
  rw [read, htokens, Option.bind_some, htree]
  rfl

end Colloquy.Json
