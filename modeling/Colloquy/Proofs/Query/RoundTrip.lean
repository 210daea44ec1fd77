import Colloquy.Proofs.Query.Layout

/-!
Canonical text reads back. It is one of the texts that a predicate may be written as: a blank before
every argument, texts between quotes and numbers without zeros in front.
-/

namespace Colloquy.Query
open Predicate (IsForm IsArgument IsAttributeName AllArguments WellFormed)

theorem escapes_escape (cs : List Char) : Escapes cs (Text.escape cs) := by
  induction cs with
  | nil => exact .nil
  | cons c cs ih =>
    rw [Text.escape]
    split
    · exact .escaped c ih
    · rename_i hc
      obtain ⟨hquote, hslash⟩ := not_or.1 hc
      exact .plain hquote hslash ih

theorem padded_zero (m : Nat) : Decimal.padded 0 m = Decimal.ofNat m := by
  rw [Decimal.padded, Nat.zero_sub]
  rfl

theorem spellsNumber_ofInt (n : Int64) : SpellsNumber n (Decimal.ofInt n.toInt) := by
  cases hn : n.toInt with
  | ofNat m =>
    have hplain : SpellsNumber n (Decimal.padded 0 m) := .plain 0 hn
    rw [padded_zero] at hplain
    exact hplain
  | negSucc m =>
    have hminus : SpellsNumber n ('-' :: Decimal.padded 0 (m + 1)) := .minus 0 hn
    rw [padded_zero] at hminus
    exact hminus

theorem renderAll_single (a : Predicate) : Predicate.renderAll [a] = ' ' :: a.render :=
  List.append_nil _

theorem renderAll_pair (a b : Predicate) :
    Predicate.renderAll [a, b] = ' ' :: a.render ++ ' ' :: b.render :=
  congrArg (fun cs => ' ' :: a.render ++ cs) (renderAll_single b)

theorem render_parts {p : Predicate} {form : Form} {ps : List Predicate}
    (h : parts? p = some (form, ps)) (hp : p.IsArgument) :
    p.render = Predicate.form form.name (Predicate.renderAll ps) := by
  cases p
  all_goals simp only [parts?, Option.some.injEq, Prod.mk.injEq, reduceCtorEq] at h
  all_goals obtain ⟨rfl, rfl⟩ := h
  case limit n =>
    have hcount : (Value.number n.toInt64).display = Decimal.ofNat n.toNat := by
      rw [Value.display, Decimal.toInt_toInt64 (Predicate.isArgument_limit.1 hp),
        Decimal.ofInt_natCast]
    rw [renderAll_single]
    exact congrArg (fun cs => Predicate.form "limit" (' ' :: cs)) hcount.symm
  case not child => exact congrArg (Predicate.form "not") (renderAll_single child).symm
  case and | or => rfl
  all_goals exact congrArg (Predicate.form _) (renderAll_pair _ _).symm

theorem written_parts {p q : Predicate} {form : Form} {qs : List Predicate}
    (h : parts? p = some (form, q :: qs)) (hp : p.IsArgument) (hq : Written q q.render)
    (hqs : WrittenAfter qs (Predicate.renderAll qs)) : Written p p.render := by
  have hnone : Blanks [] := by decide
  have hspace : Blanks [' '] := by decide
  have hwritten := Written.form h hnone hspace (by decide) hq hqs hnone
  have htext : p.render = '(' :: [] ++ form.name.toList ++ [' '] ++ q.render ++
      Predicate.renderAll qs ++ [] ++ [')'] := by
    simp [render_parts h hp, Predicate.form, Predicate.renderAll]
  rw [htext]
  exact hwritten

theorem separates_space : Separates [' '] := .blanks (by decide) (by decide)

theorem writtenAfter_single {q : Predicate} (hq : Written q q.render) :
    WrittenAfter [q] (Predicate.renderAll [q]) := .cons separates_space hq .nil

theorem written_pair {p a b : Predicate} {form : Form} (h : parts? p = some (form, [a, b]))
    (hp : p.IsArgument) (ha : Written a a.render) (hb : Written b b.render) :
    Written p p.render := written_parts h hp ha (writtenAfter_single hb)

mutual
/-- Canonical text is a layout. -/
theorem written_render : ∀ p : Predicate, p.IsArgument → Written p p.render
  | .always, hp => hp.elim
  | .literal (.number n), _ => .literalNumber (spellsNumber_ofInt n)
  | .literal (.text t), _ => .quoted (escapes_escape t.toList)
  | .literal (.boolean _), hp | .literal (.time _), hp => by simp [IsArgument, Value.kind] at hp
  | .literal (.list _), hp | .literal .absent, hp => by simp [IsArgument, Value.kind] at hp
  | .position, _ => .position
  | .now, _ => .now
  | .number, _ => .number
  | .attr name, _ => .attr name
  | .equal a b, hp => written_pair rfl hp (written_render a hp.1) (written_render b hp.2)
  | .keywords a b, hp => written_pair rfl hp (written_render a hp.1) (written_render b hp.2)
  | .greater a b, hp => written_pair rfl hp (written_render a hp.1) (written_render b hp.2)
  | .less a b, hp => written_pair rfl hp (written_render a hp.1) (written_render b hp.2)
  | .contains a b, hp => written_pair rfl hp (written_render a hp.1) (written_render b hp.2)
  | .and [], hp => absurd rfl hp.1
  | .and (q :: qs), hp =>
    written_parts rfl hp (written_render q hp.2.1) (writtenAfter_renderAll qs hp.2.2)
  | .or [], hp => absurd rfl hp.1
  | .or (q :: qs), hp =>
    written_parts rfl hp (written_render q hp.2.1) (writtenAfter_renderAll qs hp.2.2)
  | .not child, hp => written_parts rfl hp (written_render child hp) .nil
  | .limit n, hp => written_parts rfl hp (.literalNumber (spellsNumber_ofInt n.toInt64)) .nil
theorem writtenAfter_renderAll :
    ∀ ps : List Predicate, AllArguments ps → WrittenAfter ps (Predicate.renderAll ps)
  | [], _ => .nil
  | p :: ps, hps =>
    .cons separates_space (written_render p hps.1) (writtenAfter_renderAll ps hps.2)
end

/-! ### Queries -/

theorem parseChars_render {p : Predicate} (h : p.WellFormed) : parseChars p.render = .ok p := by
  rcases h with rfl | ⟨hform, hp⟩
  · rfl
  · have hnone : Blanks [] := by decide
    have hparse := parseChars_written hform hp hnone hnone (written_render p hp)
    rw [List.nil_append, List.append_nil] at hparse
    exact hparse

/-- The trees of queries are the well-formed ones, and these are exactly the trees whose canonical
text reads back as the tree. -/
theorem parse_text_iff_wellFormed (p : Predicate) :
    ((∃ query, parse query = .ok p) ↔ p.WellFormed) ∧ (parse p.text = .ok p ↔ p.WellFormed) := by
  have hsound (query : String) (h : parse query = .ok p) : p.WellFormed :=
    parseChars_wellFormed (parse_eq_ok.1 h)
  have hcomplete (h : p.WellFormed) : parse p.text = .ok p := by
    rw [parse_eq_ok, Predicate.text, String.toList_ofList]
    exact parseChars_render h
  exact ⟨⟨fun ⟨query, h⟩ => hsound query h, fun h => ⟨p.text, hcomplete h⟩⟩,
    ⟨hsound p.text, hcomplete⟩⟩

end Colloquy.Query
