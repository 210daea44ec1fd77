import Colloquy.Proofs.Engine
import Mathlib.Data.List.Nodup

/-!
A tree that was handed out stays the tree of its query until the cache is cleared, by a query that
parses and is not in it, when it is full.
-/

namespace Colloquy

namespace ParseCache
variable {c : ParseCache} {query other : String} {parsed later : Parsed}

/-! ## One call -/

/-- The query parses and is not among the trees, of which there are as many as may be kept. -/
def Clears (c : ParseCache) (query : String) : Prop :=
  (∃ tree, Query.parse query = .ok tree) ∧ c.find? query = none ∧ c.entries.length = c.limit

/-- There are not too many trees, and each has a number of its own that was given out before. -/
structure Orderly (c : ParseCache) : Prop where
  bounded : c.entries.length ≤ c.limit
  serials : c.entries.Pairwise fun a b => a.2.serial ≠ b.2.serial
  below : ∀ entry ∈ c.entries, entry.2.serial < c.next

/-- A call finds the tree, fails, or puts in a new one. -/
theorem parse_cases (c : ParseCache) (query : String) :
    (∃ parsed, c.find? query = some parsed ∧ c.parse query = (.ok parsed, c)) ∨
      (∃ failure, Query.parse query = .error failure ∧
        c.parse query = (.error (.query failure), c)) ∨
      ∃ tree, c.find? query = none ∧ Query.parse query = .ok tree ∧
        c.parse query = (.ok ⟨tree, c.next⟩, c.insert query tree) := by
  unfold parse
  split
  · exact .inl ⟨_, ‹_›, rfl⟩
  · split
    · exact .inr (.inl ⟨_, ‹_›, rfl⟩)
    · exact .inr (.inr ⟨_, ‹_›, ‹_›, rfl⟩)

theorem tree_of_parse (hc : c.Faithful) (query : String) :
    (c.parse query).1.map Parsed.tree = (Query.parse query).mapError .query := by
  rcases (parse_faithful hc query).2 with ⟨failure, hfailure, hparse⟩ | ⟨parsed, htree, hparse⟩
  · rw [hparse, hfailure]
    rfl
  · rw [hparse, htree]
    rfl

theorem parse_of_failure (c : ParseCache) {failure : Query.Failure}
    (h : Query.parse query = .error failure) : (c.parse query).2 = c := by
  rcases parse_cases c query with ⟨_, -, hparse⟩ | ⟨_, -, hparse⟩ | ⟨_, -, htree, -⟩
  · rw [hparse]
  · rw [hparse]
  · rw [h] at htree
    cases htree

theorem mem_of_find? (h : c.find? query = some parsed) : (query, parsed) ∈ c.entries := by
  obtain ⟨entry, hentry, rfl⟩ := Option.map_eq_some_iff.1 h
  have hkey : entry.1 = query := by simpa using List.find?_some hentry
  exact hkey ▸ List.mem_of_find?_eq_some hentry

theorem key_ne_of_find? (h : c.find? query = none) : ∀ entry ∈ c.entries, entry.1 ≠ query := by
  intro entry hentry hkey
  have hmissing := List.find?_eq_none.1 (Option.map_eq_none_iff.1 h) entry hentry
  exact hmissing (decide_eq_true hkey)

/-- What is kept beside a new tree: everything or, where the cache is full, nothing. -/
def kept (c : ParseCache) : List (String × Parsed) :=
  if c.entries.length = c.limit then [] else c.entries

theorem kept_sublist (c : ParseCache) : c.kept.Sublist c.entries := by
  unfold kept
  split
  · exact List.nil_sublist c.entries
  · exact List.Sublist.refl c.entries

theorem entries_insert (hc : c.Orderly) (hnew : c.find? query = none) (tree : Predicate) :
    (c.insert query tree).entries =
      if c.limit = 0 then c.kept else (query, ⟨tree, c.next⟩) :: c.kept := by
  have hall : (c.entries.filter fun entry => entry.1 ≠ query) = c.entries := by
    refine List.filter_eq_self.2 fun entry hentry => ?_
    exact decide_eq_true (key_ne_of_find? hnew entry hentry)
  have hfull : c.limit ≤ c.entries.length ↔ c.entries.length = c.limit := by
    have hbounded := hc.bounded
    omega
  simp only [insert, kept, hall, hfull]

/-- A new tree that does not clear comes on top of all others. -/
theorem entries_insert_of_not_clears (hc : c.Orderly) (hnew : c.find? query = none)
    {tree : Predicate} (htree : Query.parse query = .ok tree) (h : ¬ c.Clears query) :
    (c.insert query tree).entries = (query, ⟨tree, c.next⟩) :: c.entries := by
  have hroom : c.entries.length ≠ c.limit := fun hfull => h ⟨⟨tree, htree⟩, hnew, hfull⟩
  have hbounded := hc.bounded
  have hlimit : c.limit ≠ 0 := by omega
  rw [entries_insert hc hnew, if_neg hlimit, kept, if_neg hroom]

theorem length_kept (hc : c.Orderly) : c.kept.length ≤ c.limit - 1 := by
  have hbounded := hc.bounded
  unfold kept
  split
  · exact Nat.zero_le _
  · omega

theorem insert_orderly (hc : c.Orderly) (hnew : c.find? query = none) (tree : Predicate) :
    (c.insert query tree).Orderly := by
  have hlength := length_kept hc
  have hserials := hc.serials.sublist c.kept_sublist
  have hbelow : ∀ entry ∈ c.kept, entry.2.serial < c.next :=
    fun entry hentry => hc.below entry (c.kept_sublist.subset hentry)
  have hentries := entries_insert hc hnew tree
  -- the new tree has the first number that no tree has
  by_cases hlimit : c.limit = 0
  · rw [if_pos hlimit] at hentries
    refine ⟨?_, hentries ▸ hserials, fun entry hentry => ?_⟩
    · rw [hentries]
      exact Nat.le_trans hlength (Nat.sub_le _ _)
    · rw [hentries] at hentry
      exact Nat.lt_succ_of_lt (hbelow entry hentry)
  · rw [if_neg hlimit] at hentries
    refine ⟨?_, ?_, fun entry hentry => ?_⟩
    · rw [hentries, List.length_cons]
      exact Nat.le_sub_one_iff_lt (Nat.pos_of_ne_zero hlimit) |>.1 hlength
    · rw [hentries]
      exact List.pairwise_cons.2 ⟨fun entry hentry => Nat.ne_of_gt (hbelow entry hentry), hserials⟩
    · rw [hentries] at hentry
      rcases List.mem_cons.1 hentry with rfl | hentry
      · exact Nat.lt_succ_self c.next
      · exact Nat.lt_succ_of_lt (hbelow entry hentry)

theorem parse_orderly (hc : c.Orderly) (query : String) : (c.parse query).2.Orderly := by
  rcases parse_cases c query with ⟨_, -, h⟩ | ⟨_, -, h⟩ | ⟨tree, hnew, -, h⟩ <;> rw [h]
  · exact hc
  · exact hc
  · exact insert_orderly hc hnew tree

theorem next_le_parse (c : ParseCache) (query : String) : c.next ≤ (c.parse query).2.next := by
  rcases parse_cases c query with ⟨_, -, h⟩ | ⟨_, -, h⟩ | ⟨_, -, -, h⟩
  · exact Nat.le_of_eq (congrArg (fun r => r.2.next) h).symm
  · exact Nat.le_of_eq (congrArg (fun r => r.2.next) h).symm
  · have hnext : (c.parse query).2.next = c.next + 1 := congrArg (fun r => r.2.next) h
    omega

theorem limit_parse (c : ParseCache) (query : String) : (c.parse query).2.limit = c.limit := by
  rcases parse_cases c query with ⟨_, -, h⟩ | ⟨_, -, h⟩ | ⟨_, -, -, h⟩ <;> rw [h]
  rfl

/-- After a call that clears, there is at most the tree of its query. -/
theorem entries_of_clears (hc : c.Orderly) (h : c.Clears query) :
    ∀ entry ∈ (c.parse query).2.entries, entry.1 = query ∧ (c.parse query).1 = .ok entry.2 := by
  obtain ⟨⟨tree, htree⟩, hnew, hfull⟩ := h
  have hparse : c.parse query = (.ok ⟨tree, c.next⟩, c.insert query tree) := by
    rw [parse, hnew, htree]
  have hempty : c.kept = [] := if_pos hfull
  intro entry hentry
  rw [hparse, entries_insert hc hnew, hempty] at hentry
  split at hentry
  · cases hentry
  · obtain rfl := List.mem_singleton.1 hentry
    exact ⟨rfl, by rw [hparse]⟩

/-- After any other call, nothing is missing. -/
theorem entries_of_not_clears (hc : c.Orderly) (h : ¬ c.Clears query) :
    ∀ entry ∈ c.entries, entry ∈ (c.parse query).2.entries := by
  intro entry hentry
  rcases parse_cases c query with ⟨_, -, hparse⟩ | ⟨_, -, hparse⟩ | ⟨tree, hnew, htree, hparse⟩ <;>
    rw [hparse]
  · exact hentry
  · exact hentry
  · rw [entries_insert_of_not_clears hc hnew htree h]
    exact List.mem_cons_of_mem _ hentry

/-- A tree that was not found is new. -/
theorem serial_of_missing (hnew : c.find? query = none) (h : (c.parse query).1 = .ok parsed) :
    parsed.serial = c.next := by
  rcases parse_cases c query with ⟨_, hfound, -⟩ | ⟨_, -, hparse⟩ | ⟨_, -, -, hparse⟩
  · rw [hnew] at hfound
    cases hfound
  · rw [hparse] at h
    cases h
  · rw [hparse] at h
    exact congrArg Parsed.serial (Except.ok.inj h).symm

theorem parse_of_find? (h : c.find? query = some parsed) : c.parse query = (.ok parsed, c) := by
  rw [parse, h]

theorem serial_lt_next (hc : c.Orderly) (h : (c.parse query).1 = .ok parsed) :
    parsed.serial < (c.parse query).2.next := by
  rcases parse_cases c query with ⟨_, hfound, hparse⟩ | ⟨_, -, hparse⟩ | ⟨_, -, -, hparse⟩ <;>
    rw [hparse] at h ⊢
  · obtain rfl := Except.ok.inj h
    exact hc.below _ (mem_of_find? hfound)
  · cases h
  · obtain rfl := Except.ok.inj h
    exact Nat.lt_succ_self c.next

/-! ## What becomes of a tree -/

theorem find?_insert (hc : c.Orderly) (hnew : c.find? query = none) (hlimit : c.limit ≠ 0)
    (tree : Predicate) : (c.insert query tree).find? query = some ⟨tree, c.next⟩ := by
  rw [find?, entries_insert hc hnew, if_neg hlimit, List.find?_cons_of_pos (by simp)]
  rfl

/-- What is handed out is kept, unless nothing ever is. -/
theorem find?_of_parse (hc : c.Orderly) (hlimit : c.limit ≠ 0)
    (h : (c.parse query).1 = .ok parsed) : (c.parse query).2.find? query = some parsed := by
  rcases parse_cases c query with ⟨_, hfound, hparse⟩ | ⟨_, -, hparse⟩ | ⟨tree, hnew, -, hparse⟩ <;>
    rw [hparse] at h ⊢
  · exact Except.ok.inj h ▸ hfound
  · cases h
  · exact Except.ok.inj h ▸ find?_insert hc hnew hlimit tree

theorem find?_parse (hc : c.Orderly) (h : c.find? query = some parsed)
    (hclears : ¬ c.Clears other) : (c.parse other).2.find? query = some parsed := by
  rcases parse_cases c other with ⟨_, -, hparse⟩ | ⟨_, -, hparse⟩ | ⟨tree, hnew, htree, hparse⟩ <;>
    rw [hparse]
  · exact h
  · exact h
  · have hother : other ≠ query := by
      rintro rfl
      rw [hnew] at h
      cases h
    rw [find?, entries_insert_of_not_clears hc hnew htree hclears,
      List.find?_cons_of_neg (by simpa using hother)]
    exact h

/-- The tree was handed out, and it is not kept any more. -/
structure Lost (c : ParseCache) (parsed : Parsed) : Prop where
  below : parsed.serial < c.next
  missing : ∀ entry ∈ c.entries, entry.2.serial ≠ parsed.serial

theorem lost_of_clears (hc : c.Orderly) (hbelow : parsed.serial < c.next) (h : c.Clears query) :
    (c.parse query).2.Lost parsed := by
  refine ⟨Nat.lt_of_lt_of_le hbelow (next_le_parse c query), fun entry hentry => ?_⟩
  have hnew := serial_of_missing h.2.1 (entries_of_clears hc h entry hentry).2
  omega

theorem lost_parse (hc : c.Orderly) (h : c.Lost parsed) (query : String) :
    (c.parse query).2.Lost parsed := by
  by_cases hclears : c.Clears query
  · exact lost_of_clears hc h.below hclears
  refine ⟨Nat.lt_of_lt_of_le h.below (next_le_parse c query), fun entry hentry => ?_⟩
  rcases parse_cases c query with ⟨_, -, hparse⟩ | ⟨_, -, hparse⟩ | ⟨tree, hnew, -, hparse⟩ <;>
    rw [hparse] at hentry
  · exact h.missing entry hentry
  · exact h.missing entry hentry
  · -- what is new has a number that was never given out before
    rw [entries_insert hc hnew] at hentry
    have hbelow := h.below
    have hold : entry ∈ c.kept → entry.2.serial ≠ parsed.serial :=
      fun hentry => h.missing entry (c.kept_sublist.subset hentry)
    split at hentry
    · exact hold hentry
    · rcases List.mem_cons.1 hentry with rfl | hentry
      · exact Nat.ne_of_gt hbelow
      · exact hold hentry

theorem entries_of_limit_zero (hc : c.Orderly) (hlimit : c.limit = 0) : c.entries = [] := by
  refine List.eq_nil_of_length_eq_zero (Nat.le_zero.1 ?_)
  exact hlimit ▸ hc.bounded

theorem entry_unique (hc : c.Orderly) {a b : String × Parsed} (ha : a ∈ c.entries)
    (hb : b ∈ c.entries) (h : a.2.serial = b.2.serial) : a = b := by
  have hserials : (c.entries.map fun entry => entry.2.serial).Nodup :=
    List.pairwise_map.2 hc.serials
  exact List.inj_on_of_nodup_map hserials ha hb h

/-- A tree that is kept answers its own query and no other. -/
theorem serial_eq_iff_of_find? (hc : c.Orderly) (h : c.find? query = some parsed)
    (hlater : (c.parse other).1 = .ok later) : parsed.serial = later.serial ↔ query = other := by
  constructor
  · intro hserial
    cases hfound : c.find? other with
    | none =>
      have hnew := serial_of_missing hfound hlater
      have hbelow : parsed.serial < c.next := hc.below _ (mem_of_find? h)
      omega
    | some found =>
      rw [parse_of_find? hfound] at hlater
      obtain rfl := Except.ok.inj hlater
      have hentry := entry_unique hc (mem_of_find? h) (mem_of_find? hfound) hserial
      exact congrArg Prod.fst hentry
  · rintro rfl
    rw [parse_of_find? h] at hlater
    exact congrArg Parsed.serial (Except.ok.inj hlater)

theorem serial_ne_of_lost (h : c.Lost parsed) (hlater : (c.parse other).1 = .ok later) :
    parsed.serial ≠ later.serial := by
  cases hfound : c.find? other with
  | none =>
    rw [serial_of_missing hfound hlater]
    exact Nat.ne_of_lt h.below
  | some found =>
    rw [parse_of_find? hfound] at hlater
    obtain rfl := Except.ok.inj hlater
    exact Ne.symm (h.missing _ (mem_of_find? hfound))

/-! ## A run of calls -/

/-- The cache before the call in a place of a run. -/
def before (limit : Nat) (queries : List String) (k : Nat) : ParseCache :=
  after limit (queries.take k)

def ClearsAt (limit : Nat) (queries : List String) (k : Nat) : Prop :=
  ∃ query, queries[k]? = some query ∧ (before limit queries k).Clears query

variable {limit : Nat} {queries : List String} {i j k : Nat}

/-- In every place of the run there is a call, or the run is over. -/
theorem before_cases (limit : Nat) (queries : List String) (k : Nat) :
    (∃ query, queries[k]? = some query ∧
      before limit queries (k + 1) = ((before limit queries k).parse query).2) ∨
      queries[k]? = none ∧ before limit queries (k + 1) = before limit queries k := by
  cases hquery : queries[k]? with
  | none =>
    refine .inr ⟨rfl, ?_⟩
    rw [before, before, List.take_add_one, hquery, Option.toList_none, List.append_nil]
  | some query =>
    refine .inl ⟨query, rfl, ?_⟩
    rw [before, before, after, after, List.take_add_one, hquery, List.foldl_append]
    rfl

theorem before_succ (h : queries[k]? = some query) :
    before limit queries (k + 1) = ((before limit queries k).parse query).2 := by
  rcases before_cases limit queries k with ⟨_, hquery, hstep⟩ | ⟨hquery, -⟩ <;> rw [h] at hquery
  · obtain rfl := Option.some.inj hquery
    exact hstep
  · cases hquery

/-- What no call ends stays. -/
theorem before_induction {P : ParseCache → Prop} (hij : i ≤ j)
    (hstep : ∀ k query, i ≤ k → k < j → queries[k]? = some query →
      P (before limit queries k) → P ((before limit queries k).parse query).2)
    (hstart : P (before limit queries i)) : P (before limit queries j) := by
  induction hij with
  | refl => exact hstart
  | @step j hij ih =>
    have hj := ih fun k query hik hkj => hstep k query hik (Nat.lt_succ_of_lt hkj)
    rcases before_cases limit queries j with ⟨query, hquery, hnext⟩ | ⟨-, hnext⟩ <;> rw [hnext]
    · exact hstep j query hij (Nat.lt_succ_self j) hquery hj
    · exact hj

theorem orderly_before (limit : Nat) (queries : List String) (k : Nat) :
    (before limit queries k).Orderly := by
  refine before_induction (Nat.zero_le k) (fun _ query _ _ _ hc => parse_orderly hc query) ?_
  exact ⟨Nat.zero_le limit, List.Pairwise.nil, fun _ hentry => by cases hentry⟩

theorem limit_before (limit : Nat) (queries : List String) (k : Nat) :
    (before limit queries k).limit = limit :=
  before_induction (P := fun c => c.limit = limit) (Nat.zero_le k)
    (fun _ query _ _ _ hc => (limit_parse _ query).trans hc) rfl

theorem next_before (limit : Nat) (queries : List String) (hij : i ≤ j) :
    (before limit queries i).next ≤ (before limit queries j).next :=
  before_induction (P := fun c => (before limit queries i).next ≤ c.next) hij
    (fun _ query _ _ _ hc => Nat.le_trans hc (next_le_parse _ query)) (Nat.le_refl _)

theorem lost_before (hij : i ≤ j) (h : (before limit queries i).Lost parsed) :
    (before limit queries j).Lost parsed :=
  before_induction (P := fun c => c.Lost parsed) hij
    (fun k query _ _ _ hlost => lost_parse (orderly_before limit queries k) hlost query) h

theorem find?_before (hij : i ≤ j)
    (hclears : ∀ k, i ≤ k → k < j → ¬ ClearsAt limit queries k)
    (h : (before limit queries i).find? query = some parsed) :
    (before limit queries j).find? query = some parsed :=
  before_induction (P := fun c => c.find? query = some parsed) hij
    (fun k _ hik hkj hother hfound => find?_parse (orderly_before limit queries k) hfound
      fun hclear => hclears k hik hkj ⟨_, hother, hclear⟩) h

/-- Where nothing is kept, every query that parses clears. -/
theorem clearsAt_of_limit_zero (hlimit : limit = 0) (hquery : queries[k]? = some query)
    (h : ((before limit queries k).parse query).1 = .ok parsed) : ClearsAt limit queries k := by
  have hnone : (before limit queries k).limit = 0 := (limit_before limit queries k).trans hlimit
  have hempty := entries_of_limit_zero (orderly_before limit queries k) hnone
  have hmissing : (before limit queries k).find? query = none := by
    rw [find?, hempty]
    rfl
  refine ⟨query, hquery, ?_, hmissing, by rw [hempty, hnone, List.length_nil]⟩
  rcases parse_cases (before limit queries k) query with
    ⟨_, hfound, -⟩ | ⟨_, -, hparse⟩ | ⟨tree, -, htree, -⟩
  · rw [hmissing] at hfound
    cases hfound
  · rw [hparse] at h
    cases h
  · exact ⟨tree, htree⟩

/-- Two calls share a tree if they have one query and the cache was not cleared after the first, by
the second neither. -/
theorem serial_eq_iff (hij : i < j) (hquery : queries[i]? = some query)
    (hother : queries[j]? = some other)
    (hfirst : ((before limit queries i).parse query).1 = .ok parsed)
    (hlater : ((before limit queries j).parse other).1 = .ok later) :
    parsed.serial = later.serial ↔
      query = other ∧ ∀ k, i < k → k ≤ j → ¬ ClearsAt limit queries k := by
  have hnext : before limit queries (i + 1) = ((before limit queries i).parse query).2 :=
    before_succ hquery
  have hbelow : parsed.serial < (before limit queries (i + 1)).next := by
    rw [hnext]
    exact serial_lt_next (orderly_before limit queries i) hfirst
  by_cases hclears : ∃ k, i < k ∧ k < j ∧ ClearsAt limit queries k
  · -- the tree is lost at the clearing and does not come back
    obtain ⟨k, hik, hkj, hclear⟩ := hclears
    obtain ⟨cleared, hcleared, hclearing⟩ := id hclear
    have hold := Nat.lt_of_lt_of_le hbelow (next_before limit queries hik)
    have hlost : (before limit queries (k + 1)).Lost parsed := by
      rw [before_succ hcleared]
      exact lost_of_clears (orderly_before limit queries k) hold hclearing
    have hne := serial_ne_of_lost (lost_before hkj hlost) hlater
    exact ⟨fun hserial => absurd hserial hne,
      fun hshared => absurd hclear (hshared.2 k hik (Nat.le_of_lt hkj))⟩
  by_cases hlimit : limit = 0
  · -- nothing was kept, and the second call clears
    have hclear := clearsAt_of_limit_zero hlimit hother hlater
    have hlost : (before limit queries (i + 1)).Lost parsed := by
      have hempty := entries_of_limit_zero (orderly_before limit queries (i + 1))
        ((limit_before limit queries (i + 1)).trans hlimit)
      refine ⟨hbelow, fun entry hentry => ?_⟩
      rw [hempty] at hentry
      cases hentry
    have hne := serial_ne_of_lost (lost_before hij hlost) hlater
    exact ⟨fun hserial => absurd hserial hne,
      fun hshared => absurd hclear (hshared.2 j hij (Nat.le_refl j))⟩
  -- the tree is still there when the second call is made
  have hkept : (before limit queries (i + 1)).find? query = some parsed := by
    rw [hnext]
    refine find?_of_parse (orderly_before limit queries i) ?_ hfirst
    rwa [limit_before]
  have hfound := find?_before hij (fun k hik hkj hclear => hclears ⟨k, hik, hkj, hclear⟩) hkept
  rw [serial_eq_iff_of_find? (orderly_before limit queries j) hfound hlater]
  refine ⟨fun hsame => ⟨hsame, fun k hik hkj hclear => ?_⟩, And.left⟩
  rcases Nat.lt_or_eq_of_le hkj with hkj | rfl
  · exact hclears ⟨k, hik, hkj, hclear⟩
  · -- a query that is found does not clear
    obtain ⟨cleared, hcleared, -, hmissing, -⟩ := hclear
    rw [hother] at hcleared
    rw [← Option.some.inj hcleared, ← hsame, hfound] at hmissing
    cases hmissing

end ParseCache

namespace Engine

/-- The engine after queries were parsed one after another. -/
def parseAll (e : Engine) (queries : List String) : Engine :=
  queries.foldl (fun e query => (e.parse query).2) e

theorem parseAll_eq (e : Engine) (queries : List String) :
    e.parseAll queries =
      { e with cache := queries.foldl (fun c query => (c.parse query).2) e.cache } := by
  induction queries generalizing e with
  | nil => rfl
  | cons query rest ih => exact ih (e.parse query).2

/-- The engine before the call in a place of a run of calls that parse queries. -/
def beforeParse (store : Store) (limit : Nat) (queries : List String) (k : Nat) : Engine :=
  parseAll { store, cache := { limit } } (queries.take k)

theorem beforeParse_eq (store : Store) (limit : Nat) (queries : List String) (k : Nat) :
    beforeParse store limit queries k = { store, cache := ParseCache.before limit queries k } :=
  parseAll_eq _ _

/-- Keeping trees is invisible but for what is shared: each call gives what parsing gives. There are
never more trees than the limit, and a call that fails changes nothing. A call that clears leaves at
most its own tree, any other leaves all that were there. Two calls share a tree if and only if they
have one query and no call after the first, up to the second, clears; so with a limit of zero none
ever do. -/
theorem parse_kept_and_bounded (store : Store) (limit : Nat) (queries : List String) :
    let before (k : Nat) := beforeParse store limit queries k
    let clears (k : Nat) := ∃ query, queries[k]? = some query ∧ (before k).cache.Clears query
    (∀ k query, queries[k]? = some query →
      ((before k).parse query).1.map Parsed.tree = (Query.parse query).mapError .query) ∧
    (∀ k, (before k).cache.entries.length ≤ limit) ∧
    (∀ k query failure, queries[k]? = some query → Query.parse query = .error failure →
      before (k + 1) = before k) ∧
    (∀ k query, queries[k]? = some query →
      (clears k → ∀ entry ∈ (before (k + 1)).cache.entries,
        entry.1 = query ∧ ((before k).parse query).1 = .ok entry.2) ∧
      (¬ clears k → ∀ entry ∈ (before k).cache.entries,
        entry ∈ (before (k + 1)).cache.entries)) ∧
    (∀ i j query other first later, i < j → queries[i]? = some query → queries[j]? = some other →
      ((before i).parse query).1 = .ok first → ((before j).parse other).1 = .ok later →
      (first.serial = later.serial ↔ query = other ∧ ∀ k, i < k → k ≤ j → ¬ clears k) ∧
      (limit = 0 → first.serial ≠ later.serial)) := by
  intro before clears
  have hbefore (k : Nat) : before k = { store, cache := ParseCache.before limit queries k } :=
    beforeParse_eq store limit queries k
  have hcache (k : Nat) : (before k).cache = ParseCache.before limit queries k := by
    rw [hbefore]
  have hparse (k : Nat) (query : String) :
      ((before k).parse query).1 = ((ParseCache.before limit queries k).parse query).1 := by
    rw [hbefore]
    rfl
  have hclears (k : Nat) : clears k ↔ ParseCache.ClearsAt limit queries k := by
    simp only [clears, hcache, ParseCache.ClearsAt]
  have horderly := ParseCache.orderly_before limit queries
  refine ⟨fun k query _ => ?_, fun k => ?_, fun k query failure hquery hfailure => ?_,
    fun k query hquery => ⟨fun hclear => ?_, fun hclear => ?_⟩,
    fun i j query other first later hij hquery hother hfirst hlater => ?_⟩
  · rw [hparse]
    exact ParseCache.tree_of_parse (ParseCache.after_faithful limit (queries.take k)) query
  · rw [hcache]
    exact Nat.le_trans (horderly k).bounded
      (Nat.le_of_eq (ParseCache.limit_before limit queries k))
  · rw [hbefore, hbefore, ParseCache.before_succ hquery]
    exact congrArg (Engine.mk store) (ParseCache.parse_of_failure _ hfailure)
  · rw [hcache, ParseCache.before_succ hquery, hparse]
    obtain ⟨cleared, hcleared, hclear⟩ := (hclears k).1 hclear
    rw [hquery] at hcleared
    obtain rfl := Option.some.inj hcleared
    exact ParseCache.entries_of_clears (horderly k) hclear
  · rw [hcache, hcache, ParseCache.before_succ hquery]
    exact ParseCache.entries_of_not_clears (horderly k)
      fun hclear' => hclear ((hclears k).2 ⟨query, hquery, hclear'⟩)
  · rw [hparse] at hfirst hlater
    simp only [hclears]
    have hshared := ParseCache.serial_eq_iff hij hquery hother hfirst hlater
    refine ⟨hshared, fun hlimit hserial => ?_⟩
    exact (hshared.1 hserial).2 j hij (Nat.le_refl j)
      (ParseCache.clearsAt_of_limit_zero hlimit hother hlater)

/-- With room for one tree, the first two of these calls share theirs, and nothing is cleared. The
last has the same query and another tree, so there was a clearing. -/
theorem parse_kept_and_bounded_one :
    let queries := ["", "", " ", ""]
    let before := beforeParse { disk := {}, directory := "idx" } 1 queries
    let clears (k : Nat) := ∃ query, queries[k]? = some query ∧ (before k).cache.Clears query
    ((before 0).parse "").1 = .ok ⟨.always, 0⟩ ∧ ((before 1).parse "").1 = .ok ⟨.always, 0⟩ ∧
      ((before 3).parse "").1 = .ok ⟨.always, 2⟩ ∧
      ¬ clears 1 ∧ ∃ k, 1 < k ∧ k ≤ 3 ∧ clears k := by
  intro queries before clears
  obtain ⟨-, -, -, -, hshared⟩ :=
    parse_kept_and_bounded { disk := {}, directory := "idx" } 1 queries
  have hfirst : ((before 0).parse "").1 = .ok ⟨.always, 0⟩ := rfl
  have hsecond : ((before 1).parse "").1 = .ok ⟨.always, 0⟩ := rfl
  have hlast : ((before 3).parse "").1 = .ok ⟨.always, 2⟩ := rfl
  obtain ⟨hsame, -⟩ := hshared 0 1 "" "" _ _ (by decide) rfl rfl hfirst hsecond
  obtain ⟨hother, -⟩ := hshared 1 3 "" "" _ _ (by decide) rfl rfl hsecond hlast
  refine ⟨hfirst, hsecond, hlast, (hsame.1 rfl).2 1 (by decide) (by decide), ?_⟩
  refine Classical.byContradiction fun hnone => ?_
  have hserial : (0 : Nat) = 2 :=
    hother.2 ⟨rfl, fun k hk hk' hclears => hnone ⟨k, hk, hk', hclears⟩⟩
  cases hserial

end Engine

end Colloquy
