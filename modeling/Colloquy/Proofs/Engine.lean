import Colloquy.Proofs.Predicate

/-!
Calls that evaluate predicates over a store. Each has the outcome that an evaluation against fixed
answers gives, whatever was called before it.
-/

namespace Colloquy

namespace ParseCache

/-- The cache after queries were parsed one after another. -/
def after (limit : Nat) (queries : List String) : ParseCache :=
  queries.foldl (fun c query => (c.parse query).2) { limit }

/-- Every tree that is kept is the tree of its query. -/
def Faithful (c : ParseCache) : Prop := ∀ entry ∈ c.entries, Query.parse entry.1 = .ok entry.2.tree

theorem insert_faithful {c : ParseCache} (h : c.Faithful) {query : String} {tree : Predicate}
    (hparse : Query.parse query = .ok tree) : (c.insert query tree).Faithful := by
  -- a full cache is emptied first, so what is kept was there before
  have hkept : ∀ entry ∈ (if c.limit ≤ c.entries.length then [] else
      c.entries.filter fun entry => entry.1 ≠ query),
      Query.parse entry.1 = .ok entry.2.tree := by
    intro entry hentry
    split at hentry
    · cases hentry
    · exact h entry (List.mem_of_mem_filter hentry)
  intro entry hentry
  simp only [insert] at hentry
  split at hentry
  · exact hkept entry hentry
  · rcases List.mem_cons.1 hentry with rfl | hentry
    · exact hparse
    · exact hkept entry hentry

theorem tree_of_find? {c : ParseCache} (h : c.Faithful) {query : String} {parsed : Parsed}
    (hfound : c.find? query = some parsed) : Query.parse query = .ok parsed.tree := by
  obtain ⟨entry, hentry, rfl⟩ := Option.map_eq_some_iff.1 hfound
  have hquery : entry.1 = query := by simpa using List.find?_some hentry
  rw [← hquery]
  exact h entry (List.mem_of_find?_eq_some hentry)

theorem parse_faithful {c : ParseCache} (h : c.Faithful) (query : String) :
    (c.parse query).2.Faithful ∧
      ((∃ failure, Query.parse query = .error failure ∧
          (c.parse query).1 = .error (.query failure)) ∨
        ∃ parsed, Query.parse query = .ok parsed.tree ∧ (c.parse query).1 = .ok parsed) := by
  unfold parse
  split
  · rename_i parsed hfound
    exact ⟨h, .inr ⟨parsed, tree_of_find? h hfound, rfl⟩⟩
  · cases hparse : Query.parse query with
    | error failure => exact ⟨h, .inl ⟨failure, rfl, rfl⟩⟩
    | ok tree => exact ⟨insert_faithful h hparse, .inr ⟨_, rfl, rfl⟩⟩

theorem after_faithful (limit : Nat) (queries : List String) : (after limit queries).Faithful := by
  have hrun (c : ParseCache) (hc : c.Faithful) :
      (queries.foldl (fun c query => (c.parse query).2) c).Faithful := by
    induction queries generalizing c with
    | nil => exact hc
    | cons query rest ih => exact ih _ (parse_faithful hc query).1
  refine hrun _ fun entry hentry => ?_
  cases hentry

end ParseCache

section Selection
variable {α : Type}

/-- The candidates that a predicate accepts when every attribute has a known answer. -/
def Predicate.selectKnown (answers : UInt64 → String → Except Error Value) (now : Instant)
    (p : Predicate) (number : α → UInt64) (token : Nat → Bool) (seen : Nat) (accepted : List α) :
    List α → Except Error (List α)
  | [] => .ok accepted.reverse
  | candidate :: rest =>
    if token seen then .error .cancelled
    else
      match (p.truth ⟨number candidate, .ofNat accepted.length, now⟩).outcome answers with
      | .error e => .error e
      | .ok true => selectKnown answers now p number token (seen + 1) (candidate :: accepted) rest
      | .ok false => selectKnown answers now p number token (seen + 1) accepted rest

namespace Store
variable {source : Source} {asked : UInt64 → String → Prop}

theorem selectFrom_warmed {p : Predicate} {number : α → UInt64} (candidates : List α)
    (hp : ∀ candidate ∈ candidates, ∀ name ∈ p.attributes, asked (number candidate) name)
    (now : Instant) (token : Nat → Bool) (s : Store) (seen : Nat) (accepted : List α) :
    (selectFrom source now p number token s seen accepted candidates).1 =
        p.selectKnown (s.view source) now number token seen accepted candidates ∧
      Warmed source asked s
        (selectFrom source now p number token s seen accepted candidates).2 := by
  induction candidates generalizing s seen accepted with
  | nil => exact ⟨rfl, warmed_refl s⟩
  | cons candidate rest ih =>
    rw [selectFrom, Predicate.selectKnown]
    by_cases htoken : token seen = true
    · rw [if_pos htoken, if_pos htoken]
      exact ⟨rfl, warmed_refl s⟩
    rw [if_neg htoken, if_neg htoken]
    have ih := ih fun c hc => hp c (List.mem_cons_of_mem _ hc)
    have hasks := p.asks_truth ⟨number candidate, .ofNat accepted.length, now⟩
      (hp candidate List.mem_cons_self)
    obtain ⟨houtcome, hwarmed⟩ := run_warmed s hasks
    rw [← houtcome]
    rcases hrun : s.run source (p.truth ⟨number candidate, .ofNat accepted.length, now⟩)
      with ⟨e | b, s'⟩
    · rw [hrun] at hwarmed
      simp only [hrun, true_and]
      exact hwarmed
    · rw [hrun] at hwarmed
      -- the later candidates are judged by what was known at the beginning
      have hview := view_of_warmed hwarmed
      cases b with
      | true =>
        obtain ⟨hrest, hmore⟩ := ih s' (seen + 1) (candidate :: accepted)
        rw [hview] at hrest
        simp only [hrun]
        exact ⟨hrest, warmed_trans hwarmed hmore⟩
      | false =>
        obtain ⟨hrest, hmore⟩ := ih s' (seen + 1) accepted
        rw [hview] at hrest
        simp only [hrun]
        exact ⟨hrest, warmed_trans hwarmed hmore⟩

theorem sound_selectFrom {s : Store} {place : Path} (h : Sound s place) (source : Source)
    (now : Instant) (p : Predicate) (number : α → UInt64) (token : Nat → Bool) (seen : Nat)
    (accepted candidates : List α) :
    Sound (selectFrom source now p number token s seen accepted candidates).2 place := by
  induction candidates generalizing s seen accepted with
  | nil => exact h
  | cons candidate rest ih =>
    have hrun := sound_run h source (p.truth ⟨number candidate, .ofNat accepted.length, now⟩)
    rw [selectFrom]
    split
    · exact h
    rcases hafter : s.run source (p.truth ⟨number candidate, .ofNat accepted.length, now⟩)
      with ⟨e | accepts, s'⟩
    · rw [hafter] at hrun
      simp only [hafter]
      exact hrun
    · rw [hafter] at hrun
      cases accepts with
      | true =>
        simp only [hafter]
        exact ih hrun (seen + 1) (candidate :: accepted)
      | false =>
        simp only [hafter]
        exact ih hrun (seen + 1) accepted

end Store

end Selection

namespace Store

/-- What a message carries is found in the indexes it was put into, and nothing else is found in
another place than before. -/
theorem get?_indexAttributes {s : Store} {m : Message} {names : List String}
    (hattr : ∀ name ∈ names, ∃ value, m.attr? name = .ok (some value))
    (hget : ∀ name ∈ names, ∃ entry, (s.get? name m.number).1 = .ok entry) :
    (s.indexAttributes m names).1 = .ok () ∧ ∀ name number,
      ((s.indexAttributes m names).2.get? name number).1 =
        if name ∈ names ∧ number = m.number then (m.attr? name).mapError .mismatch
        else (s.get? name number).1 := by
  induction names generalizing s with
  | nil => exact ⟨rfl, fun name number => (if_neg fun h => List.not_mem_nil h.1).symm⟩
  | cons first rest ih =>
    obtain ⟨value, hvalue⟩ := hattr first List.mem_cons_self
    obtain ⟨entry, hentry⟩ := hget first List.mem_cons_self
    have hput := put_ok hentry m.number value
    have hfound := get?_put hput
    rcases hafter : s.put first m.number value with ⟨result, s'⟩
    rw [hafter] at hput hfound
    have hstep : s.indexAttributes m (first :: rest) = s'.indexAttributes m rest := by
      rw [indexAttributes, hvalue]
      simp only [hafter]
      rw [show result = .ok () from hput]
    -- the indexes of the rest can still be read, so they take the later values
    have hnext : ∀ name ∈ rest, ∃ entry, (s'.get? name m.number).1 = .ok entry := by
      intro name hname
      rw [hfound]
      split
      · exact ⟨_, rfl⟩
      · exact hget name (List.mem_cons_of_mem _ hname)
    obtain ⟨hdone, hall⟩ := ih (fun name hname => hattr name (List.mem_cons_of_mem _ hname)) hnext
    rw [hstep]
    refine ⟨hdone, fun name number => ?_⟩
    rw [hall, hfound]
    -- a name may come twice; the later put gives the same value
    by_cases hnumber : number = m.number
    · by_cases hrest : name ∈ rest
      · rw [if_pos ⟨hrest, hnumber⟩, if_pos ⟨List.mem_cons_of_mem _ hrest, hnumber⟩]
      · rw [if_neg fun h => hrest h.1]
        by_cases hfirst : name = first
        · rw [if_pos ⟨hfirst, hnumber⟩, if_pos ⟨hfirst ▸ List.mem_cons_self, hnumber⟩, hfirst,
            hvalue]
          rfl
        · rw [if_neg fun h => hfirst h.1,
            if_neg fun h => (List.mem_cons.1 h.1).elim hfirst hrest]
    · rw [if_neg fun h => hnumber h.2, if_neg fun h => hnumber h.2, if_neg fun h => hnumber h.2]

theorem get?_indexAttributes_of_not_mem (s : Store) (m : Message) {names : List String}
    {name : String} (hname : name ∉ names) (number : UInt64) :
    ((s.indexAttributes m names).2.get? name number).1 = (s.get? name number).1 := by
  induction names generalizing s with
  | nil => rfl
  | cons first rest ih =>
    obtain ⟨hfirst, hrest⟩ := not_or.1 fun h => hname (List.mem_cons.2 h)
    rw [indexAttributes]
    cases m.attr? first with
    | error cause => rfl
    | ok carried =>
      cases carried with
      | none => exact ih s hrest
      | some value =>
        have hput := get?_put_of_ne s hfirst m.number number value
        simp only
        rcases hafter : s.put first m.number value with ⟨e | _, s'⟩
        · rw [hafter] at hput
          exact hput
        · rw [hafter] at hput
          exact (ih s' hrest).trans hput

theorem sound_indexAttributes {s : Store} {place : Path} (h : Sound s place) (m : Message)
    (names : List String) : Sound (s.indexAttributes m names).2 place ∧
      (s.indexAttributes m names).2.disk = s.disk ∧
      (s.indexAttributes m names).2.directory = s.directory := by
  induction names generalizing s with
  | nil => exact ⟨h, rfl, rfl⟩
  | cons first rest ih =>
    rw [indexAttributes]
    cases m.attr? first with
    | error cause => exact ⟨h, rfl, rfl⟩
    | ok carried =>
      cases carried with
      | none => exact ih h
      | some value =>
        have hsound := sound_put h first m.number value
        obtain ⟨hdisk, hdirectory⟩ := put_frame s first m.number value
        simp only
        rcases hafter : s.put first m.number value with ⟨e | _, s'⟩
        · rw [hafter] at hsound hdisk hdirectory
          exact ⟨hsound, hdisk, hdirectory⟩
        · rw [hafter] at hsound hdisk hdirectory
          obtain ⟨hlast, hlastDisk, hlastDirectory⟩ := ih hsound
          exact ⟨hlast, hlastDisk.trans hdisk, hlastDirectory.trans hdirectory⟩

end Store

/-- What can be called of an engine that evaluates predicates. -/
inductive Call : Type 1 where
  | evaluate (p : Predicate) (scene : Predicate.Scene)
  | truth (p : Predicate) (scene : Predicate.Scene)
  | fold {α : Type} (now : Instant) (token : Nat → Bool) (p : Predicate) (number : α → UInt64)
      (candidates : List α)
  | select {α : Type} (now : Instant) (token : Nat → Bool) (query : String) (number : α → UInt64)
      (candidates : List α)
  | messages (now : Instant) (bout : UInt64) (query : String)

namespace Call

/-- What a call gives when it succeeds. -/
def Answer : Call → Type
  | evaluate _ _ => Value
  | truth _ _ => Bool
  | @fold α _ _ _ _ _ => List α
  | @select α _ _ _ _ _ => List α
  | messages _ _ _ => List Message

/-- The predicates that a call evaluates. -/
def trees : Call → List Predicate
  | evaluate p _ | truth p _ | fold _ _ p _ _ => [p]
  | select _ _ query _ _ | messages _ _ query => (Query.parse query).toOption.toList

/-- A name that occurs in what a call evaluates. -/
def Names (c : Call) (name : String) : Prop := ∃ p ∈ c.trees, name ∈ p.attributes

/-- The outcome of a call when every attribute has a known answer. Nothing is written. -/
def known (answers : UInt64 → String → Except Error Value) (source : Source) :
    (c : Call) → Except Error c.Answer
  | evaluate p scene => (p.evaluate scene).outcome answers
  | truth p scene => (p.truth scene).outcome answers
  | fold now token p number candidates => p.selectKnown answers now number token 0 [] candidates
  | select now token query number candidates =>
    match Query.parse query with
    | .error failure => .error (.query failure)
    | .ok p => p.selectKnown answers now number token 0 [] candidates
  | messages now bout query =>
    match Query.parse query with
    | .error failure => .error (.query failure)
    | .ok p =>
      match source.messages bout with
      | .error e => .error e
      | .ok candidates =>
        p.selectKnown answers now Message.number (fun _ => false) 0 [] candidates

end Call

namespace Engine

/-- The outcome of a call, and the engine after it. -/
def call (e : Engine) (source : Source) : (c : Call) → Except Error c.Answer × Engine
  | .evaluate p scene =>
    let (outcome, store) := e.store.run source (p.evaluate scene)
    (outcome, { e with store })
  | .truth p scene =>
    let (outcome, store) := e.store.run source (p.truth scene)
    (outcome, { e with store })
  | .fold now token p number candidates =>
    let (outcome, store) := e.store.selectWhile source now token p number candidates
    (outcome, { e with store })
  | .select now token query number candidates =>
    e.selectWhile source now token query number candidates
  | .messages now bout query => e.messages source now bout query

/-- The outcomes of calls one after another, and the engine after them. -/
def calls (e : Engine) (source : Source) :
    List Call → List ((c : Call) × Except Error c.Answer) × Engine
  | [] => ([], e)
  | c :: rest =>
    let (outcome, e) := e.call source c
    let (outcomes, e) := calls e source rest
    (⟨c, outcome⟩ :: outcomes, e)

variable {source : Source} {asked : UInt64 → String → Prop}

theorem call_warmed {e : Engine} (hcache : e.cache.Faithful) (c : Call)
    (hnames : ∀ message name, c.Names name → asked message name) :
    (e.call source c).1 = c.known (e.store.view source) source ∧
      (e.call source c).2.cache.Faithful ∧
      Store.Warmed source asked e.store (e.call source c).2.store := by
  have hnamed (p : Predicate) (hp : p ∈ c.trees) (message : UInt64) :
      ∀ name ∈ p.attributes, asked message name :=
    fun name hname => hnames message name ⟨p, hp, hname⟩
  cases c with
  | evaluate p scene =>
    obtain ⟨houtcome, hwarmed⟩ := Store.run_warmed e.store
      (p.asks_evaluate scene (hnamed p (List.mem_singleton_self p) scene.message))
    exact ⟨houtcome, hcache, hwarmed⟩
  | truth p scene =>
    obtain ⟨houtcome, hwarmed⟩ := Store.run_warmed e.store
      (p.asks_truth scene (hnamed p (List.mem_singleton_self p) scene.message))
    exact ⟨houtcome, hcache, hwarmed⟩
  | fold now token p number candidates =>
    obtain ⟨houtcome, hwarmed⟩ := Store.selectFrom_warmed
      candidates (fun c _ => hnamed p (List.mem_singleton_self p) (number c))
      now token e.store 0 []
    exact ⟨houtcome, hcache, hwarmed⟩
  | select now token query number candidates =>
    obtain ⟨hfaithful, ⟨failure, hparse, hresult⟩ | ⟨parsed, hparse, hresult⟩⟩ :=
      ParseCache.parse_faithful hcache query
    · simp only [call, selectWhile, parse, Call.known, hparse, hresult]
      exact ⟨rfl, hfaithful, Store.warmed_refl e.store⟩
    · have htree : parsed.tree ∈ (Call.select now token query number candidates).trees := by
        simp [Call.trees, hparse, Except.toOption]
      obtain ⟨houtcome, hwarmed⟩ := Store.selectFrom_warmed
        candidates (fun c _ => hnamed parsed.tree htree (number c))
        now token e.store 0 []
      simp only [call, selectWhile, parse, Call.known, hparse, hresult]
      exact ⟨houtcome, hfaithful, hwarmed⟩
  | messages now bout query =>
    obtain ⟨hfaithful, ⟨failure, hparse, hresult⟩ | ⟨parsed, hparse, hresult⟩⟩ :=
      ParseCache.parse_faithful hcache query
    · simp only [call, messages, parse, Call.known, hparse, hresult]
      exact ⟨rfl, hfaithful, Store.warmed_refl e.store⟩
    · cases hsource : source.messages bout with
      | error cause =>
        simp only [call, messages, parse, Call.known, hparse, hresult, hsource]
        exact ⟨rfl, hfaithful, Store.warmed_refl e.store⟩
      | ok candidates =>
        have htree : parsed.tree ∈ (Call.messages now bout query).trees := by
          simp [Call.trees, hparse, Except.toOption]
        obtain ⟨houtcome, hwarmed⟩ := Store.selectFrom_warmed
          candidates (fun c _ => hnamed parsed.tree htree c.number)
          now (fun _ => false) e.store 0 []
        simp only [call, messages, parse, Call.known, hparse, hresult, hsource]
        exact ⟨houtcome, hfaithful, hwarmed⟩

theorem sound_call {e : Engine} {place : Path} (h : e.store.Sound place) (source : Source)
    (c : Call) : (e.call source c).2.store.Sound place := by
  cases c with
  | evaluate p scene => exact Store.sound_run h source (p.evaluate scene)
  | truth p scene => exact Store.sound_run h source (p.truth scene)
  | fold now token p number candidates =>
    exact Store.sound_selectFrom h source now p number token 0 [] candidates
  | select now token query number candidates =>
    have hparse : (e.parse query).2.store.Sound place := h
    rw [call, selectWhile]
    rcases hresult : e.parse query with ⟨cause | parsed, e'⟩
    · rw [hresult] at hparse
      exact hparse
    · rw [hresult] at hparse
      exact Store.sound_selectFrom hparse source now parsed.tree number token 0 [] candidates
  | messages now bout query =>
    have hparse : (e.parse query).2.store.Sound place := h
    rw [call, messages]
    rcases hresult : e.parse query with ⟨cause | parsed, e'⟩
    · rw [hresult] at hparse
      exact hparse
    · rw [hresult] at hparse
      simp only
      cases source.messages bout with
      | error cause => exact hparse
      | ok candidates =>
        exact Store.sound_selectFrom hparse source now parsed.tree Message.number (fun _ => false) 0
          [] candidates

theorem calls_warmed {e : Engine} (hcache : e.cache.Faithful) (run : List Call)
    (hnames : ∀ c ∈ run, ∀ message name, c.Names name → asked message name) :
    (e.calls source run).1 = run.map (fun c => ⟨c, c.known (e.store.view source) source⟩) ∧
      Store.Warmed source asked e.store (e.calls source run).2.store := by
  induction run generalizing e with
  | nil => exact ⟨rfl, Store.warmed_refl e.store⟩
  | cons c rest ih =>
    obtain ⟨houtcome, hfaithful, hwarmed⟩ := call_warmed hcache c (hnames c List.mem_cons_self)
    obtain ⟨hrest, hmore⟩ := ih hfaithful fun c hc => hnames c (List.mem_cons_of_mem _ hc)
    rw [Store.view_of_warmed hwarmed] at hrest
    refine ⟨?_, Store.warmed_trans hwarmed hmore⟩
    rw [List.map_cons, ← houtcome, ← hrest]
    rfl

/-- Warming up is invisible: the outcomes of any calls are those that the entries of the indexes at
the beginning and the source give, and all that happens to the indexes is that entries are added
which the source stands behind, under names that occur in what was evaluated. -/
theorem calls_outcomes_and_entries (s : Store) (source : Source) (limit : Nat)
    (earlier : List String) (run : List Call) :
    let e : Engine := { store := s, cache := ParseCache.after limit earlier }
    (e.calls source run).1 = run.map (fun c => ⟨c, c.known (s.view source) source⟩) ∧
      Store.Warmed source (fun _ name => ∃ c ∈ run, c.Names name) s
        (e.calls source run).2.store := by
  intro e
  exact calls_warmed (ParseCache.after_faithful limit earlier) run
    fun c hc _ name hname => ⟨c, hc, hname⟩

end Engine

end Colloquy
