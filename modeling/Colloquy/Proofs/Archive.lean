import Colloquy.Proofs.Source.Memory
import Colloquy.Proofs.Source.Rows
import Colloquy.Proofs.Utf8.Order
import Colloquy.Session

/-!
The answers of an archive are told by the posts and joins alone, so an archive in memory and one in
rows cannot be told apart.
-/

namespace Colloquy.Archive

/-- What changes an archive. -/
inductive Change where
  | post (m : Message)
  | join (bout : UInt64) (identity : String)
deriving DecidableEq

namespace Change

def apply (a : Archive) : Change → Except Error Archive
  | post m => a.post m
  | join bout identity => a.join bout identity

/-- The numbers fit in 63 bits. -/
def Storable : Change → Prop
  | post m => Source.Storable m.number ∧ Source.Storable m.bout
  | join bout _ => Source.Storable bout

instance : DecidablePred Storable
  | post m => inferInstanceAs (Decidable (Source.Storable m.number ∧ Source.Storable m.bout))
  | join bout _ => inferInstanceAs (Decidable (Source.Storable bout))

def posted? : Change → Option Message
  | post m => some m
  | join _ _ => none

end Change

def after (a : Archive) (changes : List Change) : Except Error Archive :=
  changes.foldlM Change.apply a

/-- The message that was last posted under a number. -/
def lastPost (changes : List Change) (number : UInt64) : Option Message :=
  (changes.filterMap Change.posted?).reverse.find? fun m => m.number = number

section LastPost
variable (changes : List Change)

theorem lastPost_post (m : Message) (number : UInt64) :
    lastPost (changes ++ [.post m]) number =
      if number = m.number then some m else lastPost changes number := by
  have happend : (changes ++ [Change.post m]).filterMap Change.posted? =
      changes.filterMap Change.posted? ++ [m] := List.filterMap_append
  rw [lastPost, happend, List.reverse_append, List.reverse_singleton, List.singleton_append]
  split
  · rename_i hnumber
    rw [List.find?_cons_of_pos (by simp [hnumber])]
  · rename_i hnumber
    rw [List.find?_cons_of_neg (by simpa using Ne.symm hnumber)]
    rfl

theorem lastPost_join (bout : UInt64) (identity : String) :
    lastPost (changes ++ [.join bout identity]) = lastPost changes := by
  have happend : (changes ++ [Change.join bout identity]).filterMap Change.posted? =
      changes.filterMap Change.posted? ++ [] := List.filterMap_append
  funext number
  rw [lastPost, happend, List.append_nil]
  rfl

theorem mem_join_post {bout : UInt64} {identity : String} (m : Message) :
    Change.join bout identity ∈ changes ++ [.post m] ↔ Change.join bout identity ∈ changes := by
  simp

theorem mem_join_join {bout other : UInt64} {identity name : String} :
    Change.join bout identity ∈ changes ++ [.join other name] ↔
      bout = other ∧ identity = name ∨ Change.join bout identity ∈ changes := by
  simp [or_comm]

end LastPost

/-- The changes are all that an archive in memory tells. -/
structure InMemory (changes : List Change) (s : Source.Memory) : Prop where
  ordered : s.Ordered
  posted : ∀ number, Keyed.find? number s.posted = lastPost changes number
  joined : ∀ bout identity,
    identity ∈ s.participantsOf bout ↔ .join bout identity ∈ changes

/-- The changes are all that the rows of an archive tell. -/
structure InRows (changes : List Change) (s : Source.Rows) : Prop where
  distinct : Message.Distinct s.messageRows
  unique : s.participantRows.Nodup
  stored : s.Stored
  posted : ∀ number, s.row? number = lastPost changes number
  joined : ∀ bout identity, (bout, identity) ∈ s.participantRows ↔ .join bout identity ∈ changes

/-- The changes are all that an archive tells. -/
def Tells (changes : List Change) : Archive → Prop
  | memory s => InMemory changes s
  | rows s => InRows changes s

theorem inMemory_empty : InMemory [] {} where
  ordered := Source.Memory.ordered_empty
  posted _ := rfl
  joined _ _ := ⟨nofun, nofun⟩

theorem inRows_empty : InRows [] {} where
  distinct := List.Pairwise.nil
  unique := List.nodup_nil
  stored := Source.Rows.stored_empty
  posted _ := rfl
  joined _ _ := ⟨nofun, nofun⟩

variable {changes : List Change}

theorem inMemory_post {s : Source.Memory} (h : InMemory changes s) (m : Message) :
    InMemory (changes ++ [.post m]) (s.post m) := by
  refine ⟨Source.Memory.ordered_post h.ordered m, fun number => ?_, fun bout identity => ?_⟩
  · rw [lastPost_post]
    split
    · rename_i hnumber
      rw [hnumber]
      exact Keyed.find?_insert_self m.number m s.posted
    · rename_i hnumber
      rw [← h.posted]
      exact Keyed.find?_insert_of_ne hnumber m s.posted
  · rw [mem_join_post]
    exact h.joined bout identity

theorem inMemory_join {s : Source.Memory} (h : InMemory changes s) (bout : UInt64)
    (identity : String) :
    InMemory (changes ++ [.join bout identity]) (s.join bout identity) := by
  refine ⟨Source.Memory.ordered_join h.ordered bout identity, fun number => ?_,
    fun other name => ?_⟩
  · rw [lastPost_join]
    exact h.posted number
  · rw [Source.Memory.participantsOf_join, mem_join_join]
    -- only the names of the bout that is joined change
    split
    · rename_i hbout
      subst hbout
      rw [Source.mem_insertName, h.joined]
      simp only [true_and]
    · rename_i hbout
      rw [h.joined]
      simp only [hbout, false_and, false_or]

theorem inRows_post {s s' : Source.Rows} (h : InRows changes s) {m : Message}
    (hpost : s.post m = .ok s') : InRows (changes ++ [.post m]) s' := by
  have hparticipants := Source.Rows.participantRows_post hpost
  refine ⟨Source.Rows.distinct_post h.distinct hpost, ?_, Source.Rows.stored_post h.stored hpost,
    fun number => ?_, fun bout identity => ?_⟩
  · rw [hparticipants]
    exact h.unique
  · rw [Source.Rows.row?_post hpost, lastPost_post, h.posted]
  · rw [hparticipants, mem_join_post]
    exact h.joined bout identity

theorem inRows_join {s s' : Source.Rows} (h : InRows changes s) {bout : UInt64}
    {identity : String} (hjoin : s.join bout identity = .ok s') :
    InRows (changes ++ [.join bout identity]) s' := by
  have hmessages := Source.Rows.messageRows_join hjoin
  obtain ⟨hunique, hmem⟩ := Source.Rows.participantRows_join hjoin
  refine ⟨?_, hunique h.unique, ?_, fun number => ?_, fun other name => ?_⟩
  · rw [hmessages]
    exact h.distinct
  · rw [Source.Rows.Stored, hmessages]
    exact h.stored
  · rw [Source.Rows.row?, hmessages, lastPost_join]
    exact h.posted number
  · rw [hmem, mem_join_join, h.joined, Prod.mk.injEq]

theorem tells_apply {a a' : Archive} (h : Tells changes a) {c : Change} (hc : c.apply a = .ok a') :
    Tells (changes ++ [c]) a' := by
  cases a with
  | memory s =>
    cases c with
    | post m =>
      obtain rfl := Except.ok.inj hc
      exact inMemory_post h m
    | join bout identity =>
      obtain rfl := Except.ok.inj hc
      exact inMemory_join h bout identity
  | rows s =>
    cases c with
    | post m =>
      cases hpost : s.post m with
      | error e =>
        rw [Change.apply, post, hpost] at hc
        cases hc
      | ok s' =>
        rw [Change.apply, post, hpost] at hc
        obtain rfl := Except.ok.inj hc
        exact inRows_post h hpost
    | join bout identity =>
      cases hjoin : s.join bout identity with
      | error e =>
        rw [Change.apply, join, hjoin] at hc
        cases hc
      | ok s' =>
        rw [Change.apply, join, hjoin] at hc
        obtain rfl := Except.ok.inj hc
        exact inRows_join h hjoin

theorem apply_storable (a : Archive) {c : Change} (hc : c.Storable) :
    ∃ a', c.apply a = .ok a' := by
  cases a with
  | memory s => cases c <;> exact ⟨_, rfl⟩
  | rows s =>
    cases c with
    | post m =>
      obtain ⟨s', hpost⟩ := s.post_storable hc.1 hc.2
      exact ⟨rows s', congrArg (Except.map rows) hpost⟩
    | join bout identity =>
      obtain ⟨s', hjoin⟩ := s.join_storable hc identity
      exact ⟨rows s', congrArg (Except.map rows) hjoin⟩

/-- Nothing is answered about a number under which nothing was posted. -/
theorem attr?_unposted {a : Archive} (h : Tells changes a) {number : UInt64}
    (hnone : lastPost changes number = none) (name : String) :
    (a.toSource.attr? number name).toOption.join = none := by
  cases a with
  | memory s =>
    have hanswer : s.attr? number name = .ok none := by
      rw [Source.Memory.attr?, h.posted, hnone]
    exact congrArg (fun answer => answer.toOption.join) hanswer
  | rows s =>
    change (s.attr? number name).toOption.join = none
    rw [Source.Rows.attr?]
    split
    · rfl
    · split
      · rw [h.posted, hnone]
        rfl
      · -- the number does not fit, so there is no answer at all
        rfl

/-- What a source answers that is told by the changes. -/
structure Answers (changes : List Change) (source : Source) : Prop where
  unknown : ∀ number name, Source.Storable number → lastPost changes number = none →
    source.attr? number name = .ok none
  carried : ∀ number m name, lastPost changes number = some m → name ≠ "participants" →
    source.attr? number name = (m.attr? name).mapError .mismatch
  /-- The identities that have joined the bout of a message, in the order of their bytes. -/
  participants : ∀ number m, lastPost changes number = some m →
    ∃ names : List String,
      source.attr? number "participants" = .ok (some (.list (names.map .text))) ∧
      names.Pairwise (fun a b => Utf8.encode a.toList < Utf8.encode b.toList) ∧
      ∀ identity, identity ∈ names ↔ .join m.bout identity ∈ changes
  /-- The messages of a bout, from the newest to the oldest. -/
  messages : ∀ bout, Source.Storable bout →
    ∃ messages, source.messages bout = .ok messages ∧
      messages.Pairwise (fun a b => b.compare a = .lt) ∧
      ∀ m, m ∈ messages ↔ lastPost changes m.number = some m ∧ m.bout = bout

/-- Names in the order of their bytes are told by which names they are. -/
theorem eq_of_ascends {names others : List String}
    (h : names.Pairwise fun a b => Utf8.encode a.toList < Utf8.encode b.toList)
    (hothers : others.Pairwise fun a b => Utf8.encode a.toList < Utf8.encode b.toList)
    (hmem : ∀ name, name ∈ names ↔ name ∈ others) : names = others := by
  have hirrefl : Std.Irrefl fun a b : String => Utf8.encode a.toList < Utf8.encode b.toList :=
    ⟨fun a => List.lt_irrefl _⟩
  have hantisymm : Std.Antisymm fun a b : String =>
      Utf8.encode a.toList < Utf8.encode b.toList :=
    ⟨fun a b hab hba => absurd hab (List.lt_asymm hba)⟩
  exact h.eq_of_mem_iff hothers hmem

theorem bytes_ascend {names : List String} (h : names.Pairwise (· < ·)) :
    names.Pairwise fun a b => Utf8.encode a.toList < Utf8.encode b.toList :=
  h.imp fun hlt => Utf8.encode_lt_encode (String.lt_iff.1 hlt)

theorem inMemory_answers {s : Source.Memory} (h : InMemory changes s) :
    Answers changes s.toSource where
  unknown number name _ hnone := by
    change s.attr? number name = _
    rw [Source.Memory.attr?, h.posted, hnone]
  carried number m name hlast hname := by
    change s.attr? number name = _
    rw [Source.Memory.attr?, h.posted, hlast]
    exact if_neg hname
  participants number m hlast := by
    refine ⟨s.participantsOf m.bout, ?_, bytes_ascend (h.ordered.ascending m.bout),
      h.joined m.bout⟩
    change s.attr? number "participants" = _
    rw [Source.Memory.attr?, h.posted, hlast]
    exact if_pos rfl
  messages bout _ := by
    have hdistinct : Message.Distinct ((s.posted.map Prod.snd).filter fun m => m.bout = bout) :=
      (Source.Memory.distinct_posted h.ordered).filter _
    refine ⟨s.messages bout, rfl, Message.sortNewestFirst_descends hdistinct, fun m => ?_⟩
    rw [Source.Memory.messages, Message.sortNewestFirst, List.mem_mergeSort, List.mem_filter,
      Source.Memory.mem_posted h.ordered, h.posted, decide_eq_true_eq]

theorem inRows_answers {s : Source.Rows} (h : InRows changes s) :
    Answers changes s.toSource where
  unknown number name hnumber hnone := by
    change s.attr? number name = _
    rw [Source.Rows.attr?]
    split
    · rfl
    · rw [if_pos hnumber, h.posted, hnone]
      rfl
  carried number m name hlast hname := by
    change s.attr? number name = _
    rw [← h.posted] at hlast
    obtain ⟨hmem, hnumber⟩ := Source.Rows.row?_spec hlast
    obtain ⟨hstored, hbout⟩ := h.stored m hmem
    -- the columns of a row are what the message carries
    rw [Source.Rows.attr?_eq_column hstored hbout hname, Source.Rows.attr?]
    split
    · rename_i hcolumn
      rw [hcolumn]
      rfl
    · rename_i column hcolumn
      rw [if_pos (hnumber ▸ hstored), hlast, hcolumn]
      rfl
  participants number m hlast := by
    rw [← h.posted] at hlast
    obtain ⟨hmem, hnumber⟩ := Source.Rows.row?_spec hlast
    obtain ⟨hstored, -⟩ := h.stored m hmem
    refine ⟨s.identities m.bout, ?_, bytes_ascend (Source.Rows.identities_ascend h.unique m.bout),
      fun identity => Source.Rows.mem_identities.trans (h.joined m.bout identity)⟩
    change s.attr? number "participants" = _
    rw [Source.Rows.attr?, Source.Rows.column?, if_pos rfl]
    simp only [if_pos (hnumber ▸ hstored : Source.Storable number), hlast, Option.map_some]
  messages bout hbout := by
    have hdistinct : Message.Distinct (s.messageRows.filter fun row => row.bout = bout) :=
      h.distinct.filter _
    refine ⟨_, if_pos hbout, Message.sortNewestFirst_descends hdistinct, fun m => ?_⟩
    rw [Message.sortNewestFirst, List.mem_mergeSort, List.mem_filter,
      Source.Rows.mem_messageRows h.distinct, h.posted, decide_eq_true_eq]

theorem answers_of_tells {a : Archive} (h : Tells changes a) : Answers changes a.toSource := by
  cases a with
  | memory s => exact inMemory_answers h
  | rows s => exact inRows_answers h

/-- The changes leave nothing open of what a source answers. -/
theorem answers_unique {source other : Source} (h : Answers changes source)
    (hother : Answers changes other) :
    (∀ number name, Source.Storable number →
      source.attr? number name = other.attr? number name) ∧
    ∀ bout, Source.Storable bout → source.messages bout = other.messages bout := by
  constructor
  · intro number name hnumber
    cases hlast : lastPost changes number with
    | none => rw [h.unknown number name hnumber hlast, hother.unknown number name hnumber hlast]
    | some m =>
      by_cases hname : name = "participants"
      · subst hname
        obtain ⟨names, hnames, hascends, hmem⟩ := h.participants number m hlast
        obtain ⟨others, hothers, hascends', hmem'⟩ := hother.participants number m hlast
        -- each is in the one order that its members have
        have hsame : names = others :=
          eq_of_ascends hascends hascends' fun identity =>
            (hmem identity).trans (hmem' identity).symm
        rw [hnames, hothers, hsame]
      · rw [h.carried number m name hlast hname, hother.carried number m name hlast hname]
  · intro bout hbout
    obtain ⟨messages, hmessages, hdescends, hmem⟩ := h.messages bout hbout
    obtain ⟨others, hothers, hdescends', hmem'⟩ := hother.messages bout hbout
    have hsame : messages = others :=
      Message.eq_of_descends hdescends hdescends' fun m => (hmem m).trans (hmem' m).symm
    rw [hmessages, hothers, hsame]

theorem after_tells {a : Archive} (h : Tells changes a) {more : List Change}
    (hmore : ∀ c ∈ more, c.Storable) :
    ∃ a', a.after more = .ok a' ∧ Tells (changes ++ more) a' := by
  -- by induction on the changes that are still to come
  induction more generalizing a changes with
  | nil =>
    rw [List.append_nil]
    exact ⟨a, rfl, h⟩
  | cons c rest ih =>
    obtain ⟨next, hnext⟩ := apply_storable a (hmore c List.mem_cons_self)
    obtain ⟨a', hafter, htells⟩ :=
      ih (tells_apply h hnext) fun c hc => hmore c (List.mem_cons_of_mem _ hc)
    refine ⟨a', ?_, ?_⟩
    · rw [after, List.foldlM_cons, hnext]
      exact hafter
    · rwa [List.append_assoc] at htells

/-- An archive in memory and one in rows, both empty at first, answer the same after any posts and
joins whose numbers fit, and what they answer is told by these posts and joins. -/
theorem memory_and_rows_agree (changes : List Change) (h : ∀ c ∈ changes, c.Storable) :
    ∃ s r, (memory {}).after changes = .ok s ∧ (rows {}).after changes = .ok r ∧
      Answers changes s.toSource ∧
      (∀ number name, Source.Storable number →
        s.toSource.attr? number name = r.toSource.attr? number name) ∧
      ∀ bout, Source.Storable bout → s.toSource.messages bout = r.toSource.messages bout := by
  have hmemory : Tells [] (memory {}) := inMemory_empty
  have hrows : Tells [] (rows {}) := inRows_empty
  obtain ⟨s, hs, hstells⟩ := after_tells hmemory h
  obtain ⟨r, hr, hrtells⟩ := after_tells hrows h
  have hsame := answers_unique (answers_of_tells hstells) (answers_of_tells hrtells)
  exact ⟨s, r, hs, hr, answers_of_tells hstells, hsame⟩

/-- A message that is posted to one bout and then to another, whose participants have joined before
and after. -/
def moved : List Change :=
  let date : Instant := .midnight ⟨2024, 1, 3, by decide⟩
  [.join 2 "bob", .post ⟨10, 1, "ann", "hi", date⟩, .join 2 "amy", .join 2 "bob",
    .post ⟨10, 2, "ann", "hi", date⟩]

theorem memory_and_rows_agree_moved :
    (∀ c ∈ moved, c.Storable) ∧
      ∃ s r, (memory {}).after moved = .ok s ∧ (rows {}).after moved = .ok r ∧
        s.toSource.attr? 10 "participants" = .ok (some (.list [.text "amy", .text "bob"])) ∧
        r.toSource.attr? 10 "participants" = .ok (some (.list [.text "amy", .text "bob"])) ∧
        r.toSource.messages 1 = .ok [] := by
  have hstorable : ∀ c ∈ moved, c.Storable := by decide
  obtain ⟨s, r, hs, hr, -, hattr, hmessages⟩ := memory_and_rows_agree moved hstorable
  have hknown : s.toSource.attr? 10 "participants" =
      .ok (some (.list [.text "amy", .text "bob"])) := by
    rw [← Except.ok.inj ((rfl : (memory {}).after moved = .ok _).symm.trans hs)]
    rfl
  have hleft : s.toSource.messages 1 = .ok [] := by
    rw [← Except.ok.inj ((rfl : (memory {}).after moved = .ok _).symm.trans hs)]
    exact congrArg Except.ok List.mergeSort_nil
  refine ⟨hstorable, s, r, hs, hr, hknown, ?_, ?_⟩
  · rw [← hattr 10 "participants" (by decide)]
    exact hknown
  · rw [← hmessages 1 (by decide)]
    exact hleft

end Colloquy.Archive
