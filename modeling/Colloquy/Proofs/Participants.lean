import Colloquy.Proofs.Archive
import Colloquy.Proofs.Engine.Filter
import Colloquy.Proofs.Query.RoundTrip
import Colloquy.Proofs.Store.Contents
import Colloquy.Proofs.Store.Record

/-!
A post puts what a message carries into the indexes; a join reaches no index. So the participants of
a message stay as they were when they were first read.
-/

namespace Colloquy
open Archive (Change lastPost)

/-- Accepts the messages in whose bout an identity takes part. -/
def Predicate.hasParticipant (identity : String) : Predicate :=
  .contains (.attr "participants") (.literal (.text identity))

namespace Predicate

theorem parse_hasParticipant (identity : String) :
    Query.parse (hasParticipant identity).text = .ok (hasParticipant identity) := by
  have hname : IsAttributeName "participants" := ⟨rfl, by decide, by decide, by decide⟩
  have hwell : (hasParticipant identity).WellFormed := .inr ⟨trivial, hname, .inr rfl⟩
  rw [Query.parse_eq_ok, text, String.toList_ofList]
  exact Query.parseChars_render hwell

theorem anyEqual_texts (identity : String) (names : List String) :
    anyEqual (.text identity) (names.map .text) = .ok (decide (identity ∈ names)) := by
  induction names with
  | nil => rfl
  | cons name rest ih =>
    have hhead : (Value.text name).looseEq (.text identity) = .ok (name == identity) := by
      rw [Value.looseEq]
    rw [List.map_cons, anyEqual, hhead]
    by_cases hname : identity = name
    · subst hname
      simp
      rfl
    · have hne : (name == identity) = false := beq_eq_false_iff_ne.2 (Ne.symm hname)
      have hmem : decide (identity ∈ name :: rest) = decide (identity ∈ rest) := by
        simp only [List.mem_cons, hname, false_or]
      rw [hne, hmem, ← ih]
      rfl

theorem truth_hasParticipant {answers : UInt64 → String → Except Error Value} {scene : Scene}
    {names : List String}
    (h : answers scene.message "participants" = .ok (.list (names.map .text))) (identity : String) :
    ((hasParticipant identity).truth scene).outcome answers =
      .ok (decide (identity ∈ names)) := by
  have hreading : (hasParticipant identity).truth scene =
      .read scene.message "participants" fun value =>
        relate containsValue value (.text identity) >>= fun value =>
          Reading.ofExcept (expectBoolean (hasParticipant identity) value) := by
    rw [truth, hasParticipant, evaluate, evaluate, evaluate]
    rfl
  have hcontains : containsValue (.list (names.map .text)) (.text identity) =
      .ok (decide (identity ∈ names)) := anyEqual_texts identity names
  rw [hreading, Reading.outcome, h]
  simp only [relate, hcontains]
  rfl

end Predicate

/-- An archive and an engine that reads it, and what has happened to them. -/
structure Conversation where
  archive : Archive
  engine : Engine
  /-- The posts and joins that have succeeded. -/
  changes : List Change := []
  /-- The changes that had been made when the participants of a posted message were first read. -/
  firstRead : UInt64 → Option (List Change) := fun _ => none

/-- What can be done next. A post is put into the archive and then into the indexes. -/
inductive Turn : Type 1 where
  | post (m : Message)
  | join (bout : UInt64) (identity : String)
  | call (c : Call)
  | flush (name : String)
  | flushAll
  /-- The store is flushed and closed, and a new one is opened in its directory. -/
  | reopen

namespace Conversation

def source (h : Conversation) : Source := h.archive.toSource

def store (h : Conversation) : Store := h.engine.store

def withStore (h : Conversation) (store : Store) : Conversation :=
  { h with engine := { h.engine with store } }

/-- The participants of a message have been read while it was there. -/
def readBy (h : Conversation) (asked : List Answered) (number : UInt64) : Bool :=
  decide (Store.Among asked number "participants") && (lastPost h.changes number).isSome

def next (h : Conversation) : Turn → Conversation
  | .post m =>
    match h.archive.post m with
    | .error _ => h
    | .ok archive =>
      { h.withStore (h.store.indexMessage m).2 with archive, changes := h.changes ++ [.post m] }
  | .join bout identity =>
    match h.archive.join bout identity with
    | .error _ => h
    | .ok archive => { h with archive, changes := h.changes ++ [.join bout identity] }
  | .call c =>
    let recorded := h.engine.record h.source c
    { h with
      engine := recorded.1.2
      firstRead := fun number =>
        (h.firstRead number).or (if h.readBy recorded.2 number then some h.changes else none) }
  | .flush name => h.withStore (h.store.flush name).2
  | .flushAll => h.withStore h.store.flushAll.2
  | .reopen =>
    match Store.openAt h.store.flushAll.2.disk h.store.directory with
    | (.error _, disk) => h.withStore { h.store.flushAll.2 with disk }
    | (.ok store, _) => { h with engine := { store, cache := { limit := h.engine.cache.limit } } }

/-- A store is closed without loss: all its indexes are written, and their entries can be
counted. -/
def Undisturbed (h : Conversation) : Turn → Prop
  | .reopen => (∃ written, h.store.flushAll.1 = .ok written) ∧
      ∀ entries, h.store.entries "participants" = .ok entries → entries.length < Nat.pow 2 64
  | _ => True

/-- The conversations that any turns lead to. -/
inductive Reached (start : Conversation) : Conversation → Prop where
  | start : Reached start start
  | next {h : Conversation} (reached : Reached start h) (t : Turn) (undisturbed : h.Undisturbed t) :
      Reached start (h.next t)

/-- The changes by which the participants of a message are answered. -/
def answeredBy (h : Conversation) (number : UInt64) : List Change :=
  (h.firstRead number).getD h.changes

/-- An identity has joined the bout of a message, as far as changes tell. -/
def takesPart (changes : List Change) (number : UInt64) (identity : String) : Bool :=
  match lastPost changes number with
  | none => false
  | some m => decide (Change.join m.bout identity ∈ changes)

/-- The names are the participants of a message, as far as changes tell. -/
def Lists (changes : List Change) (number : UInt64) (names : List String) : Prop :=
  ∃ m, lastPost changes number = some m ∧ ∀ identity, identity ∈ names ↔
    Change.join m.bout identity ∈ changes

theorem takesPart_of_lists {changes : List Change} {number : UInt64} {names : List String}
    (h : Lists changes number names) (identity : String) :
    takesPart changes number identity = decide (identity ∈ names) := by
  obtain ⟨m, hlast, hmem⟩ := h
  rw [takesPart, hlast]
  exact decide_eq_decide.2 (hmem identity).symm

/-- The index of participants has those who took part when they were first read. -/
structure Kept (h : Conversation) (place : Path) : Prop where
  tells : Archive.Tells h.changes h.archive
  faithful : h.engine.cache.Faithful
  sound : h.store.Sound place
  unread : ∀ number, h.firstRead number = none →
    (h.store.get? "participants" number).1 = .ok none
  read : ∀ number earlier, h.firstRead number = some earlier → ∃ names,
    Lists earlier number names ∧
      (h.store.get? "participants" number).1 = .ok (some (.list (names.map .text)))

variable {h : Conversation} {place : Path}

theorem kept_withStore (hkept : Kept h place) {store : Store} (hsound : store.Sound place)
    (hget : ∀ number,
      (store.get? "participants" number).1 = (h.store.get? "participants" number).1) :
    Kept (h.withStore store) place := by
  refine ⟨hkept.tells, hkept.faithful, hsound, fun number hnone => ?_,
    fun number earlier hearlier => ?_⟩
  · exact (hget number).trans (hkept.unread number hnone)
  · obtain ⟨names, hlists, hentry⟩ := hkept.read number earlier hearlier
    exact ⟨names, hlists, (hget number).trans hentry⟩

theorem get?_of_entries {s t : Store} {name : String} (hentries : t.entries name = s.entries name)
    (number : UInt64) : (t.get? name number).1 = (s.get? name number).1 := by
  rw [Store.get?_entries, Store.get?_entries, hentries]

theorem view_of_kept (hkept : Kept h place) {number : UInt64} {m : Message}
    (hlast : lastPost h.changes number = some m) : ∃ names,
      Lists (h.answeredBy number) number names ∧
        h.store.view h.source number "participants" = .ok (.list (names.map .text)) := by
  rw [answeredBy]
  cases hread : h.firstRead number with
  | some earlier =>
    obtain ⟨names, hlists, hentry⟩ := hkept.read number earlier hread
    refine ⟨names, hlists, ?_⟩
    rw [Store.view, hentry]
  | none =>
    -- no index has them, so the archive is asked
    have hanswers := Archive.answers_of_tells hkept.tells
    obtain ⟨names, hanswer, -, hmem⟩ := hanswers.participants number m hlast
    refine ⟨names, ⟨m, hlast, hmem⟩, ?_⟩
    rw [Store.view, hkept.unread number hread, source, hanswer]
    rfl

theorem kept_post (hkept : Kept h place) (m : Message) : Kept (h.next (.post m)) place := by
  rw [next]
  cases hpost : h.archive.post m with
  | error e => exact hkept
  | ok archive =>
    -- the post is indexed, but participants are not among what a message carries
    obtain ⟨hsound, -, -⟩ := Store.sound_indexAttributes hkept.sound m Message.indexed
    have hfree : "participants" ∉ Message.indexed := by decide
    have hstored := kept_withStore hkept hsound
      (Store.get?_indexAttributes_of_not_mem h.store m hfree)
    exact ⟨Archive.tells_apply hkept.tells hpost, hkept.faithful, hstored.sound, hstored.unread,
      hstored.read⟩

theorem kept_join (hkept : Kept h place) (bout : UInt64) (identity : String) :
    Kept (h.next (.join bout identity)) place := by
  rw [next]
  cases hjoin : h.archive.join bout identity with
  | error e => exact hkept
  | ok archive =>
    -- no index is touched
    exact ⟨Archive.tells_apply hkept.tells hjoin, hkept.faithful, hkept.sound, hkept.unread,
      hkept.read⟩

theorem firstRead_call (h : Conversation) (c : Call) (number : UInt64) :
    (h.next (.call c)).firstRead number = (h.firstRead number).or
      (if h.readBy (h.engine.record h.source c).2 number then some h.changes else none) := rfl

/-- Participants that a call has not read are in no index after it. -/
theorem unread_call (hkept : Kept h place) (c : Call) {number : UInt64}
    (hnone : (h.next (.call c)).firstRead number = none) :
    ((h.next (.call c)).store.get? "participants" number).1 = .ok none := by
  have hfetched : Store.Fetched h.source (h.engine.record h.source c).2 h.store
      (h.engine.record h.source c).1.2.store := h.engine.fetched_record c
  rw [firstRead_call] at hnone
  obtain ⟨hunread, hnotRead⟩ := Option.or_eq_none_iff.1 hnone
  have hmissing := hkept.unread number hunread
  refine (hfetched number "participants").trans ?_
  split
  · rename_i hasked
    -- the participants were asked for and yet not read: there is no such message
    have hunposted : lastPost h.changes number = none := by
      cases hlast : lastPost h.changes number with
      | none => rfl
      | some m =>
        have hread : h.readBy (h.engine.record h.source c).2 number = true := by
          rw [readBy, hlast, decide_eq_true hasked]
          rfl
        rw [if_pos hread] at hnotRead
        cases hnotRead
    rw [Store.fetch_of_none hmissing]
    exact congrArg Except.ok (Archive.attr?_unposted hkept.tells hunposted "participants")
  · exact hmissing

/-- Participants that were read before a call or by it are in their index after it. -/
theorem read_call (hkept : Kept h place) (c : Call) {number : UInt64} {earlier : List Change}
    (hearlier : (h.next (.call c)).firstRead number = some earlier) : ∃ names,
      Lists earlier number names ∧
        ((h.next (.call c)).store.get? "participants" number).1 =
          .ok (some (.list (names.map .text))) := by
  have hfetched : Store.Fetched h.source (h.engine.record h.source c).2 h.store
      (h.engine.record h.source c).1.2.store := h.engine.fetched_record c
  have hentry := hfetched number "participants"
  rw [firstRead_call] at hearlier
  cases hbefore : h.firstRead number with
  | some already =>
    -- what an index has stays, asked for again or not
    obtain rfl : already = earlier := by
      rw [hbefore, Option.some_or] at hearlier
      exact Option.some.inj hearlier
    obtain ⟨names, hlists, hget⟩ := hkept.read number already hbefore
    refine ⟨names, hlists, hentry.trans ?_⟩
    rw [Store.fetch_of_some hget, hget, ite_self]
  | none =>
    -- the source is asked, and it answers by the changes made until now
    rw [hbefore, Option.none_or] at hearlier
    split at hearlier
    · rename_i hread
      obtain rfl := Option.some.inj hearlier
      obtain ⟨hasked, hposted⟩ := Bool.and_eq_true_iff.1 hread
      obtain ⟨m, hlast⟩ := Option.isSome_iff_exists.1 hposted
      have hanswers := Archive.answers_of_tells hkept.tells
      obtain ⟨names, hanswer, -, hmem⟩ := hanswers.participants number m hlast
      refine ⟨names, ⟨m, hlast, hmem⟩, hentry.trans ?_⟩
      rw [if_pos (of_decide_eq_true hasked), Store.fetch_of_none (hkept.unread number hbefore),
        source, hanswer]
      rfl
    · cases hearlier

theorem kept_call (hkept : Kept h place) (c : Call) : Kept (h.next (.call c)) place := by
  have hcall : (h.engine.record h.source c).1 = h.engine.call h.source c := h.engine.record_call c
  have hwarmed : _ ∧ (h.engine.call h.source c).2.cache.Faithful ∧ Store.Warmed h.source
      (fun _ _ => True) h.store (h.engine.call h.source c).2.store :=
    Engine.call_warmed hkept.faithful c fun _ _ _ => trivial
  have hsound : (h.engine.call h.source c).2.store.Sound place :=
    Engine.sound_call hkept.sound h.source c
  rw [← hcall] at hwarmed hsound
  exact ⟨hkept.tells, hwarmed.2.1, hsound, fun number hnone => unread_call hkept c hnone,
    fun number earlier hearlier => read_call hkept c hearlier⟩

theorem depth_texts (names : List String) : (Value.list (names.map .text)).depth = 1 := by
  have hitems : Value.depth.depthItems (names.map Value.text) = 0 := by
    induction names with
    | nil => rfl
    | cons name rest ih =>
      rw [List.map_cons, Value.depth.depthItems, ih]
      rfl
  rw [Value.depth, hitems]

theorem regular_texts (names : List String) : (Value.list (names.map .text)).Regular := by
  refine Value.regular_list.2 fun v hv => ?_
  obtain ⟨name, -, rfl⟩ := List.mem_map.1 hv
  exact Value.regular_text name

theorem readable_of_kept (hkept : Kept h place)
    (hcount : ∀ entries, h.store.entries "participants" = .ok entries →
      entries.length < Nat.pow 2 64) :
    ∃ all, h.store.entries "participants" = .ok all ∧ Index.Readable all ∧
      ∀ e ∈ all, e.2.Regular := by
  -- the index holds lists of names and nothing else
  have hget (number : UInt64) : (h.store.get? "participants" number).1 = .ok none ∨
      ∃ names : List String, (h.store.get? "participants" number).1 =
        .ok (some (.list (names.map .text))) := by
    cases hread : h.firstRead number with
    | none => exact .inl (hkept.unread number hread)
    | some earlier =>
      obtain ⟨names, -, hentry⟩ := hkept.read number earlier hread
      exact .inr ⟨names, hentry⟩
  cases hall : h.store.entries "participants" with
  | error e =>
    rcases hget 0 with hnone | ⟨names, hsome⟩
    · rw [Store.get?_entries, hall] at hnone
      cases hnone
    · rw [Store.get?_entries, hall] at hsome
      cases hsome
  | ok all =>
    have hlists : ∀ e ∈ all, ∃ names : List String, e.2 = .list (names.map .text) := by
      intro e he
      have hfind : Keyed.find? e.1 all = some e.2 :=
        Keyed.find?_of_mem (Store.sorted_entries hkept.sound hall) he
      have hentry : (h.store.get? "participants" e.1).1 = .ok (some e.2) := by
        rw [Store.get?_entries, hall]
        exact congrArg Except.ok hfind
      rcases hget e.1 with hnone | ⟨names, hsome⟩
      · rw [hentry] at hnone
        cases hnone
      · rw [hentry] at hsome
        exact ⟨names, Option.some.inj (Except.ok.inj hsome)⟩
    refine ⟨all, rfl, ⟨hcount all hall, fun e he => ?_⟩, fun e he => ?_⟩
    · obtain ⟨names, hnames⟩ := hlists e he
      rw [hnames, depth_texts]
      decide
    · obtain ⟨names, hnames⟩ := hlists e he
      rw [hnames]
      exact regular_texts names

theorem kept_reopen (hkept : Kept h place) (hundisturbed : h.Undisturbed .reopen) :
    Kept (h.next .reopen) place := by
  obtain ⟨⟨written, hflush⟩, hcount⟩ := hundisturbed
  have hflushed : h.store.flushAll.2.Sound place := Store.sound_flushAll hkept.sound
  have hdirectory : h.store.flushAll.2.directory = h.store.directory :=
    Store.flushEach_directory h.store h.store.indexes
  have hopen := Store.openAt_again hflushed
  rw [hdirectory] at hopen
  obtain ⟨all, hall, hreadable, hregular⟩ := readable_of_kept hkept hcount
  have hagain := Store.entries_reopened hkept.sound hflush hall hreadable hregular
  have hsound : Store.Sound { disk := h.store.flushAll.2.disk, directory := h.store.directory }
      place := by
    rw [← hdirectory]
    exact Store.sound_unloaded hflushed.walkable hflushed.entered
  have hstored := kept_withStore hkept hsound (get?_of_entries (hagain.trans hall.symm))
  -- the new engine has parsed nothing yet
  rw [next, hopen]
  refine ⟨hkept.tells, fun entry hentry => ?_, hsound, hstored.unread, hstored.read⟩
  cases hentry

theorem kept_next (hkept : Kept h place) {t : Turn} (hundisturbed : h.Undisturbed t) :
    Kept (h.next t) place := by
  cases t with
  | post m => exact kept_post hkept m
  | join bout identity => exact kept_join hkept bout identity
  | call c => exact kept_call hkept c
  | flush name =>
    have hsound : (h.store.flush name).2.Sound place := Store.sound_flush hkept.sound name
    have hentries := Store.flush_entries hkept.sound name "participants"
    exact kept_withStore hkept hsound (get?_of_entries hentries)
  | flushAll =>
    have hsound : h.store.flushAll.2.Sound place := Store.sound_flushAll hkept.sound
    have hentries := Store.flushAll_entries hkept.sound "participants"
    exact kept_withStore hkept hsound (get?_of_entries hentries)
  | reopen => exact kept_reopen hkept hundisturbed

theorem kept_of_reached {start : Conversation} (hstart : Kept start place)
    (hreached : Reached start h) : Kept h place := by
  induction hreached with
  | start => exact hstart
  | next _ _ hundisturbed ih => exact kept_next ih hundisturbed

theorem kept_start {d : Disk} {directory : String} {archive : Archive} {s : Store} {limit : Nat}
    (hempty : Archive.Tells [] archive) (hopen : (Store.openAt d directory).1 = .ok s)
    (hnew : s.disk.read (s.pathOf "participants") = .error .notFound) :
    ∃ place, Kept { archive, engine := { store := s, cache := { limit } } } place := by
  obtain ⟨-, hfresh, place, hsound⟩ := Store.sound_openAt hopen
  have hunloaded : Keyed.find? "participants" s.indexes = none := by
    rw [hfresh]
    rfl
  have hentries : s.entries "participants" = .ok [] := by
    rw [Store.entries, Store.index_of_unloaded rfl hunloaded, Index.load, Index.readAt, hnew]
    rfl
  refine ⟨place, hempty, fun entry hentry => ?_, hsound, fun number _ => ?_,
    fun number earlier hearlier => ?_⟩
  · cases hentry
  · rw [store, Store.get?_entries, hentries]
    rfl
  · cases hearlier

/-- A query for the participation of an identity selects the messages in whose bout the identity
took part when their participants were first read; where they were not read yet, those in whose
bout it takes part now. -/
theorem selects_participants_first_read {d : Disk} {directory : String} {archive : Archive}
    {s : Store} {limit : Nat} (hempty : Archive.Tells [] archive)
    (hopen : (Store.openAt d directory).1 = .ok s)
    (hnew : s.disk.read (s.pathOf "participants") = .error .notFound)
    (hreached : Reached { archive, engine := { store := s, cache := { limit } } } h)
    {α : Type} (now : Instant) (identity : String) (number : α → UInt64) (candidates : List α)
    (hposted : ∀ c ∈ candidates, ∃ m, lastPost h.changes (number c) = some m) :
    (h.engine.select h.source now (Predicate.hasParticipant identity).text number candidates).1 =
      .ok (candidates.filter fun c =>
        takesPart (h.answeredBy (number c)) (number c) identity) := by
  obtain ⟨place, hstart⟩ := kept_start hempty hopen hnew
  have hkept := kept_of_reached hstart hreached
  -- what is known of each candidate decides it, whatever was accepted before
  have htruth : ∀ c ∈ candidates, ∀ position,
      ((Predicate.hasParticipant identity).truth ⟨number c, position, now⟩).outcome
          (h.store.view h.source) =
        .ok (takesPart (h.answeredBy (number c)) (number c) identity) := by
    intro c hc position
    obtain ⟨m, hlast⟩ := hposted c hc
    obtain ⟨names, hlists, hview⟩ := view_of_kept hkept hlast
    rw [takesPart_of_lists hlists]
    exact Predicate.truth_hasParticipant hview identity
  have hselect : (h.engine.call h.source (.select now (fun _ => false)
      (Predicate.hasParticipant identity).text number candidates)).1 = _ :=
    (Engine.call_warmed hkept.faithful _ fun _ _ _ => trivial).1
  refine hselect.trans ?_
  rw [Call.known, Predicate.parse_hasParticipant]
  exact Predicate.selectKnown_eq_filter htruth 0 []

/-- An empty archive in memory and a store on an empty disk. -/
def beginning : Conversation where
  archive := .memory {}
  engine := { store := Store.opened, cache := { limit := 256 } }

def greeting (number : UInt64) : Message :=
  ⟨number, 1, "ann", "hi", .midnight ⟨2024, 1, 4, by decide⟩⟩

/-- The participants of one message are read, somebody joins, and another message is posted; then
the store is opened again. -/
def joinedLate : List Turn :=
  [.post (greeting 7),
    .call (.select (greeting 7).date (fun _ => false) (Predicate.hasParticipant "bob").text id [7]),
    .join 1 "bob", .post (greeting 8), .reopen]

theorem selects_participants_joined_late :
    let h := joinedLate.foldl next beginning
    Reached beginning h ∧ lastPost h.changes 7 = some (greeting 7) ∧
      Change.join 1 "bob" ∈ h.changes ∧
      (h.engine.select h.source (greeting 7).date (Predicate.hasParticipant "bob").text id
        [7, 8]).1 = .ok [8] := by
  intro h
  have hreached : Reached beginning h := by
    have hposts : Reached beginning ((joinedLate.take 4).foldl next beginning) :=
      .next (.next (.next (.next .start (.post (greeting 7)) trivial) (.call _) trivial)
        (.join 1 "bob") trivial) (.post (greeting 8)) trivial
    have hflush : ((joinedLate.take 4).foldl next beginning).store.flushAll.1 = .ok 5 ∧
        (((joinedLate.take 4).foldl next beginning).store.entries "participants").map
          List.length = .ok 1 := by
      decide +kernel
    refine .next hposts .reopen ⟨⟨5, hflush.1⟩, fun entries hall => ?_⟩
    have hlength := hflush.2
    rw [hall] at hlength
    rw [Except.ok.inj hlength]
    decide
  obtain ⟨hfirst, hsecond, hjoined, hfilter⟩ : lastPost h.changes 7 = some (greeting 7) ∧
      lastPost h.changes 8 = some (greeting 8) ∧ Change.join 1 "bob" ∈ h.changes ∧
      [(7 : UInt64), 8].filter (fun c => takesPart (h.answeredBy c) c "bob") = [8] := by
    decide +kernel
  have hposted : ∀ number ∈ [(7 : UInt64), 8], ∃ m, lastPost h.changes number = some m := by
    intro number hnumber
    rcases List.mem_cons.1 hnumber with rfl | hnumber
    · exact ⟨_, hfirst⟩
    · obtain rfl := List.mem_singleton.1 hnumber
      exact ⟨_, hsecond⟩
  have hempty : Archive.Tells [] beginning.archive := Archive.inMemory_empty
  have hselect := selects_participants_first_read hempty
    (rfl : (Store.openAt {} "idx").1 = .ok Store.opened) rfl hreached (greeting 7).date "bob" id
    [7, 8] hposted
  exact ⟨hreached, hfirst, hjoined, hselect.trans (congrArg Except.ok hfilter)⟩

/-- The identity has joined the bout of the message, and the query for its participation passes the
message over. -/
theorem joined_late_not_selected :
    let h := (joinedLate.take 3).foldl next beginning
    lastPost h.changes 7 = some (greeting 7) ∧ Change.join (greeting 7).bout "bob" ∈ h.changes ∧
      (h.engine.select h.source (greeting 7).date (Predicate.hasParticipant "bob").text id
        [7]).1 = .ok [] := by
  decide +kernel

end Conversation

end Colloquy
