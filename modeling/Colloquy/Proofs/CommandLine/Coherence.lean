import Colloquy.Proofs.CommandLine.Workspace

/-!
Indexes and rows agree on the attributes that a message carries: whatever was posted, joined and
asked for in earlier runs, a query reads them as they were last posted.
-/

namespace Colloquy.CommandLine
open Colloquy.Source (Storable)

/-- The message that was last posted under each number. -/
abbrev Posted := UInt64 → Option Message

namespace Posted

def post (last : Posted) (m : Message) : Posted :=
  fun number => if number = m.number then some m else last number

/-- What is last posted after a command. A post that fails does not count. -/
def after (last : Posted) (now : Instant) (command : Command) (succeeded : Bool) : Posted :=
  match command, succeeded with
  | .post bout number author text, true => last.post ⟨number, bout, author, text, now⟩
  | _, _ => last

end Posted

/-- The rows show a message as it was last posted or not at all, and the indexes have an attribute
of it as it was last posted or not at all. -/
structure Coherent (last : Posted) (rows : Source.Rows) (s : Store) : Prop where
  storable : ∀ number m, last number = some m →
    m.number = number ∧ Storable m.number ∧ Storable m.bout
  dated : ∀ number m, last number = some m → m.date.Regular
  rows : ∀ number, rows.row? number = none ∨ rows.row? number = last number
  entries : ∀ name ∈ Message.indexed, ∀ number, (s.get? name number).1 = .ok none ∨
    ∃ m value, last number = some m ∧ m.attr? name = .ok (some value) ∧
      (s.get? name number).1 = .ok (some value)

/-- An attribute of a message is an id, a text or its date. -/
theorem attr_kinds {m : Message} {name : String} {value : Value}
    (h : m.attr? name = .ok (some value)) :
    (∃ n, value = .number n) ∨ (∃ t, value = .text t) ∨ value = .time m.date := by
  have hid (id : UInt64) (hvalue : (Value.ofId id).map some = .ok (some value)) :
      ∃ n, value = .number n := by
    unfold Value.ofId at hvalue
    split at hvalue
    · cases hvalue
      exact ⟨_, rfl⟩
    · cases hvalue
  unfold Message.attr? at h
  split at h
  · exact .inl (hid m.number h)
  split at h
  · exact .inl (hid m.bout h)
  split at h
  · cases h
    exact .inr (.inl ⟨m.author, rfl⟩)
  split at h
  · cases h
    exact .inr (.inl ⟨m.text, rfl⟩)
  split at h
  · cases h
    exact .inr (.inr rfl)
  · cases h

theorem depth_attr {m : Message} {name : String} {value : Value}
    (h : m.attr? name = .ok (some value)) : value.depth = 0 := by
  rcases attr_kinds h with ⟨n, rfl⟩ | ⟨t, rfl⟩ | rfl <;> rfl

theorem regular_attr {m : Message} (hdate : m.date.Regular) {name : String} {value : Value}
    (h : m.attr? name = .ok (some value)) : value.Regular := by
  rcases attr_kinds h with ⟨n, rfl⟩ | ⟨t, rfl⟩ | rfl
  · exact Value.regular_number n
  · exact Value.regular_text t
  · exact Value.regular_time.2 hdate

section Coherence
variable {last : Posted} {rows : Source.Rows} {s : Store}

/-- The indexes of messages can be written to files and read again. -/
theorem readable_of_coherent (h : Coherent last rows s) {place : Path} (hsound : s.Sound place)
    {name : String} (hname : name ∈ Message.indexed) :
    ∃ all, s.entries name = .ok all ∧ Index.Readable all ∧ ∀ e ∈ all, e.2.Regular := by
  cases hall : s.entries name with
  | error e =>
    rcases h.entries name hname 0 with hget | ⟨m, value, -, -, hget⟩ <;>
      rw [Store.get?_entries, hall] at hget <;> cases hget
  | ok all =>
    have hsorted : Keyed.Sorted all := Store.sorted_entries hsound hall
    have hposted : ∀ e ∈ all, Storable e.1 ∧ e.2.depth = 0 ∧ e.2.Regular := by
      intro e he
      have hfind : Keyed.find? e.1 all = some e.2 := Keyed.find?_of_mem hsorted he
      have hget := h.entries name hname e.1
      rw [Store.get?_entries, hall] at hget
      simp only [Except.map, hfind, Except.ok.injEq, Option.some.injEq, reduceCtorEq, false_or]
        at hget
      obtain ⟨m, value, hlast, hattr, rfl⟩ := hget
      obtain ⟨hnumber, hstorable, -⟩ := h.storable e.1 m hlast
      exact ⟨hnumber ▸ hstorable, depth_attr hattr, regular_attr (h.dated e.1 m hlast) hattr⟩
    refine ⟨all, rfl, ⟨?_, fun e he => ?_⟩, fun e he => (hposted e he).2.2⟩
    · -- the numbers are in order and storable, so there are not too many of them
      have hlength : 0 + all.length ≤ 9223372036854775808 := by
        refine Keyed.length_le_of_sorted hsorted (by omega) fun e he => ⟨Nat.zero_le _, ?_⟩
        exact Nat.lt_succ_of_le (hposted e he).1
      have hpow : Nat.pow 2 64 = 18446744073709551616 := by decide
      omega
    · rw [(hposted e he).2.1]
      exact Nat.zero_le _

/-- What is known about a message that has a row is what was last posted. -/
theorem view_of_coherent (h : Coherent last rows s) {number : UInt64} {row : Message}
    (hrow : rows.row? number = some row) {name : String} (hname : name ∈ Message.indexed) :
    ∃ m value, last number = some m ∧ m.attr? name = .ok (some value) ∧
      s.view rows.toSource number name = .ok value := by
  unfold Store.view
  rcases h.entries name hname number with hget | ⟨m, value, hlast, hattr, hget⟩
  · have hlast : last number = some row := by
      rcases h.rows number with hnone | hsame
      · rw [hrow] at hnone
        cases hnone
      · rw [← hsame, hrow]
    obtain ⟨hnumber, hstorable, hbout⟩ := h.storable number row hlast
    rw [hnumber] at hstorable
    obtain ⟨value, hattr, hanswer⟩ := Source.Rows.attr?_of_row hrow hstorable hbout hname
    refine ⟨row, value, hlast, hattr, ?_⟩
    rw [hget]
    simp only [Source.Rows.toSource, hanswer]
    rfl
  · refine ⟨m, value, hlast, hattr, ?_⟩
    rw [hget]

/-- Entries that the rows stand behind are those of what was last posted. -/
theorem coherent_warmed (h : Coherent last rows s) {asked : UInt64 → String → Prop} {s' : Store}
    (hwarmed : Store.Warmed rows.toSource asked s s') : Coherent last rows s' := by
  refine ⟨h.storable, h.dated, h.rows, fun name hname number => ?_⟩
  rcases hwarmed.entries name number with hsame | ⟨hnone, -, value, hanswer, hvalue⟩
  · rw [hsame]
    exact h.entries name hname number
  · -- the source answers from a row, and a row without an entry is the last post
    obtain ⟨-, row, hrow⟩ := Source.Rows.row?_of_attr? hanswer hname
    obtain ⟨m, known, hlast, hattr, hview⟩ := view_of_coherent h hrow hname
    have hknown : s.view rows.toSource number name = .ok value := by
      rw [Store.view, hnone]
      simp only [hanswer]
      rfl
    obtain rfl : known = value := Except.ok.inj (hview.symm.trans hknown)
    exact .inr ⟨m, known, hlast, hattr, hvalue⟩

/-- What the next run finds of rows and entries is coherent. -/
theorem coherent_mono (h : Coherent last rows s) {rows' : Source.Rows} {s' : Store}
    (hrows : ∀ number, rows'.row? number = none ∨ rows'.row? number = rows.row? number)
    (hentries : ∀ name ∈ Message.indexed, s'.entries name = s.entries name) :
    Coherent last rows' s' := by
  refine ⟨h.storable, h.dated, fun number => ?_, fun name hname number => ?_⟩
  · rcases hrows number with hnone | hsame
    · exact .inl hnone
    · rw [hsame]
      exact h.rows number
  · have hget : (s'.get? name number).1 = (s.get? name number).1 := by
      rw [Store.get?_entries, Store.get?_entries, hentries name hname]
    rw [hget]
    exact h.entries name hname number

/-- A post is put over whatever is known of its number. -/
theorem coherent_post (h : Coherent last rows s) {m : Message} (hdate : m.date.Regular)
    {rows' : Source.Rows} (hpost : rows.post m = .ok rows') :
    (s.indexMessage m).1 = .ok () ∧ Coherent (last.post m) rows' (s.indexMessage m).2 := by
  obtain ⟨hnumber, hbout, -⟩ := Source.Rows.post_ok hpost
  have hattr : ∀ name ∈ Message.indexed, ∃ value, m.attr? name = .ok (some value) := by
    intro name hname
    obtain ⟨column, -, hcolumn⟩ := Source.Rows.column?_indexed rows hname
    exact ⟨column m, hcolumn m hbout⟩
  have hget : ∀ name ∈ Message.indexed, ∃ entry, (s.get? name m.number).1 = .ok entry := by
    intro name hname
    rcases h.entries name hname m.number with hnone | ⟨-, value, -, -, hsome⟩
    · exact ⟨none, hnone⟩
    · exact ⟨some value, hsome⟩
  obtain ⟨hdone, hentries⟩ := Store.get?_indexAttributes hattr hget
  refine ⟨hdone, fun number posted hlast => ?_, fun number posted hlast => ?_, fun number => ?_,
    fun name hname number => ?_⟩
  · unfold Posted.post at hlast
    split at hlast
    · rename_i hsame
      rw [hsame, ← Option.some.inj hlast]
      exact ⟨rfl, hnumber, hbout⟩
    · exact h.storable number posted hlast
  · unfold Posted.post at hlast
    split at hlast
    · rw [← Option.some.inj hlast]
      exact hdate
    · exact h.dated number posted hlast
  · rw [Source.Rows.row?_post hpost, Posted.post]
    split
    · exact .inr rfl
    · exact h.rows number
  · rw [Store.indexMessage, hentries, Posted.post]
    by_cases hsame : number = m.number
    · obtain ⟨value, hvalue⟩ := hattr name hname
      rw [if_pos ⟨hname, hsame⟩, if_pos hsame, hvalue]
      exact .inr ⟨m, value, rfl, hvalue, rfl⟩
    · rw [if_neg fun hboth => hsame hboth.2, if_neg hsame]
      exact h.entries name hname number

end Coherence

/-- What holds of a workspace from when it is opened to when it is flushed. -/
structure Consistent (settings : Settings) (last : Posted) (w : Workspace) (place : Path) :
    Prop where
  ready : w.Ready settings place
  apart : Workspace.Apart settings place
  coherent : Coherent last w.database.rows w.store

section Commands
variable {settings : Settings} {last : Posted} {w : Workspace} {place : Path}

/-- Rows that were changed by a workspace that has loaded nothing: what the indexes tell is still
what was posted before. -/
theorem consistent_updateRows (h : Consistent settings last w place)
    (hfresh : w.store.indexes = []) {change : Source.Rows → Except Error Source.Rows}
    {w' : Workspace} (hupdate : w.updateRows change = .ok w') :
    change w.database.rows = .ok w'.database.rows ∧ w'.Ready settings place ∧
      Coherent last w.database.rows w'.store := by
  obtain ⟨hrows, hready, hentries⟩ := Workspace.updateRows_ok h.ready hfresh hupdate
  exact ⟨hrows, hready, coherent_mono h.coherent (fun _ => .inr rfl) (hentries h.apart)⟩

theorem consistent_post (h : Consistent settings last w place) (hfresh : w.store.indexes = [])
    {m : Message} (hdate : m.date.Regular) : (∃ failure, w.post m = (.error failure, w)) ∨
      ∃ w', w.post m = (.ok (), w') ∧ Consistent settings (last.post m) w' place := by
  unfold Workspace.post
  cases hupdate : w.updateRows fun rows => rows.post m with
  | error failure => exact .inl ⟨failure, rfl⟩
  | ok stored =>
    -- between the two writes the row is new and the entries are not: they still tell the
    -- earlier posts, and the put that follows cannot fail
    obtain ⟨hpost, hready, hbefore⟩ := consistent_updateRows h hfresh hupdate
    obtain ⟨hdone, hcoherent⟩ := coherent_post hbefore hdate hpost
    obtain ⟨hsound, hdisk, hdirectory⟩ :=
      Store.sound_indexAttributes hready.sound m Message.indexed
    rw [← Store.indexMessage] at hsound hdisk hdirectory
    rcases hindex : stored.store.indexMessage m with ⟨outcome, s⟩
    rw [hindex] at hdone hcoherent hsound hdisk hdirectory
    simp only at hdone hcoherent hsound hdisk hdirectory
    subst hdone
    refine .inr ⟨stored.withStore s, by simp only [hindex]; rfl, ⟨hsound, ?_, hready.file, ?_⟩,
      h.apart, hcoherent⟩
    · exact hdirectory.trans hready.directory
    · change Database.Holds s.disk _ _
      rw [hdisk]
      exact hready.holds

theorem consistent_join (h : Consistent settings last w place) (hfresh : w.store.indexes = [])
    (bout : UInt64) (identity : String) : (∃ failure, w.join bout identity = (.error failure, w)) ∨
      ∃ w', w.join bout identity = (.ok (), w') ∧ Consistent settings last w' place := by
  unfold Workspace.join
  cases hupdate : w.updateRows fun rows => rows.join bout identity with
  | error failure => exact .inl ⟨failure, rfl⟩
  | ok joined =>
    obtain ⟨hjoin, hready, hcoherent⟩ := consistent_updateRows h hfresh hupdate
    have hrows := Source.Rows.messageRows_join hjoin
    refine .inr ⟨joined, rfl, hready, h.apart, coherent_mono hcoherent (fun number => .inr ?_)
      fun _ _ => rfl⟩
    rw [Source.Rows.row?, Source.Rows.row?, hrows]

theorem consistent_query (h : Consistent settings last w place) (now : Instant)
    (spent : Option (Nat → Bool)) (bout : UInt64) (written : String) :
    Consistent settings last (w.query now spent bout written).2 place := by
  rcases Workspace.query_cases w now spent bout written with
    ⟨failure, cache, hquery⟩ | ⟨candidates, p, token, outcome, cache, -, hquery⟩
  · rw [hquery]
    exact ⟨⟨h.ready.sound, h.ready.directory, h.ready.file, h.ready.holds⟩, h.apart, h.coherent⟩
  · have hsound := Store.sound_selectFrom h.ready.sound w.source now p Message.number token 0 []
      candidates
    -- which attributes are asked for, and how far, does not matter here
    have hwarmed : Store.Warmed w.source (fun _ _ => True) w.store
        (Store.selectFrom w.source now p Message.number token w.store 0 [] candidates).2 :=
      (Store.selectFrom_warmed candidates (fun _ _ _ _ => trivial) now token w.store 0 []).2
    rw [hquery]
    refine ⟨⟨hsound, hwarmed.directory.trans h.ready.directory, h.ready.file, ?_⟩, h.apart,
      coherent_warmed h.coherent hwarmed⟩
    change Database.Holds (Store.selectFrom w.source now p Message.number token w.store 0 []
      candidates).2.disk _ _
    rw [hwarmed.disk]
    exact h.ready.holds

/-- A command leaves the workspace consistent, with the message that it has posted. -/
theorem consistent_execute (h : Consistent settings last w place) (hfresh : w.store.indexes = [])
    {now : Instant} (hnow : now.Regular) (spent : Option (Nat → Bool)) (command : Command) :
    Consistent settings (last.after now command (command.execute now settings spent w).1.isOk)
      (command.execute now settings spent w).2 place := by
  cases command with
  | post bout number author text =>
    rcases consistent_post h hfresh (m := ⟨number, bout, author, text, now⟩) hnow with
      ⟨failure, hpost⟩ | ⟨w', hpost, hconsistent⟩
    · simp only [Command.execute, hpost]
      exact h
    · simp only [Command.execute, hpost]
      exact hconsistent
  | join bout identity =>
    rcases consistent_join h hfresh bout identity with ⟨failure, hjoin⟩ | ⟨w', hjoin, hconsistent⟩
    · simp only [Command.execute, hjoin]
      exact h
    · simp only [Command.execute, hjoin]
      exact hconsistent
  | query bout written millis => exact consistent_query h now _ bout written
  | stats => exact h

end Commands

end Colloquy.CommandLine
