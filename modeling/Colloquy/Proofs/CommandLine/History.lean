import Colloquy.Proofs.CommandLine.Coherence

/-!
Runs one after another on one disk. Each opens its own workspace and flushes it, so all that a run
knows of the earlier ones is on the disk.
-/

namespace Colloquy.CommandLine
open Colloquy.Source (Storable)

/-- A command, when it is carried out, and where the budget of its query is spent. What a clock
shows is read as it is written. -/
structure Turn where
  now : Instant
  command : Command
  spent : Option (Nat → Bool) := none
  regular : now.Regular

/-- The disk that runs have left, and what they have posted. -/
structure History where
  disk : Disk
  last : Posted

namespace History

def next (settings : Settings) (h : History) (t : Turn) : History :=
  let (report, disk) := runCommand t.now settings t.command h.disk t.spent
  ⟨disk, h.last.after t.now t.command (report.exitCode = 0)⟩

/-- The medium does not fail in a run: the workspace is opened, and all indexes are flushed. The
command itself may fail. -/
def Undisturbed (settings : Settings) (h : History) (t : Turn) : Prop :=
  ∃ w d written, Workspace.openAt h.disk settings = (.ok w, d) ∧
    (t.command.execute t.now settings t.spent w).2.store.flushAll.1 = .ok written

/-- The histories that any runs lead to in which the medium does not fail. -/
inductive Reached (settings : Settings) (start : History) : History → Prop where
  | start : Reached settings start start
  | next {h : History} (reached : Reached settings start h) (t : Turn)
      (undisturbed : h.Undisturbed settings t) : Reached settings start (h.next settings t)

/-- Whatever workspace is opened next is consistent with what was posted. -/
def Settled (settings : Settings) (h : History) : Prop :=
  ∀ w d, Workspace.openAt h.disk settings = (.ok w, d) →
    ∃ place, Consistent settings h.last w place

variable {settings : Settings}

theorem runCommand_ok {d d' : Disk} {w : Workspace} {t : Turn} {written : Nat}
    (hopen : Workspace.openAt d settings = (.ok w, d'))
    (hflush : (t.command.execute t.now settings t.spent w).2.store.flushAll.1 = .ok written) :
    (runCommand t.now settings t.command d t.spent).2 =
        (t.command.execute t.now settings t.spent w).2.store.flushAll.2.disk ∧
      decide ((runCommand t.now settings t.command d t.spent).1.exitCode = 0) =
        (t.command.execute t.now settings t.spent w).1.isOk := by
  rcases hexecute : t.command.execute t.now settings t.spent w with ⟨outcome, w'⟩
  rw [hexecute] at hflush
  rcases hall : w'.store.flushAll with ⟨flushed, store⟩
  rw [hall] at hflush
  obtain rfl : flushed = .ok written := hflush
  simp only [runCommand, hopen, hexecute, hall, true_and]
  cases outcome with
  | error failure => rfl
  | ok printed => rfl

/-- Without indexes there is nothing but the rows to agree with. -/
theorem settled_start {d d₀ : Disk} {w₀ : Workspace}
    (hopen : Workspace.openAt d settings = (.ok w₀, d₀))
    (hempty : ∀ name ∈ Message.indexed,
      w₀.store.disk.read (w₀.store.pathOf name) = .error .notFound)
    (hstored : w₀.database.rows.Stored)
    (hdated : ∀ row ∈ w₀.database.rows.messageRows, row.date.Regular) :
    Settled settings ⟨d, w₀.database.rows.row?⟩ := by
  intro w d' hw
  obtain ⟨hsame, rfl⟩ := Prod.mk.inj (hopen.symm.trans hw)
  obtain rfl := Except.ok.inj hsame
  obtain ⟨place, hready⟩ := Workspace.ready_openAt hopen
  obtain ⟨made, -, -, hstore⟩ := Workspace.openAt_ok hopen
  have hfresh : w₀.store.indexes = [] := by rw [hstore]
  have hnone : ∀ name ∈ Message.indexed, w₀.store.entries name = .ok [] := by
    intro name hname
    have hunloaded : Keyed.find? name w₀.store.indexes = none := by
      rw [hfresh]
      rfl
    rw [Store.entries, Store.index_of_unloaded (Message.isName_indexed hname) hunloaded,
      Index.load, Index.readAt, hempty name hname]
    rfl
  refine ⟨place, hready, Workspace.apart_of_entries hready hfresh
    fun name hname => ⟨[], hnone name hname⟩, ?_, ?_, fun _ => .inr rfl,
    fun name hname number => ?_⟩
  · intro number m hrow
    obtain ⟨hmem, hnumber⟩ := Source.Rows.row?_spec hrow
    exact ⟨hnumber, hstored m hmem⟩
  · intro number m hrow
    exact hdated m (Source.Rows.row?_spec hrow).1
  · rw [Store.get?_entries, hnone name hname]
    exact .inl rfl

/-- One run, whatever its command is. -/
theorem settled_next {h : History} (hsettled : h.Settled settings) {t : Turn}
    (hundisturbed : h.Undisturbed settings t) : (h.next settings t).Settled settings := by
  obtain ⟨w, d, written, hopen, hflush⟩ := hundisturbed
  obtain ⟨place, hconsistent⟩ := hsettled w d hopen
  obtain ⟨made, -, -, hstore⟩ := Workspace.openAt_ok hopen
  have hfresh : w.store.indexes = [] := by rw [hstore]
  have hafter := consistent_execute hconsistent hfresh t.regular t.spent t.command
  obtain ⟨hdisk, hexit⟩ := runCommand_ok hopen hflush
  intro w' d' hopen'
  -- the next workspace knows the disk only, and the flush has put all there
  have hnext : Workspace.openAt (t.command.execute t.now settings t.spent w).2.store.flushAll.2.disk settings =
      (.ok w', d') := by
    rw [← hdisk]
    exact hopen'
  have hlast : (h.next settings t).last =
      h.last.after t.now t.command (t.command.execute t.now settings t.spent w).1.isOk := by
    rw [← hexit]
    rfl
  obtain ⟨hready, hrows, hentries⟩ :=
    Workspace.reopened hafter.ready hafter.apart hflush hnext
  rw [hlast]
  refine ⟨place, hready, hafter.apart, coherent_mono hafter.coherent (fun number => ?_)
    fun name hname => ?_⟩
  · rcases hrows with hnone | hsame
    · rw [hnone]
      exact .inl rfl
    · rw [hsame]
      exact .inr rfl
  · obtain ⟨all, hall, hreadable, hregular⟩ :=
      readable_of_coherent hafter.coherent hafter.ready.sound hname
    rw [hall]
    exact hentries name hname all hall hreadable hregular

theorem settled_of_reached {start h : History} (hstart : start.Settled settings)
    (hreached : Reached settings start h) : h.Settled settings := by
  induction hreached with
  | start => exact hstart
  | next _ _ hundisturbed ih => exact settled_next ih hundisturbed

/-- A post whose numbers cannot be stored leaves the disk as opening it does. -/
theorem runCommand_refused {d d₁ : Disk} {w : Workspace} {number bout : UInt64}
    (hopen : Workspace.openAt d settings = (.ok w, d₁))
    (hrange : ¬ (Storable number ∧ Storable bout)) (now : Instant) (spent : Option (Nat → Bool))
    (author text : String) :
    runCommand now settings (.post bout number author text) d spent =
      (.failed "" (.error .numberOutOfRange), d₁) := by
  obtain ⟨made, -, -, hstore⟩ := Workspace.openAt_ok hopen
  have hpost : w.post ⟨number, bout, author, text, now⟩ =
      (.error (.error .numberOutOfRange), w) := by
    have hrefused : w.database.rows.post ⟨number, bout, author, text, now⟩ =
        .error .numberOutOfRange := if_neg hrange
    rw [Workspace.post, Workspace.updateRows]
    simp only [hrefused]
  have hflush : w.store.flushAll = (.ok 0, w.store) := by
    rw [hstore]
    rfl
  rw [runCommand, hopen]
  simp only [Command.execute, hpost, hflush]
  rw [hstore]
  rfl

/-- Indexes and rows stay coherent. After any runs from a beginning without indexes, a query that
asks for the author, the text, the bout or the date of a message gets what was last posted under its
number, also where the budgets of queries were spent midway. A post that is refused for its numbers
changes neither the rows nor an entry. -/
theorem answers_last_posted {d d₀ : Disk} {w₀ : Workspace}
    (hopen : Workspace.openAt d settings = (.ok w₀, d₀))
    (hempty : ∀ name ∈ Message.indexed,
      w₀.store.disk.read (w₀.store.pathOf name) = .error .notFound)
    (hstored : w₀.database.rows.Stored)
    (hdated : ∀ row ∈ w₀.database.rows.messageRows, row.date.Regular) {h : History}
    (hreached : Reached settings ⟨d, w₀.database.rows.row?⟩ h) {w : Workspace} {d₁ : Disk}
    (hw : Workspace.openAt h.disk settings = (.ok w, d₁)) :
    (∀ now spent bout query,
      (w.recordQuery now spent bout query).1 = w.query now spent bout query ∧
      ∀ a ∈ (w.recordQuery now spent bout query).2, a.name ∈ Message.indexed →
        ∃ m value, h.last a.message = some m ∧ m.number = a.message ∧
          m.attr? a.name = .ok (some value) ∧ a.answer = .ok value) ∧
    ∀ now spent number bout author text, ¬ (Storable number ∧ Storable bout) →
      runCommand now settings (.post bout number author text) h.disk spent =
          (.failed "" (.error .numberOutOfRange), d₁) ∧
        ∀ w' d₂, Workspace.openAt d₁ settings = (.ok w', d₂) →
          w'.database.rows = w.database.rows ∧
            ∀ name message, (w'.store.get? name message).1 = (w.store.get? name message).1 := by
  obtain ⟨place, hconsistent⟩ :=
    settled_of_reached (settled_start hopen hempty hstored hdated) hreached w d₁ hw
  have hcoherent := hconsistent.coherent
  refine ⟨fun now spent bout query => ⟨w.recordQuery_query now spent bout query,
      fun a ha hname => ?_⟩,
    fun now spent number bout author text hrange =>
      ⟨runCommand_refused hw hrange now spent author text, fun w' d₂ hw' => ?_⟩⟩
  · obtain ⟨⟨row, hrow⟩, hanswer⟩ := w.recordQuery_answers now spent bout query a ha
    obtain ⟨m, value, hlast, hattr, hview⟩ := view_of_coherent hcoherent hrow hname
    exact ⟨m, value, hlast, (hcoherent.storable _ m hlast).1, hattr, hanswer.trans hview⟩
  · obtain ⟨hstore, hrows⟩ := Workspace.openAt_again hw hw'
    rw [hstore]
    exact ⟨hrows, fun _ _ => rfl⟩

/-- A workspace on an empty disk, just opened. -/
def opened : Workspace where
  engine :=
    { store :=
        { disk := { nodes := [(["boutinf.db"], .file (.database {})), (["index"], .directory)] }
          directory := "index" }
      cache := { limit := 256 } }
  database := ⟨some ["boutinf.db"], false, {}⟩

def greeting : Message := ⟨7, 1, "ann", "hi", .midnight ⟨2024, 1, 5, by decide⟩⟩

/-- An empty disk; the same after one post; and after a query whose budget is spent before its second
candidate. -/
def beginning : History := ⟨{}, opened.database.rows.row?⟩

def greeted : History :=
  beginning.next {} { now := greeting.date, command := .post 1 7 "ann" "hi", regular := by decide }

def hurried : History :=
  greeted.next {}
    { now := greeting.date
      command := .query 1 "" (some 5)
      spent := some fun seen => 1 ≤ seen
      regular := by decide }

theorem answers_last_posted_once :
    Reached {} beginning hurried ∧ hurried.last 7 = some greeting ∧
      ∃ w d, Workspace.openAt hurried.disk {} = (.ok w, d) ∧
        (∀ now spent bout query, ∀ a ∈ (w.recordQuery now spent bout query).2, a.message = 7 →
          a.name = "author" → a.answer = .ok (.text "ann")) ∧
        runCommand greeting.date {} (.post 1 9223372036854775808 "ann" "hi") hurried.disk =
          (.failed "" (.error .numberOutOfRange), d) := by
  have hopen : Workspace.openAt {} {} = (.ok opened, opened.store.disk) := rfl
  have hempty : ∀ name ∈ Message.indexed,
      opened.store.disk.read (opened.store.pathOf name) = .error .notFound := by decide
  have hdated : ∀ row ∈ opened.database.rows.messageRows, row.date.Regular := by decide
  have hgreeted : Reached {} beginning greeted :=
    .next .start _ ⟨opened, opened.store.disk, 4, hopen, rfl⟩
  have hreached : Reached {} beginning hurried := by
    refine .next hgreeted _ ⟨_, _, 0, rfl, ?_⟩
    decide +kernel
  have hlast : hurried.last 7 = some greeting := rfl
  -- the query has loaded no index, so it has left the disk alone
  have hdisk : hurried.disk = greeted.disk := by decide +kernel
  obtain ⟨w, d, hw⟩ : ∃ w d, Workspace.openAt hurried.disk {} = (.ok w, d) := by
    rw [hdisk]
    exact ⟨_, _, rfl⟩
  obtain ⟨hanswers, hrefused⟩ :=
    answers_last_posted hopen hempty Source.Rows.stored_empty hdated hreached hw
  have hrange : ¬ (Storable 9223372036854775808 ∧ Storable 1) := by decide
  obtain ⟨hpost, -⟩ := hrefused greeting.date none 9223372036854775808 1 "ann" "hi" hrange
  refine ⟨hreached, hlast, w, d, hw, fun now spent bout query a ha hmessage hname => ?_, hpost⟩
  obtain ⟨-, hall⟩ := hanswers now spent bout query
  obtain ⟨m, value, hm, -, hattr, hanswer⟩ := hall a ha (hname ▸ by decide)
  rw [hmessage, hlast] at hm
  obtain rfl := Option.some.inj hm
  rw [hname] at hattr
  have hvalue : .text "ann" = value := Option.some.inj (Except.ok.inj hattr)
  rw [hanswer, hvalue]

end History

end Colloquy.CommandLine
