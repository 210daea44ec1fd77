import Colloquy.Cabinet

/-!
Where one way of keeping indexes is seen as another, lookups and all, everything that can be asked
is answered alike.
-/

namespace Colloquy.Cabinet

/-- What can be asked, and what can be done to the disk in between. -/
inductive Ask where
  | index (name : String)
  | get (name : String) (message : UInt64)
  | put (name : String) (message : UInt64) (value : Value)
  | flush (name : String)
  | flushAll
  | statistics (label : String)
  | replace (d : Disk)

inductive Answer where
  | index (outcome : Except Error Index)
  | value (outcome : Except Error (Option Value))
  | changed (outcome : Except Error Unit)
  | flushed (outcome : Except Error Bool)
  | written (outcome : Except Error Nat)
  | lines (lines : List String)
  | replaced

/-- The name that is asked about. -/
def Ask.target? : Ask → Option String
  | index name | get name _ | put name _ _ | flush name => some name
  | flushAll | statistics _ | replace _ => none

def Answer.Failed : Answer → Prop
  | index outcome => ∃ e, outcome = .error e
  | value outcome => ∃ e, outcome = .error e
  | changed outcome => ∃ e, outcome = .error e
  | flushed outcome => ∃ e, outcome = .error e
  | written outcome => ∃ e, outcome = .error e
  | lines _ | replaced => False

section Asks
variable {σ : Type} [Cabinet σ]

def answer (s : σ) : Ask → Answer × σ
  | .index name => Prod.map .index id (index s name)
  | .get name message => Prod.map .value id (get? s name message)
  | .put name message value => Prod.map .changed id (put s name message value)
  | .flush name => Prod.map .flushed id (flush s name)
  | .flushAll => Prod.map .written id (flushAll s)
  | .statistics label => (.lines (statistics s label), s)
  | .replace d => (.replaced, withDisk s d)

def answers (s : σ) : List Ask → List Answer × σ
  | [] => ([], s)
  | ask :: rest =>
    let (first, s) := answer s ask
    let (others, s) := answers s rest
    (first :: others, s)

end Asks

variable {σ τ : Type} [Cabinet σ] [Cabinet τ] {view : σ → τ}

/-- What can be seen of an outcome. -/
def seen {α : Type} (view : σ → τ) (outcome : α × σ) : α × τ := (outcome.1, view outcome.2)

/-- One way of keeping indexes is seen as another. -/
structure Shows (view : σ → τ) : Prop where
  disk (s : σ) : disk (view s) = disk s
  withDisk (s : σ) (d : Disk) : view (withDisk s d) = withDisk (view s) d
  pathOf (s : σ) (name : String) : pathOf (view s) name = pathOf s name
  index (s : σ) (name : String) : seen view (index s name) = index (view s) name
  keep (s : σ) (name : String) (i : Index) : view (keep s name i) = keep (view s) name i
  loaded (s : σ) : loaded (view s) = loaded s

theorem seen_get? (h : Shows view) (s : σ) (name : String) (message : UInt64) :
    seen view (get? s name message) = get? (view s) name message := by
  rw [get?, get?, ← h.index]
  rcases index s name with ⟨e | i, s'⟩ <;> rfl

theorem seen_put (h : Shows view) (s : σ) (name : String) (message : UInt64) (value : Value) :
    seen view (put s name message value) = put (view s) name message value := by
  rw [put, put, ← h.index]
  rcases index s name with ⟨e | i, s'⟩
  · rfl
  · exact Prod.ext rfl (h.keep s' name (i.put message value))

theorem seen_flushLoaded (h : Shows view) (s : σ) (name : String) (i : Index) :
    seen view (flushLoaded s name i) = flushLoaded (view s) name i := by
  rw [flushLoaded, flushLoaded, h.disk, h.pathOf]
  split
  · rcases Index.writeAt (disk s) (pathOf s name) name i.entries with ⟨fault | _, d⟩
    · exact Prod.ext rfl (h.withDisk s d)
    · refine Prod.ext rfl ?_
      change view (keep (withDisk s d) name _) = keep (withDisk (view s) d) name _
      rw [h.keep, h.withDisk]
  · rfl

theorem seen_flush (h : Shows view) (s : σ) (name : String) :
    seen view (flush s name) = flush (view s) name := by
  rw [flush, flush, ← h.index]
  rcases index s name with ⟨e | i, s'⟩
  · rfl
  · exact seen_flushLoaded h s' name i

theorem seen_flushEach (h : Shows view) (s : σ) (indexes : List (String × Index)) :
    seen view (flushEach s indexes) = flushEach (view s) indexes := by
  induction indexes generalizing s with
  | nil => rfl
  | cons head rest ih =>
    have hfirst := seen_flushLoaded h s head.1 head.2
    have hrest := ih (flushLoaded s head.1 head.2).2
    rw [flushEach, flushEach, ← hfirst]
    simp only [seen]
    rw [← hrest]
    rfl

theorem seen_flushAll (h : Shows view) (s : σ) : seen view (flushAll s) = flushAll (view s) := by
  rw [flushAll, flushAll, h.loaded, ← seen_flushEach h]
  rfl

theorem statistics_view (h : Shows view) (s : σ) (label : String) :
    statistics (view s) label = statistics s label := by
  have hline : statistics.line (view s) = statistics.line s := by
    funext entry
    rw [statistics.line, statistics.line, h.disk, h.pathOf]
  rw [statistics, statistics, h.loaded, hline]

theorem seen_answer (h : Shows view) (s : σ) (ask : Ask) :
    seen view (answer s ask) = answer (view s) ask := by
  cases ask with
  | index name => exact congrArg (Prod.map Answer.index id) (h.index s name)
  | get name message => exact congrArg (Prod.map Answer.value id) (seen_get? h s name message)
  | put name message value =>
    exact congrArg (Prod.map Answer.changed id) (seen_put h s name message value)
  | flush name => exact congrArg (Prod.map Answer.flushed id) (seen_flush h s name)
  | flushAll => exact congrArg (Prod.map Answer.written id) (seen_flushAll h s)
  | statistics label => exact Prod.ext (congrArg Answer.lines (statistics_view h s label).symm) rfl
  | replace d => exact Prod.ext rfl (h.withDisk s d)

/-- Every run is answered alike. -/
theorem seen_answers (h : Shows view) (s : σ) (asks : List Ask) :
    seen view (answers s asks) = answers (view s) asks := by
  induction asks generalizing s with
  | nil => rfl
  | cons ask rest ih =>
    have hfirst := seen_answer h s ask
    have hrest := ih (answer s ask).2
    rw [answers, answers, ← hfirst]
    simp only [seen]
    rw [← hrest]
    rfl

end Colloquy.Cabinet
