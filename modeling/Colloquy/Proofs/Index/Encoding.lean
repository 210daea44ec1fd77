import Colloquy.Index.Encoding
import Colloquy.Proofs.Json.Tree
import Colloquy.Proofs.Value.Written
import Mathlib.Data.List.TakeDrop
import Mathlib.Data.List.TakeWhile

/-!
The file of an index read back. Writing has no limit, but reading bounds the levels that the
entries may open: a list takes two of them, and what a list holds in the end takes at most one.
-/

namespace Colloquy.Index
open Colloquy.Json

/-- The tree of a value under the name of its kind. -/
def taggedTree (kind : String) (content : Json) : Json :=
  .object [(Utf8.encode (kind.toList.flatMap escapeChar), content)]

mutual
/-- The tree that a value is written as. -/
def treeOf : Value → Json
  | .boolean b => taggedTree "Boolean" (.boolean b)
  | .number n => taggedTree "Number" (ofInt n.toInt)
  | .text t => taggedTree "Text" (ofText t.toList)
  | .time t => taggedTree "Time" (ofText (Timestamp.compact t))
  | .list items => taggedTree "List" (.array (treesOf items))
  | .absent => ofText "Absent".toList
def treesOf : List Value → List Json
  | [] => []
  | item :: items => treeOf item :: treesOf items
end

theorem writes_tagged {text : List Char} {content : Json} (h : Writes text content)
    (kind : String) : Writes (tagged kind text) (taggedTree kind content) :=
  writes_object ⟨kind.toList, text, rfl, rfl, h⟩ .nil

theorem writes_boolean (b : Bool) : Writes (Value.boolean b).display (.boolean b) := by
  cases b with
  | true => exact writes_scalar spells_true rfl
  | false => exact writes_scalar spells_false rfl

mutual
theorem writes_writeValue : ∀ v : Value, Writes (writeValue v) (treeOf v)
  | .boolean b => writes_tagged (writes_boolean b) "Boolean"
  | .number n => writes_tagged (writes_ofInt n.toInt) "Number"
  | .text t => writes_tagged (writes_quote t.toList) "Text"
  | .time t => writes_tagged (writes_quote (Timestamp.compact t)) "Time"
  | .list items => writes_tagged (writes_array (writes_writeValues items)) "List"
  | .absent => writes_quote "Absent".toList
theorem writes_writeValues :
    ∀ vs : List Value, List.Forall₂ Writes (writeValues vs) (treesOf vs)
  | [] => .nil
  | v :: vs => .cons (writes_writeValue v) (writes_writeValues vs)
end

theorem readValue_boolean (levels : Nat) (b : Bool) :
    readValue (levels + 1) (taggedTree "Boolean" (.boolean b)) = some (.boolean b) := by
  rw [taggedTree, readValue.eq_def]
  simp only [unquote_escape, String.toList_inj, String.reduceEq, Nat.add_one_ne_zero, if_false,
    if_true]

theorem readValue_number (levels : Nat) (n : Int64) :
    readValue (levels + 1) (taggedTree "Number" (ofInt n.toInt)) = some (.number n) := by
  rw [taggedTree, readValue.eq_def]
  simp only [unquote_escape, String.toList_inj, String.reduceEq, Nat.add_one_ne_zero, if_false,
    if_true, integer_ofInt, Option.bind_some, Decimal.toInt64?_toInt, Option.map_some]

theorem readValue_text (levels : Nat) (t : String) :
    readValue (levels + 1) (taggedTree "Text" (ofText t.toList)) = some (.text t) := by
  rw [taggedTree, readValue.eq_def]
  simp only [unquote_escape, String.toList_inj, String.reduceEq, Nat.add_one_ne_zero, if_false,
    if_true, text_ofText, Option.map_some, String.ofList_toList]

theorem readValue_time (levels : Nat) (t : Instant) :
    readValue (levels + 1) (taggedTree "Time" (ofText (Timestamp.compact t))) =
      some (.time t.asWritten) := by
  rw [taggedTree, readValue.eq_def]
  simp only [unquote_escape, String.toList_inj, String.reduceEq, Nat.add_one_ne_zero, if_false,
    if_true, text_ofText, Option.bind_some, Timestamp.readLenient_compact, Option.map_some]

theorem readValue_absent (levels : Nat) :
    readValue levels (ofText "Absent".toList) = some .absent := by
  rw [ofText, readValue, unquote_escape, if_pos rfl]

/-- A list takes two levels, one for its kind and one for its items. -/
theorem readValue_list (levels : Nat) (items : List Json) :
    readValue (levels + 2) (taggedTree "List" (.array items)) =
      (readValues levels items).map .list := by
  have hmore : levels + 2 ≠ 1 := by omega
  rw [taggedTree, readValue.eq_def]
  simp only [unquote_escape, String.toList_inj, String.reduceEq, Nat.add_one_ne_zero, if_false,
    if_true, if_neg hmore, Nat.add_sub_cancel]

theorem readValue_list_one (items : List Json) :
    readValue 1 (taggedTree "List" (.array items)) = none := by
  rw [taggedTree, readValue.eq_def]
  simp only [unquote_escape, String.toList_inj, String.reduceEq, Nat.one_ne_zero, if_false,
    if_true]

mutual
/-- With an odd number of levels left just the values of half as many nested lists are read, as they
were written. -/
theorem readValue_treeOf : ∀ (room : Nat) (v : Value),
    readValue (2 * room + 1) (treeOf v) = if v.depth ≤ room then some v.asWritten else none
  | room, .boolean b => by
    rw [treeOf, readValue_boolean]
    exact (if_pos (Nat.zero_le room)).symm
  | room, .number n => by
    rw [treeOf, readValue_number]
    exact (if_pos (Nat.zero_le room)).symm
  | room, .text t => by
    rw [treeOf, readValue_text]
    exact (if_pos (Nat.zero_le room)).symm
  | room, .time t => by
    rw [treeOf, readValue_time]
    exact (if_pos (Nat.zero_le room)).symm
  | 0, .list items => by
    -- the one level left is enough for the kind, and none is left for the items
    rw [treeOf, readValue_list_one]
    exact (if_neg (Nat.not_succ_le_zero _)).symm
  | room + 1, .list items => by
    -- a list takes its two levels off, which is one step of the induction on `room`
    have hlevels : 2 * (room + 1) + 1 = 2 * room + 1 + 2 := by omega
    rw [treeOf, hlevels, readValue_list, readValues_treesOf room items, Value.depth]
    simp only [Nat.add_le_add_iff_right]
    split
    · rfl
    · rfl
  | room, .absent => by
    rw [treeOf, readValue_absent]
    exact (if_pos (Nat.zero_le room)).symm
theorem readValues_treesOf : ∀ (room : Nat) (vs : List Value),
    readValues (2 * room + 1) (treesOf vs) =
      if Value.depth.depthItems vs ≤ room then some (Value.asWrittenItems vs) else none
  | room, [] => by simp [treesOf, readValues, Value.depth.depthItems, Value.asWrittenItems]
  | room, v :: vs => by
    rw [treesOf, readValues, readValue_treeOf room v, readValues_treesOf room vs,
      Value.depth.depthItems, Value.asWrittenItems]
    simp only [Nat.max_le]
    by_cases hv : v.depth ≤ room
    · by_cases hvs : Value.depth.depthItems vs ≤ room
      · simp [hv, hvs]
      · simp [hv, hvs]
    · simp [hv]
end

theorem readValue_eq_list {levels : Nat} {j : Json} {vs : List Value}
    (h : readValue levels j = some (.list vs)) :
    ∃ name items, j = .object [(name, .array items)] ∧ 2 ≤ levels ∧
      readValues (levels - 2) items = some vs := by
  rw [readValue.eq_def] at h
  -- only the branch of lists gives a list
  repeat' split at h
  all_goals try cases h
  all_goals try (obtain ⟨x, -, hx⟩ := Option.map_eq_some_iff.1 h; cases hx)
  rename_i items hone
  obtain ⟨ws, hws, he⟩ := Option.map_eq_some_iff.1 h
  cases he
  exact ⟨_, items, rfl, by omega, hws⟩

mutual
/-- Whatever is read, its lists fit into the levels. -/
theorem depth_of_readValue : ∀ (v : Value) {levels : Nat} {j : Json},
    readValue levels j = some v → 2 * v.depth ≤ levels
  | .list vs, levels, j, h => by
    obtain ⟨name, items, rfl, hlevels, hread⟩ := readValue_eq_list h
    have hitems := depthItems_of_readValues vs hread
    rw [Value.depth]
    omega
  | .boolean _, _, _, _ | .number _, _, _, _ | .text _, _, _, _ | .time _, _, _, _
  | .absent, _, _, _ => Nat.zero_le _
theorem depthItems_of_readValues : ∀ (vs : List Value) {levels : Nat} {items : List Json},
    readValues levels items = some vs → 2 * Value.depth.depthItems vs ≤ levels
  | [], _, _, _ => Nat.zero_le _
  | v :: vs, levels, [], h => by cases h
  | v :: vs, levels, j :: items, h => by
    rw [readValues] at h
    split at h
    · rename_i w ws hw hws
      cases h
      have hv := depth_of_readValue v hw
      have hvs := depthItems_of_readValues vs hws
      rw [Value.depth.depthItems]
      omega
    · cases h
end

theorem regular_of_readTime {levels : Nat} {j : Json} {t : Instant}
    (h : readValue levels j = some (.time t)) : t.Regular := by
  rw [readValue.eq_def] at h
  -- only the branch of times gives a time
  repeat' split at h
  all_goals try cases h
  all_goals
    obtain ⟨x, hx, he⟩ := Option.map_eq_some_iff.1 h
    cases he
  obtain ⟨cs, -, hcs⟩ := Option.bind_eq_some_iff.1 hx
  exact Timestamp.regular_readLenient hcs

mutual
/-- What has been read is written as it is. -/
theorem regular_of_readValue : ∀ (v : Value) {levels : Nat} {j : Json},
    readValue levels j = some v → v.Regular
  | .time t, _, _, h => Value.regular_time.2 (regular_of_readTime h)
  | .list vs, _, _, h => by
    obtain ⟨name, items, rfl, -, hread⟩ := readValue_eq_list h
    exact Value.regular_list.2 (regular_of_readValues vs hread)
  | .boolean b, _, _, _ => Value.regular_boolean b
  | .number n, _, _, _ => Value.regular_number n
  | .text t, _, _, _ => Value.regular_text t
  | .absent, _, _, _ => Value.regular_absent
theorem regular_of_readValues : ∀ (vs : List Value) {levels : Nat} {items : List Json},
    readValues levels items = some vs → ∀ v ∈ vs, v.Regular
  | [], _, _, _ => by simp
  | v :: vs, levels, [], h => by cases h
  | v :: vs, levels, j :: items, h => by
    rw [readValues] at h
    split at h
    · rename_i w ws hw hws
      cases h
      exact List.forall_mem_cons.2 ⟨regular_of_readValue v hw, regular_of_readValues vs hws⟩
    · cases h
end

/-- The lists that may enclose each other in a value of a file. -/
def depthLimit : Nat := 62

theorem levels_eq : levelLimit - entryLevels = 2 * depthLimit + 1 := rfl

/-- An entry as it is written. -/
def writtenEntry (e : Entry) : Entry := (e.1, e.2.asWritten)

theorem writtenEntry_eq_self {e : Entry} : writtenEntry e = e ↔ e.2.Regular := by
  rw [← Value.asWritten_eq_self, writtenEntry, Prod.ext_iff]
  exact and_iff_right rfl

theorem map_writtenEntry {entries : List Entry} (h : ∀ e ∈ entries, e.2.Regular) :
    entries.map writtenEntry = entries :=
  (List.map_congr_left fun e he => writtenEntry_eq_self.2 (h e he)).trans (List.map_id entries)

def entryTree (e : Entry) : Json := .array [ofInt e.1.toNat, treeOf e.2]

theorem writes_writeEntry (e : Entry) : Writes (writeEntry e) (entryTree e) :=
  writes_array (.cons (writes_ofInt e.1.toNat) (.cons (writes_writeValue e.2) .nil))

theorem writes_writeBody (entries : List Entry) :
    Writes (writeBody entries) (.array (entries.map entryTree)) := by
  refine writes_array ?_
  rw [List.forall₂_map_left_iff, List.forall₂_map_right_iff]
  exact List.forall₂_same.2 fun e _ => writes_writeEntry e

theorem readEntry_entryTree (e : Entry) :
    readEntry (entryTree e) = if e.2.depth ≤ depthLimit then some (writtenEntry e) else none := by
  rw [entryTree, readEntry, integer_ofInt, levels_eq, readValue_treeOf]
  simp only [Option.bind_eq_bind, Option.bind_some, Decimal.toUInt64?_toNat]
  split
  · rfl
  · rfl

theorem mapM_readEntry {entries : List Entry} :
    (entries.map entryTree).mapM readEntry =
      if ∀ e ∈ entries, e.2.depth ≤ depthLimit then some (entries.map writtenEntry) else none := by
  induction entries with
  | nil => simp
  | cons e entries ih =>
    rw [List.map_cons, List.mapM_cons, readEntry_entryTree, ih]
    simp only [List.forall_mem_cons]
    by_cases he : e.2.depth ≤ depthLimit
    · by_cases hall : ∀ d ∈ entries, d.2.depth ≤ depthLimit
      · rw [if_pos he, if_pos hall, if_pos ⟨he, hall⟩]
        rfl
      · rw [if_pos he, if_neg hall, if_neg fun h => hall h.2]
        rfl
    · have hboth : ¬ (e.2.depth ≤ depthLimit ∧ ∀ d ∈ entries, d.2.depth ≤ depthLimit) :=
        fun h => he h.1
      rw [if_neg he, if_neg hboth]
      rfl

/-- The entries of a written body are read if none of them is nested too deep. -/
theorem readBody_writeBody (entries : List Entry) :
    readBody (Utf8.encode (writeBody entries)) =
      if ∀ e ∈ entries, e.2.depth ≤ depthLimit then some (entries.map writtenEntry) else none := by
  rw [readBody, read_of_writes (writes_writeBody entries), Option.bind_some, array?,
    Option.bind_some, mapM_readEntry]

theorem value_of_readEntry {j : Json} {e : Entry} (h : readEntry j = some e) :
    ∃ value, readValue (levelLimit - entryLevels) value = some e.2 := by
  unfold readEntry at h
  split at h
  · simp only [Option.bind_eq_bind, Option.bind_eq_some_iff, Option.some.injEq] at h
    obtain ⟨id, -, v, hv, rfl⟩ := h
    exact ⟨_, hv⟩
  · cases h

theorem exists_of_mem_mapM {α β : Type} {f : α → Option β} {xs : List α} {ys : List β}
    (h : xs.mapM f = some ys) : ∀ y ∈ ys, ∃ x ∈ xs, f x = some y := by
  induction xs generalizing ys with
  | nil =>
    cases h
    simp
  | cons x xs ih =>
    simp only [List.mapM_cons, Option.bind_eq_bind, Option.bind_eq_some_iff, Option.pure_def,
      Option.some.injEq] at h
    obtain ⟨z, hz, zs, hzs, rfl⟩ := h
    intro y hy
    rcases List.mem_cons.1 hy with rfl | hy
    · exact ⟨x, List.mem_cons_self, hz⟩
    · obtain ⟨w, hw, hfw⟩ := ih hzs y hy
      exact ⟨w, List.mem_cons_of_mem _ hw, hfw⟩

theorem value_of_readBody {bytes : List UInt8} {entries : List Entry}
    (h : readBody bytes = some entries) :
    ∀ e ∈ entries, ∃ value, readValue (levelLimit - entryLevels) value = some e.2 := by
  simp only [readBody, Option.bind_eq_some_iff] at h
  obtain ⟨tree, -, items, -, hitems⟩ := h
  intro e he
  obtain ⟨j, -, hj⟩ := exists_of_mem_mapM hitems e he
  exact value_of_readEntry hj

theorem depth_of_readBody {bytes : List UInt8} {entries : List Entry}
    (h : readBody bytes = some entries) : ∀ e ∈ entries, e.2.depth ≤ depthLimit := by
  intro e he
  obtain ⟨value, hvalue⟩ := value_of_readBody h e he
  have hdepth := depth_of_readValue e.2 hvalue
  rw [levels_eq] at hdepth
  omega

theorem regular_of_readBody {bytes : List UInt8} {entries : List Entry}
    (h : readBody bytes = some entries) : ∀ e ∈ entries, e.2.Regular := by
  intro e he
  obtain ⟨value, hvalue⟩ := value_of_readBody h e he
  exact regular_of_readValue e.2 hvalue

/-- The tree of a header. -/
def headerTree (h : Header) : Json :=
  .object
    [(Utf8.encode ("format".toList.flatMap escapeChar), ofInt h.format),
      (Utf8.encode ("name".toList.flatMap escapeChar), ofText h.name),
      (Utf8.encode ("entries".toList.flatMap escapeChar), ofInt h.entries),
      (Utf8.encode ("checksum".toList.flatMap escapeChar), ofText h.checksum)]

theorem writes_writeHeader (h : Header) : Writes (writeHeader h) (headerTree h) := by
  have hpart (name : String) {value : List Char} {j : Json} (hvalue : Writes value j) :
      WritesField (field name value) (Utf8.encode (name.toList.flatMap escapeChar), j) :=
    ⟨name.toList, value, rfl, rfl, hvalue⟩
  exact writes_object (hpart "format" (writes_ofInt h.format))
    (.cons (hpart "name" (writes_quote h.name))
      (.cons (hpart "entries" (writes_ofInt h.entries))
        (.cons (hpart "checksum" (writes_quote h.checksum)) .nil)))

theorem readCount_ofInt (bits n : Nat) :
    readCount bits (ofInt n) = if n < Nat.pow 2 bits then some n else none := by
  rw [readCount, integer_ofInt, Option.bind_some, Int.toNat_natCast]
  simp only [Int.natCast_nonneg, true_and]

/-- A header reads back unless its counts are too large for it. -/
theorem readHeader_writeHeader {h : Header} (hformat : h.format < Nat.pow 2 32) :
    readHeader (Utf8.encode (writeHeader h)) =
      if h.entries < Nat.pow 2 64 then some h else none := by
  have hfields : [(Utf8.encode ("format".toList.flatMap escapeChar), ofInt h.format),
      (Utf8.encode ("name".toList.flatMap escapeChar), ofText h.name),
      (Utf8.encode ("entries".toList.flatMap escapeChar), ofInt h.entries),
      (Utf8.encode ("checksum".toList.flatMap escapeChar), ofText h.checksum)].mapM
        (fun f => (unquote f.1).map fun name => (name, f.2)) =
      some [("format".toList, ofInt h.format), ("name".toList, ofText h.name),
        ("entries".toList, ofInt h.entries), ("checksum".toList, ofText h.checksum)] := by
    simp only [List.mapM_cons, List.mapM_nil, unquote_escape, Option.map_some, Option.bind_eq_bind,
      Option.bind_some, Option.pure_def]
  rw [readHeader, read_of_writes (writes_writeHeader h), headerTree]
  simp only [hfields, Option.bind_eq_bind, Option.bind_some, theField, List.filter_cons,
    List.filter_nil, String.toList_inj, String.reduceEq, decide_true, decide_false,
    Bool.false_eq_true, if_true, if_false]
  simp only [headerOf, readCount_ofInt, if_pos hformat, text_ofText, Option.bind_eq_bind,
    Option.bind_some]
  split
  · rfl
  · rfl

theorem newline_not_mem_encode {cs : List Char} (h : '\n' ∉ cs) : byte '\n' ∉ Utf8.encode cs := by
  intro hb
  obtain ⟨c, hc, hbyte⟩ := List.mem_flatMap.1 hb
  -- the bytes of a longer character are all above those of ASCII
  by_cases hascii : c.toNat ≤ 0x7f
  · rw [Utf8.encodeChar_one hascii, List.mem_singleton] at hbyte
    have hcode := congrArg UInt8.toNat hbyte
    rw [Utf8.toNat_ofNat_of_lt (by omega)] at hcode
    have hsame : c = '\n' := Char.toNat_inj.1 hcode.symm
    exact h (hsame ▸ hc)
  · have hhigh := Utf8.encodeChar_high (Nat.lt_of_not_le hascii) _ hbyte
    exact absurd hhigh (by decide)

theorem newline_not_mem_escapeChar (c : Char) : '\n' ∉ escapeChar c := by
  unfold escapeChar
  repeat' split
  -- the other control characters go out as hexadecimal digits
  case' isFalse.isFalse.isFalse.isFalse.isFalse.isFalse.isFalse.isTrue h =>
    have hall : ∀ n < 32, '\n' ∉
        ['\\', 'u', '0', '0', Nat.digitChar (n / 16), Nat.digitChar (n % 16)] := by decide
    exact hall c.toNat h
  -- what goes out as it is cannot be the newline, which has an escape of its own
  case' isFalse.isFalse.isFalse.isFalse.isFalse.isFalse.isFalse.isFalse =>
    rename_i hline _ _ _
    exact fun h => hline (List.mem_singleton.1 h).symm
  all_goals decide

theorem newline_not_mem_quote (cs : List Char) : '\n' ∉ quote cs := by
  intro h
  rw [quote, List.mem_append, List.mem_cons, List.mem_flatMap, List.mem_singleton] at h
  rcases h with (h | ⟨c, -, hc⟩) | h
  · exact absurd h (by decide)
  · exact newline_not_mem_escapeChar c hc
  · exact absurd h (by decide)

theorem newline_not_mem_ofNat (n : Nat) : '\n' ∉ Decimal.ofNat n := by
  intro h
  exact absurd (Decimal.isDigit_of_mem_ofNat h) (by decide)

/-- A header takes up one line. -/
theorem newline_not_mem_writeHeader (h : Header) : '\n' ∉ writeHeader h := by
  have hfield (name : String) {value : List Char} (hvalue : '\n' ∉ value) :
      '\n' ∉ field name value := by
    rw [field, List.mem_append, List.mem_cons]
    rintro (h | h | h)
    · exact newline_not_mem_quote _ h
    · exact absurd h (by decide)
    · exact hvalue h
  have hformat := hfield "format" (newline_not_mem_ofNat h.format)
  have hname := hfield "name" (newline_not_mem_quote h.name)
  have hentries := hfield "entries" (newline_not_mem_ofNat h.entries)
  have hchecksum := hfield "checksum" (newline_not_mem_quote h.checksum)
  rw [writeHeader, brackets, intercalate_cons]
  simp [hformat, hname, hentries, hchecksum]

theorem length_sortEntries (entries : List Entry) :
    (sortEntries entries).length = entries.length := List.length_mergeSort entries

theorem mem_sortEntries {entries : List Entry} {e : Entry} :
    e ∈ sortEntries entries ↔ e ∈ entries := List.mem_mergeSort

/-- What a file can hold so that it is read again: its values are nested no deeper than the limit,
and its entries can be counted. -/
def Readable (entries : List Entry) : Prop :=
  entries.length < Nat.pow 2 64 ∧ ∀ e ∈ entries, e.2.depth ≤ depthLimit

instance (entries : List Entry) : Decidable (Readable entries) := by
  unfold Readable; infer_instance

/-- A line is what stands before the first newline. -/
theorem span_newline {line : List UInt8} (hline : byte '\n' ∉ line) (rest : List UInt8) :
    (line ++ byte '\n' :: rest).span (· ≠ byte '\n') = (line, byte '\n' :: rest) := by
  have hall : ∀ b ∈ line, decide (b ≠ byte '\n') = true := by
    intro b hb
    rw [decide_eq_true_eq]
    rintro rfl
    exact hline hb
  rw [List.span_eq_takeWhile_dropWhile, List.takeWhile_append_of_pos hall,
    List.dropWhile_append_of_pos hall]
  simp

theorem decode_encode_eq (name : String) (entries : List Entry) :
    decode name (encode name entries) =
      if entries.length < Nat.pow 2 64 then
        if ∀ e ∈ entries, e.2.depth ≤ depthLimit then
          .ok ((sortEntries entries).map writtenEntry)
        else .error .unreadableEntries
      else .error .unreadableHeader := by
  let body := Utf8.encode (writeBody (sortEntries entries))
  let header : Header := ⟨formatNumber, name.toList, entries.length, Checksum.hex body⟩
  -- the first newline is the one that was put after the header
  have hspan : (encode name entries).span (· ≠ byte '\n') =
      (Utf8.encode (writeHeader header), byte '\n' :: body) :=
    span_newline (newline_not_mem_encode (newline_not_mem_writeHeader header)) body
  have hheader := readHeader_writeHeader (h := header) (show formatNumber < Nat.pow 2 32 by decide)
  have hbody : readBody body =
      if ∀ e ∈ entries, e.2.depth ≤ depthLimit then some ((sortEntries entries).map writtenEntry)
      else none := by
    have hread := readBody_writeBody (sortEntries entries)
    simp only [mem_sortEntries] at hread
    exact hread
  rw [decode, hspan]
  -- the header is read first, so too many entries are found out before too deep ones
  by_cases hlength : entries.length < Nat.pow 2 64
  · rw [if_pos hlength] at hheader ⊢
    simp only [hheader, hbody]
    by_cases hdepth : ∀ e ∈ entries, e.2.depth ≤ depthLimit
    · rw [if_pos hdepth]
      simp only [header, ne_eq, not_true_eq_false, if_false, if_pos hdepth, List.length_map,
        length_sortEntries]
    · rw [if_neg hdepth]
      simp only [header, ne_eq, not_true_eq_false, if_false, if_neg hdepth]
  · rw [if_neg hlength] at hheader ⊢
    simp only [hheader]

theorem decode_encode {entries : List Entry} (h : Readable entries) (name : String) :
    decode name (encode name entries) = .ok ((sortEntries entries).map writtenEntry) := by
  rw [decode_encode_eq, if_pos h.1, if_pos h.2]

theorem decode_encode_refused {entries : List Entry} (h : ¬ Readable entries) (name : String) :
    ∃ cause, decode name (encode name entries) = .error cause := by
  rw [decode_encode_eq]
  split
  · rename_i hlength
    rw [if_neg fun hdepth => h ⟨hlength, hdepth⟩]
    exact ⟨_, rfl⟩
  · exact ⟨_, rfl⟩

theorem entries_of_headerOf {format name entries checksum : Json} {h : Header}
    (hof : headerOf format name entries checksum = some h) : h.entries < Nat.pow 2 64 := by
  simp only [headerOf, Option.bind_eq_bind, Option.bind_eq_some_iff, Option.some.injEq] at hof
  obtain ⟨_, -, _, -, count, hcount, _, -, rfl⟩ := hof
  simp only [readCount, Option.bind_eq_some_iff] at hcount
  obtain ⟨n, -, hn⟩ := hcount
  split at hn
  · rename_i hfit
    cases hn
    exact hfit.2
  · cases hn

theorem entries_of_readHeader {bytes : List UInt8} {h : Header}
    (hread : readHeader bytes = some h) : h.entries < Nat.pow 2 64 := by
  unfold readHeader at hread
  split at hread
  · exact entries_of_headerOf hread
  · simp only [Option.bind_eq_bind, Option.bind_eq_some_iff] at hread
    obtain ⟨_, -, _, -, _, -, _, -, _, -, hof⟩ := hread
    exact entries_of_headerOf hof
  · cases hread

/-! ### What a file tells -/

/-- What a file tells: the entries of its body, for which a header line of the format and the name
vouches by their bytes. It may count them wrong. -/
inductive Tells (name : String) : List UInt8 → Header → List Entry → Prop where
  | intro {line body : List UInt8} {header : Header} {entries : List Entry}
      (hline : byte '\n' ∉ line) (hheader : readHeader line = some header)
      (hformat : header.format = formatNumber) (hname : header.name = name.toList)
      (hchecksum : Checksum.hex body = header.checksum) (hbody : readBody body = some entries) :
      Tells name (line ++ byte '\n' :: body) header entries

/-- Where a first line was split off, what stopped it is a newline. -/
theorem lines_of_span {bytes body : List UInt8} {b : UInt8}
    (h : (bytes.span (· ≠ byte '\n')).2 = b :: body) :
    byte '\n' ∉ (bytes.span (· ≠ byte '\n')).1 ∧
      bytes = (bytes.span (· ≠ byte '\n')).1 ++ byte '\n' :: body := by
  rw [List.span_eq_takeWhile_dropWhile] at h ⊢
  simp only at h ⊢
  have hstop := List.head?_dropWhile_not (fun b => decide (b ≠ byte '\n')) bytes
  rw [h] at hstop
  obtain rfl : b = byte '\n' := by simpa using hstop
  constructor
  · intro hmem
    have hne := List.mem_takeWhile_imp hmem
    exact of_decide_eq_true hne rfl
  · rw [← h, List.takeWhile_append_dropWhile]

/-- The count of the header is held against the entries that were read. -/
theorem decode_of_tells {name : String} {bytes : List UInt8} {header : Header}
    {entries : List Entry} (h : Tells name bytes header entries) :
    decode name bytes =
      if entries.length = header.entries then .ok entries
      else .error (.wrongCount header.entries entries.length) := by
  obtain ⟨hline, hheader, hformat, hname, hchecksum, hbody⟩ := h
  rw [decode, span_newline hline]
  simp only [hheader, hformat, hname, hchecksum, hbody, ne_eq, not_true_eq_false, if_false, ite_not]

/-- A file is decoded where it counts its entries right. -/
theorem decode_eq_ok {name : String} {bytes : List UInt8} {entries : List Entry} :
    decode name bytes = .ok entries ↔
      ∃ header, Tells name bytes header entries ∧ entries.length = header.entries := by
  constructor
  · intro h
    unfold decode at h
    simp only at h
    split at h
    · cases h
    rename_i b body hrest
    split at h
    · cases h
    rename_i header hheader
    split at h
    · cases h
    rename_i hformat
    split at h
    · cases h
    rename_i hname
    split at h
    · cases h
    rename_i hchecksum
    split at h
    · cases h
    rename_i found hbody
    split at h
    · cases h
    rename_i hcount
    obtain rfl := Except.ok.inj h
    obtain ⟨hline, hbytes⟩ := lines_of_span hrest
    rw [hbytes]
    exact ⟨header, .intro hline hheader (not_not.1 hformat) (not_not.1 hname) (not_not.1 hchecksum)
      hbody, not_not.1 hcount⟩
  · rintro ⟨header, htells, hcount⟩
    rw [decode_of_tells htells, if_pos hcount]

/-- A file tells the entries that it was written for. -/
theorem tells_encode {entries : List Entry} (h : Readable entries) (name : String) :
    ∃ header, Tells name (encode name entries) header ((sortEntries entries).map writtenEntry) ∧
      ((sortEntries entries).map writtenEntry).length = header.entries :=
  decode_eq_ok.1 (decode_encode h name)

/-- Whatever is read from a file can be written to one and read again. -/
theorem readable_of_decode {name : String} {bytes : List UInt8} {entries : List Entry}
    (h : decode name bytes = .ok entries) : Readable entries := by
  obtain ⟨header, ⟨-, hheader, -, -, -, hbody⟩, hcount⟩ := decode_eq_ok.1 h
  refine ⟨?_, depth_of_readBody hbody⟩
  -- the length is that of the header, which was read as a bounded count
  rw [hcount]
  exact entries_of_readHeader hheader

theorem regular_of_decode {name : String} {bytes : List UInt8} {entries : List Entry}
    (h : decode name bytes = .ok entries) : ∀ e ∈ entries, e.2.Regular := by
  obtain ⟨header, ⟨-, -, -, -, -, hbody⟩, -⟩ := decode_eq_ok.1 h
  exact regular_of_readBody hbody

end Colloquy.Index
