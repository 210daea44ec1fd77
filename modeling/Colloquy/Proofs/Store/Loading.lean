import Colloquy.Proofs.Store

/-!
The header of a file counts pairs, and an index has one value for each id: where ids repeat, less is
loaded than the header announces.
-/

namespace Colloquy

namespace Index

/-- An index that has been put together from entries, one after another. -/
def gather (entries : List Entry) : Index := ⟨Keyed.insertAll entries [], false⟩

theorem get?_gather (entries : List Entry) (id : UInt64) :
    (gather entries).get? id = Keyed.last? id entries := by
  rw [gather, get?, Keyed.find?_insertAll]
  exact Option.or_none

theorem size_gather (entries : List Entry) :
    (gather entries).size = (entries.map Prod.fst).dedup.length :=
  Keyed.length_insertAll entries

/-- Nothing is lost exactly where no id repeats. -/
theorem size_gather_eq_length {entries : List Entry} :
    (gather entries).size = entries.length ↔ (entries.map Prod.fst).Nodup := by
  rw [size_gather, ← List.dedup_eq_self]
  constructor
  · intro h
    apply (List.dedup_sublist (entries.map Prod.fst)).eq_of_length
    rw [h, List.length_map]
  · intro h
    rw [h, List.length_map]

end Index

namespace Store

section File
variable {s : Store} {name : String} {content : Disk.Content}

/-- An index that is not loaded is put together from what its file tells. -/
theorem index_of_tells {header : Index.Header} {entries : List Index.Entry}
    (hname : Index.isName name = true) (hfind : Keyed.find? name s.indexes = none)
    (hread : s.disk.read (s.pathOf name) = .ok content)
    (htells : Index.Tells name content.data header entries)
    (hcount : entries.length = header.entries) :
    (s.index name).1 = .ok (Index.gather entries) := by
  rw [index_of_unloaded hname hfind]
  apply Index.load_of_decode hread
  exact Index.decode_eq_ok.2 ⟨header, htells, hcount⟩

/-- Whatever is in the file of an index that is not loaded: where the header vouches for the entries
and counts the pairs right, the index has the value of the last pair of each id, and so as many
values as there are ids. These are as many as the header counts where no id repeats, and every pair
is in the index then. Where ids repeat the file is loaded all the same. Any other file is refused. -/
theorem loaded_from_file (hname : Index.isName name = true)
    (hfind : Keyed.find? name s.indexes = none)
    (hread : s.disk.read (s.pathOf name) = .ok content) :
    (∀ header entries, Index.Tells name content.data header entries →
      entries.length = header.entries → ∃ i, (s.index name).1 = .ok i ∧
        (∀ id, i.get? id = Keyed.last? id entries) ∧
        i.size = (entries.map Prod.fst).dedup.length ∧
        (i.size = header.entries ↔ (entries.map Prod.fst).Nodup) ∧
        ((entries.map Prod.fst).Nodup → ∀ e ∈ entries, i.get? e.1 = some e.2)) ∧
      ((¬ ∃ header entries, Index.Tells name content.data header entries ∧
          entries.length = header.entries) →
        ∃ cause, (s.index name).1 = .error (.corrupted name cause)) := by
  constructor
  · intro header entries htells hcount
    have hloaded := index_of_tells hname hfind hread htells hcount
    refine ⟨Index.gather entries, hloaded, Index.get?_gather entries, Index.size_gather entries,
      ?_, ?_⟩
    · rw [← hcount]
      exact Index.size_gather_eq_length
    · intro hids e he
      rw [Index.get?_gather, Keyed.last?_of_mem hids he]
  · intro hrefused
    rw [index_of_unloaded hname hfind]
    cases hdecode : Index.decode name content.data with
    | error cause => exact ⟨cause, Index.load_of_refused hread hdecode⟩
    | ok entries =>
      obtain ⟨header, htells, hcount⟩ := Index.decode_eq_ok.1 hdecode
      exact absurd ⟨header, entries, htells, hcount⟩ hrefused

end File

/-- A store that has loaded nothing, over a directory with a file under the name "a". -/
def withFile (file : List UInt8) : Store where
  disk := { nodes := [(["idx"], .directory), (["idx", "a.idx"], .file (.bytes file))] }
  directory := "idx"

theorem read_withFile (file : List UInt8) :
    (withFile file).disk.read ((withFile file).pathOf "a") = .ok (.bytes file) := by
  have hpath : Path.ofString "idx" ++ [Index.fileName "a"] = ["idx", "a.idx"] := by decide +kernel
  change (withFile file).disk.read (Path.ofString "idx" ++ [Index.fileName "a"]) = _
  rw [hpath]
  rfl

/-- A file of two ids is loaded as it is, and an empty one is refused. -/
theorem loaded_from_file_two :
    let entries : List Index.Entry := [(1, .number 5), (2, .text "x")]
    (∃ i, ((withFile (Index.encode "a" entries)).index "a").1 = .ok i ∧ i.size = 2 ∧
      i.get? 1 = some (.number 5) ∧ i.get? 2 = some (.text "x") ∧ i.get? 3 = none) ∧
    ∃ cause, ((withFile []).index "a").1 = .error (.corrupted "a" cause) := by
  intro entries
  have hreadable : Index.Readable entries := by decide
  have hsorted : Index.sortEntries entries = entries := List.mergeSort_of_pairwise (by decide)
  obtain ⟨header, htells, hcount⟩ := Index.tells_encode hreadable "a"
  rw [hsorted] at htells hcount
  obtain ⟨hloaded, -⟩ := loaded_from_file rfl rfl (read_withFile (Index.encode "a" entries))
  obtain ⟨-, hrefused⟩ := loaded_from_file rfl rfl (read_withFile [])
  constructor
  · obtain ⟨i, hi, hget, hsize, -, hpairs⟩ := hloaded header entries htells hcount
    have hids : (entries.map Prod.fst).Nodup := by decide
    have hone : ((1 : UInt64), Value.number 5) ∈ entries := by decide
    have htwo : ((2 : UInt64), Value.text "x") ∈ entries := by decide
    exact ⟨i, hi, hsize, hpairs hids _ hone, hpairs hids _ htwo, hget 3⟩
  · apply hrefused
    rintro ⟨header, entries, htells, hcount⟩
    have hdecode : Index.decode "a" [] = .ok entries :=
      Index.decode_eq_ok.2 ⟨header, htells, hcount⟩
    cases hdecode

/-- A file with two pairs of one id, which its header vouches for and counts, is loaded as an index
of one entry, and what the first pair says is lost. -/
theorem repeated_id_loaded :
    let entries : List Index.Entry := [(1, .number 1), (1, .number 2)]
    ∃ header i, Index.Tells "a" (Index.encode "a" entries) header entries ∧ header.entries = 2 ∧
      ((withFile (Index.encode "a" entries)).index "a").1 = .ok i ∧ i.size = 1 ∧
      (1, .number 1) ∈ entries ∧ i.get? 1 = some (.number 2) := by
  intro entries
  have hreadable : Index.Readable entries := by decide
  have hsorted : Index.sortEntries entries = entries := List.mergeSort_of_pairwise (by decide)
  obtain ⟨header, htells, hcount⟩ := Index.tells_encode hreadable "a"
  rw [hsorted] at htells hcount
  have hloaded := index_of_tells rfl rfl (read_withFile (Index.encode "a" entries)) htells hcount
  refine ⟨header, Index.gather entries, htells, hcount.symm, hloaded, ?_, List.mem_cons_self, ?_⟩
  · rw [Index.size_gather]
    rfl
  · rw [Index.get?_gather]
    rfl

end Store

end Colloquy
