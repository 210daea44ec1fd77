import Colloquy.Proofs.Index.Format
import Colloquy.Proofs.Json.Prefix

/-!
Files of indexes that were cut short. The body of a file is an array, so all of it is needed to read
it, and a part of the file is refused whatever its checksum is.
-/

namespace Colloquy.Index
open Colloquy.Disk
open Colloquy.Json (byte isSpace)

variable {name : String} {entries : List Entry}

/-- Texts whose first lines end the same way have the same first line. -/
theorem append_newline_inj {l₁ l₂ r₁ r₂ : List UInt8} (h₁ : byte '\n' ∉ l₁) (h₂ : byte '\n' ∉ l₂)
    (h : l₁ ++ byte '\n' :: r₁ = l₂ ++ byte '\n' :: r₂) : l₁ = l₂ ∧ r₁ = r₂ := by
  have hspan := congrArg (List.span (· ≠ byte '\n')) h
  rw [span_newline h₁, span_newline h₂] at hspan
  obtain ⟨hline, hrest⟩ := Prod.mk.inj hspan
  exact ⟨hline, (List.cons.inj hrest).2⟩

theorem getLast?_writeBody (entries : List Entry) :
    (Utf8.encode (writeBody entries)).getLast? = some (byte ']') := by
  rw [writeBody, Json.brackets, Utf8.encode_append]
  exact List.getLast?_concat

/-- No body is read before its closing bracket is there. -/
theorem readBody_cut {cut : List UInt8} (hcut : cut <+: Utf8.encode (writeBody entries))
    (hne : cut ≠ Utf8.encode (writeBody entries)) : readBody cut = none := by
  obtain ⟨rest, hrest⟩ := hcut
  have hlost : rest ≠ [] := by
    rintro rfl
    rw [List.append_nil] at hrest
    exact hne hrest
  rw [Option.eq_none_iff_forall_ne_some]
  intro found hread
  obtain ⟨tree, htree, hitems⟩ := Option.bind_eq_some_iff.1 hread
  obtain ⟨items, harray, -⟩ := Option.bind_eq_some_iff.1 hitems
  cases tree with
  | array js =>
    have hwhole := Json.read_of_writes (writes_writeBody entries)
    rw [← hrest] at hwhole
    have hblank := Json.blank_of_read htree hwhole
    -- but the bracket at the end is no blank
    have hlast := getLast?_writeBody entries
    rw [← hrest, List.getLast?_append_of_ne_nil cut hlost] at hlast
    have hspace := hblank (byte ']') (List.mem_of_getLast? hlast)
    exact absurd hspace (by decide)
  | _ => cases harray

/-- A part of the file of an index is refused. -/
theorem decode_torn {torn : List UInt8} (htorn : torn <+: encode name entries)
    (hne : torn ≠ encode name entries) : ∃ cause, decode name torn = .error cause := by
  cases hdecode : decode name torn with
  | error cause => exact ⟨cause, rfl⟩
  | ok found =>
    obtain ⟨_, @⟨line, cut, _, _, hline, -, -, -, -, hcut⟩, -⟩ := decode_eq_ok.1 hdecode
    let body := Utf8.encode (writeBody (sortEntries entries))
    let header : Header := ⟨formatNumber, name.toList, entries.length, Checksum.hex body⟩
    obtain ⟨rest, hrest⟩ := htorn
    have hfile : (line ++ byte '\n' :: cut) ++ rest =
        Utf8.encode (writeHeader header) ++ byte '\n' :: body := hrest
    have hheader : byte '\n' ∉ Utf8.encode (writeHeader header) :=
      newline_not_mem_encode (newline_not_mem_writeHeader header)
    -- both lines end with the first newline, so the part is cut off the body
    rw [List.append_assoc, List.cons_append] at hfile
    obtain ⟨hsame, hbody⟩ := append_newline_inj hline hheader hfile
    have hshort : cut ≠ body := by
      intro hall
      rw [hsame, hall] at hne
      exact hne rfl
    rw [readBody_cut ⟨rest, hbody⟩ hshort] at hcut
    cases hcut

/-- After a write that goes through there is a whole file, and every part of it that stops before
its end, the empty one included, is refused wherever it is found: with the name of the index, and
whatever its entries and its checksum are. -/
theorem torn_file_refused {d d' : Disk} {path : Path}
    (hwrite : writeAt d path name entries = (.ok (), d')) :
    ∃ whole, d'.read path = .ok (.bytes whole) ∧
      ∀ torn, torn <+: whole → torn ≠ whole →
        ∀ (other : Disk) (found : Path), other.read found = .ok (.bytes torn) →
          ∃ cause, readAt other found name = .error (.corrupted name cause) := by
  refine ⟨encode name entries, read_writeAt hwrite, ?_⟩
  intro torn htorn hne other found hread
  obtain ⟨cause, hcause⟩ := decode_torn htorn hne
  refine ⟨cause, ?_⟩
  rw [readAt, hread]
  simp only [Content.data, hcause]

/-- A file that ends after a backslash in a text, and one that ends within its header. -/
theorem torn_file_refused_cut :
    let entries : List Entry := [(7, .list [.text "x\"", .absent])]
    let torn (size : Nat) : Disk :=
      { nodes := [(["a.idx"], .file (.bytes ((encode "a" entries).take size)))] }
    (encode "a" entries).length = 154 ∧
      (∃ cause, readAt (torn 138) ["a.idx"] "a" = .error (.corrupted "a" cause)) ∧
      ∃ cause, readAt (torn 20) ["a.idx"] "a" = .error (.corrupted "a" cause) := by
  intro entries torn
  have hlength : (encode "a" entries).length = 154 := by decide +kernel
  have hwritten : writeAt {} ["a.idx"] "a" entries =
      (.ok (), (writeAt {} ["a.idx"] "a" entries).2) := rfl
  obtain ⟨whole, hwhole, hrefused⟩ := torn_file_refused hwritten
  obtain rfl : encode "a" entries = whole := Content.bytes.inj (Except.ok.inj hwhole)
  have hshort {size : Nat} (hsize : size < 154) :
      (encode "a" entries).take size ≠ encode "a" entries := by
    intro hall
    have hsame := congrArg List.length hall
    rw [List.length_take, hlength] at hsame
    omega
  refine ⟨hlength, ?_, ?_⟩
  · exact hrefused _ (List.take_prefix 138 _) (hshort (by decide)) (torn 138) ["a.idx"] rfl
  · exact hrefused _ (List.take_prefix 20 _) (hshort (by decide)) (torn 20) ["a.idx"] rfl

end Colloquy.Index
