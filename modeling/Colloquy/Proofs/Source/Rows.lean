import Colloquy.Proofs.Keyed
import Colloquy.Proofs.Message
import Colloquy.Source.Rows

/-!
What the rows of a source answer. A post takes the place of every row of its number, a join leaves
the messages alone, and what a column holds is what the message of the row carries.
-/

namespace Colloquy.Source.Rows

/-- Every row has numbers that can be stored. -/
def Stored (s : Rows) : Prop := ∀ row ∈ s.messageRows, Storable row.number ∧ Storable row.bout

variable {s s' : Rows}

theorem stored_empty : Stored {} := by
  intro row hrow
  cases hrow

theorem ofId_storable {n : UInt64} (h : Storable n) : Value.ofId n = .ok (.number n.toInt64) := by
  have hfits : Decimal.minInt64 ≤ (n.toNat : Int) ∧ (n.toNat : Int) ≤ Decimal.maxInt64 := by
    rw [Storable] at h
    constructor <;> simp only [Decimal.minInt64, Decimal.maxInt64] <;> omega
  have hword : Int64.ofInt (n.toNat : Int) = n.toInt64 := by
    rw [Int64.ofInt_eq_ofNat, ← UInt64.toInt64_ofNat', UInt64.ofNat_toNat]
  rw [Value.ofId, Decimal.toInt64?, if_pos hfits, hword]

theorem row?_spec {number : UInt64} {m : Message} (h : s.row? number = some m) :
    m ∈ s.messageRows ∧ m.number = number := by
  have hnumber := List.find?_some h
  exact ⟨List.mem_of_find?_eq_some h, by simpa using hnumber⟩

theorem row?_of_mem {m : Message} (h : m ∈ s.messageRows) :
    ∃ row, s.row? m.number = some row := by
  have hsome : (s.row? m.number).isSome = true := by
    rw [row?, List.find?_isSome]
    exact ⟨m, h, by simp⟩
  exact Option.isSome_iff_exists.1 hsome

theorem mem_of_messages {bout : UInt64} {candidates : List Message}
    (h : s.messages bout = .ok candidates) : ∀ m ∈ candidates, m ∈ s.messageRows := by
  intro m hm
  unfold messages at h
  split at h
  · rw [← Except.ok.inj h, Message.sortNewestFirst, List.mem_mergeSort] at hm
    exact (List.mem_filter.1 hm).1
  · cases h

theorem post_storable (s : Rows) {m : Message} (hnumber : Storable m.number)
    (hbout : Storable m.bout) : ∃ s', s.post m = .ok s' := by
  rw [post, if_pos ⟨hnumber, hbout⟩]
  exact ⟨_, rfl⟩

theorem join_storable (s : Rows) {bout : UInt64} (hbout : Storable bout) (identity : String) :
    ∃ s', s.join bout identity = .ok s' := by
  rw [join, if_pos hbout]
  split <;> exact ⟨_, rfl⟩

theorem post_ok {m : Message} (h : s.post m = .ok s') :
    Storable m.number ∧ Storable m.bout ∧
      s' = { s with
        messageRows := s.messageRows.filter (fun row => row.number ≠ m.number) ++ [m] } := by
  unfold post at h
  split at h
  · rename_i hstorable
    exact ⟨hstorable.1, hstorable.2, (Except.ok.inj h).symm⟩
  · cases h

theorem stored_post {m : Message} (hstored : s.Stored) (h : s.post m = .ok s') : s'.Stored := by
  obtain ⟨hnumber, hbout, rfl⟩ := post_ok h
  intro row hrow
  rcases List.mem_append.1 hrow with hrow | hrow
  · exact hstored row (List.mem_filter.1 hrow).1
  · rw [List.mem_singleton.1 hrow]
    exact ⟨hnumber, hbout⟩

theorem row?_post {m : Message} (h : s.post m = .ok s') (number : UInt64) :
    s'.row? number = if number = m.number then some m else s.row? number := by
  obtain ⟨-, -, rfl⟩ := post_ok h
  rw [row?, row?, List.find?_append]
  split
  · rename_i hnumber
    have hnone : (s.messageRows.filter fun row => row.number ≠ m.number).find?
        (fun row => row.number = number) = none := by
      rw [List.find?_eq_none, hnumber]
      intro row hrow
      simpa using (List.mem_filter.1 hrow).2
    rw [hnone, Option.none_or, List.find?_cons_of_pos (by simp [hnumber])]
  · rename_i hnumber
    rw [Keyed.find?_filter_ne Message.number hnumber,
      List.find?_cons_of_neg (by simpa using Ne.symm hnumber), List.find?_nil, Option.or_none]

theorem messageRows_join {bout : UInt64} {identity : String} (h : s.join bout identity = .ok s') :
    s'.messageRows = s.messageRows := by
  unfold join at h
  split at h
  · split at h
    · rw [Except.ok.inj h]
    · rw [← Except.ok.inj h]
  · cases h

section Column
variable {number : UInt64} {name : String}

/-- What a column holds of a row is what the message carries itself. -/
theorem column?_indexed (s : Rows) (hname : name ∈ Message.indexed) :
    ∃ column, s.column? name = some column ∧
      ∀ m : Message, Storable m.bout → m.attr? name = .ok (some (column m)) := by
  simp only [Message.indexed, List.mem_cons, List.not_mem_nil, or_false] at hname
  rcases hname with rfl | rfl | rfl | rfl
  · refine ⟨fun row => .number row.bout.toInt64, rfl, fun m hm => ?_⟩
    rw [Message.attr?, if_neg (by decide), if_pos rfl, ofId_storable hm]
    rfl
  · exact ⟨fun row => .text row.author, rfl, fun _ _ => rfl⟩
  · exact ⟨fun row => .text row.text, rfl, fun _ _ => rfl⟩
  · exact ⟨fun row => .time row.date, rfl, fun _ _ => rfl⟩

theorem attr?_of_row {m : Message} (hrow : s.row? number = some m) (hnumber : Storable number)
    (hbout : Storable m.bout) (hname : name ∈ Message.indexed) :
    ∃ value, m.attr? name = .ok (some value) ∧ s.attr? number name = .ok (some value) := by
  obtain ⟨column, hcolumn, hvalue⟩ := column?_indexed s hname
  refine ⟨column m, hvalue m hbout, ?_⟩
  rw [attr?, hcolumn]
  simp only [if_pos hnumber, hrow, Option.map_some]

theorem row?_of_attr? {value : Value} (h : s.attr? number name = .ok (some value))
    (hname : name ∈ Message.indexed) : Storable number ∧ ∃ m, s.row? number = some m := by
  obtain ⟨column, hcolumn, -⟩ := column?_indexed s hname
  rw [attr?, hcolumn] at h
  simp only at h
  split at h
  · rename_i hnumber
    cases hrow : s.row? number with
    | none =>
      rw [hrow] at h
      cases h
    | some m => exact ⟨hnumber, m, rfl⟩
  · cases h

end Column

/-- Besides the participants, a row shows what its message carries. -/
theorem attr?_eq_column {m : Message} (hnumber : Storable m.number) (hbout : Storable m.bout)
    {name : String} (hname : name ≠ "participants") :
    m.attr? name = .ok ((s.column? name).map fun column => column m) := by
  rw [Message.attr?, column?, if_neg hname]
  split
  · rw [ofId_storable hnumber]
    rfl
  split
  · rw [ofId_storable hbout]
    rfl
  split
  · rfl
  split
  · rfl
  split <;> rfl

theorem participantRows_post {m : Message} (h : s.post m = .ok s') :
    s'.participantRows = s.participantRows := by
  obtain ⟨-, -, rfl⟩ := post_ok h
  rfl

theorem distinct_post {m : Message} (hdistinct : Message.Distinct s.messageRows)
    (h : s.post m = .ok s') : Message.Distinct s'.messageRows := by
  obtain ⟨-, -, rfl⟩ := post_ok h
  refine List.pairwise_append.2 ⟨hdistinct.filter _, List.pairwise_singleton _ _, ?_⟩
  intro row hrow other hother
  rw [List.mem_singleton.1 hother]
  simpa using (List.mem_filter.1 hrow).2

theorem mem_messageRows (hdistinct : Message.Distinct s.messageRows) (m : Message) :
    m ∈ s.messageRows ↔ s.row? m.number = some m := by
  constructor
  · intro hm
    obtain ⟨row, hrow⟩ := row?_of_mem hm
    obtain ⟨hmem, hnumber⟩ := row?_spec hrow
    have hsame : row = m := Message.eq_of_number_eq hdistinct hmem hm hnumber
    rw [hrow, hsame]
  · intro hrow
    exact (row?_spec hrow).1

theorem participantRows_join {bout : UInt64} {identity : String}
    (h : s.join bout identity = .ok s') :
    (s.participantRows.Nodup → s'.participantRows.Nodup) ∧
      ∀ row, row ∈ s'.participantRows ↔ row = (bout, identity) ∨ row ∈ s.participantRows := by
  unfold join at h
  split at h
  · split at h
    · rename_i hmem
      obtain rfl := Except.ok.inj h
      refine ⟨id, fun row => ⟨.inr, ?_⟩⟩
      rintro (rfl | hrow)
      · exact hmem
      · exact hrow
    · rename_i hnew
      obtain rfl := Except.ok.inj h
      refine ⟨fun hnodup => ?_, fun row => ?_⟩
      · exact hnodup.append (List.nodup_singleton _) (by simpa using hnew)
      · rw [List.mem_append, List.mem_singleton]
        exact or_comm
  · cases h

theorem mem_identities {bout : UInt64} {identity : String} :
    identity ∈ s.identities bout ↔ (bout, identity) ∈ s.participantRows := by
  rw [identities, List.mem_mergeSort, List.mem_map]
  constructor
  · rintro ⟨⟨other, name⟩, hrow, rfl⟩
    obtain ⟨hmem, hbout⟩ := List.mem_filter.1 hrow
    obtain rfl : other = bout := by simpa using hbout
    exact hmem
  · intro hmem
    exact ⟨_, List.mem_filter.2 ⟨hmem, by simp⟩, rfl⟩

theorem identities_ascend (hnodup : s.participantRows.Nodup) (bout : UInt64) :
    (s.identities bout).Pairwise (· < ·) := by
  have hnames : ((s.participantRows.filter fun row => row.1 = bout).map Prod.snd).Nodup := by
    refine List.Nodup.map_on ?_ (hnodup.filter _)
    intro a ha b hb heq
    have ha : a.1 = bout := by simpa using (List.mem_filter.1 ha).2
    have hb : b.1 = bout := by simpa using (List.mem_filter.1 hb).2
    exact Prod.ext (ha.trans hb.symm) heq
  have hsorted : (s.identities bout).Pairwise fun a b => decide (a ≤ b) = true := by
    refine List.pairwise_mergeSort ?_ ?_ _
    · intro a b c hab hbc
      simp only [decide_eq_true_eq] at hab hbc ⊢
      exact String.le_trans hab hbc
    · intro a b
      simp only [Bool.or_eq_true, decide_eq_true_eq]
      exact String.le_total a b
  have hperm : (s.identities bout).Nodup := (List.mergeSort_perm _ _).nodup_iff.2 hnames
  refine (hsorted.and hperm).imp ?_
  intro a b hab
  exact Std.lt_of_le_of_ne (by simpa using hab.1) hab.2

end Colloquy.Source.Rows
