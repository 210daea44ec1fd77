import Colloquy.Keyed
import Mathlib.Data.List.Dedup

/-!
Values under keys. What is found under a key after an insertion needs nothing of the list; that a
list in ascending order is put together from its own entries again does.
-/

namespace Colloquy.Keyed
variable {κ α : Type} [Ord κ]

/-- The keys ascend, and so no key occurs twice. -/
def Sorted (entries : List (κ × α)) : Prop :=
  entries.Pairwise fun a b => compare a.1 b.1 = .lt

theorem mem_insert {key : κ} {value : α} {entries : List (κ × α)} {e : κ × α}
    (h : e ∈ insert key value entries) : e = (key, value) ∨ e ∈ entries := by
  induction entries with
  | nil => exact .inl (List.mem_singleton.1 h)
  | cons head rest ih =>
    obtain ⟨k, v⟩ := head
    rw [insert] at h
    split at h
    · exact List.mem_cons.1 h
    · rcases List.mem_cons.1 h with h | h
      · exact .inl h
      · exact .inr (List.mem_cons_of_mem _ h)
    · rcases List.mem_cons.1 h with h | h
      · exact .inr (h ▸ List.mem_cons_self)
      · rcases ih h with h | h
        · exact .inl h
        · exact .inr (List.mem_cons_of_mem _ h)

theorem length_insert_le (key : κ) (value : α) (entries : List (κ × α)) :
    (insert key value entries).length ≤ entries.length + 1 := by
  induction entries with
  | nil => exact Nat.le_refl _
  | cons head rest ih =>
    obtain ⟨k, v⟩ := head
    rw [insert]
    split <;> simp only [List.length_cons] <;> omega

theorem insertAll_cons (e : κ × α) (entries into : List (κ × α)) :
    insertAll (e :: entries) into = insertAll entries (insert e.1 e.2 into) := rfl

theorem mem_insertAll {entries into : List (κ × α)} {e : κ × α} (h : e ∈ insertAll entries into) :
    e ∈ entries ∨ e ∈ into := by
  induction entries generalizing into with
  | nil => exact .inr h
  | cons head rest ih =>
    rw [insertAll_cons] at h
    rcases ih h with h | h
    · exact .inl (List.mem_cons_of_mem _ h)
    · rcases mem_insert h with h | h
      · exact .inl (h ▸ List.mem_cons_self)
      · exact .inr h

theorem length_insertAll_le (entries into : List (κ × α)) :
    (insertAll entries into).length ≤ entries.length + into.length := by
  induction entries generalizing into with
  | nil => exact Nat.le_add_left _ _
  | cons head rest ih =>
    have hall := ih (insert head.1 head.2 into)
    have hone := length_insert_le head.1 head.2 into
    rw [insertAll_cons, List.length_cons]
    omega

/-- A key past all others goes to the end. -/
theorem insert_last {key : κ} {value : α} {entries : List (κ × α)}
    (h : ∀ e ∈ entries, compare key e.1 = .gt) :
    insert key value entries = entries ++ [(key, value)] := by
  induction entries with
  | nil => rfl
  | cons head rest ih =>
    obtain ⟨k, v⟩ := head
    have hrest := ih fun e he => h e (List.mem_cons_of_mem _ he)
    rw [insert]
    simp only [h (k, v) List.mem_cons_self, hrest]
    rfl

theorem mem_of_find? [Std.LawfulEqOrd κ] {key : κ} {value : α} {entries : List (κ × α)}
    (h : find? key entries = some value) : (key, value) ∈ entries := by
  induction entries with
  | nil => cases h
  | cons head rest ih =>
    obtain ⟨k, v⟩ := head
    rw [find?] at h
    split at h
    · cases h
    · rename_i heq
      have hk : key = k := Std.LawfulEqCmp.eq_of_compare heq
      have hv : v = value := Option.some.inj h
      rw [hk, hv]
      exact List.mem_cons_self
    · exact List.mem_cons_of_mem _ (ih h)

theorem find?_of_mem [Std.OrientedOrd κ] {key : κ} {value : α} {entries : List (κ × α)}
    (hs : Sorted entries) (h : (key, value) ∈ entries) :
    find? key entries = some value := by
  induction entries with
  | nil => cases h
  | cons head rest ih =>
    obtain ⟨k, v⟩ := head
    obtain ⟨hfirst, hrest⟩ := List.pairwise_cons.1 hs
    rw [find?]
    rcases List.mem_cons.1 h with he | he
    · obtain ⟨rfl, rfl⟩ := Prod.mk.inj he
      have hself : compare key key = .eq := Std.ReflCmp.compare_self
      rw [hself]
    · have hgt : compare key k = .gt := Std.OrientedCmp.gt_iff_lt.2 (hfirst (key, value) he)
      rw [hgt]
      exact ih hrest he

theorem nodup_keys [Std.OrientedOrd κ] {entries : List (κ × α)} (hs : Sorted entries) :
    (entries.map Prod.fst).Nodup := by
  refine List.pairwise_map.2 (hs.imp ?_)
  intro a b hlt hsame
  have hself : compare a.1 a.1 = .eq := Std.ReflCmp.compare_self
  rw [← hsame, hself] at hlt
  cases hlt

theorem find?_eq_none [Std.TransOrd κ] [Std.LawfulEqOrd κ] {key : κ} {entries : List (κ × α)}
    (hs : Sorted entries) : find? key entries = none ↔ key ∉ entries.map Prod.fst := by
  constructor
  · intro h hmem
    obtain ⟨e, he, rfl⟩ := List.mem_map.1 hmem
    rw [find?_of_mem hs he] at h
    cases h
  · intro h
    rw [Option.eq_none_iff_forall_ne_some]
    intro value hvalue
    exact h (List.mem_map_of_mem (mem_of_find? hvalue))

theorem find?_insert_self [Std.LawfulEqOrd κ] (key : κ) (value : α)
    (entries : List (κ × α)) : find? key (insert key value entries) = some value := by
  have hself : compare key key = .eq := Std.ReflCmp.compare_self
  induction entries with
  | nil => rw [insert, find?, hself]
  | cons head rest ih =>
    obtain ⟨k, v⟩ := head
    rw [insert]
    split
    · rw [find?, hself]
    · rw [find?, hself]
    · rename_i hgt
      rw [find?, hgt]
      exact ih

/-- An insertion does not change what is found under another key, ordered or not. -/
theorem find?_insert_of_ne [Std.TransOrd κ] [Std.LawfulEqOrd κ] {key other : κ}
    (hne : other ≠ key) (value : α) (entries : List (κ × α)) :
    find? other (insert key value entries) = find? other entries := by
  have hneq : compare other key ≠ .eq := fun h => hne (Std.LawfulEqCmp.eq_of_compare h)
  induction entries with
  | nil =>
    cases hother : compare other key with
    | lt => simp only [insert, find?, hother]
    | eq => exact absurd hother hneq
    | gt => simp only [insert, find?, hother]
  | cons head rest ih =>
    obtain ⟨k, v⟩ := head
    rw [insert]
    split
    · rename_i hlt
      cases hother : compare other key with
      | lt =>
        have hbefore : compare other k = .lt := Std.TransCmp.lt_trans hother hlt
        simp only [find?, hother, hbefore]
      | eq => exact absurd hother hneq
      | gt =>
        rw [find?, hother]
    · rename_i heq
      obtain rfl : key = k := Std.LawfulEqCmp.eq_of_compare heq
      cases hother : compare other key with
      | lt => simp only [find?, hother]
      | eq => exact absurd hother hneq
      | gt => simp only [find?, hother]
    · rw [find?, find?, ih]

theorem sorted_insert [Std.TransOrd κ] [Std.LawfulEqOrd κ] {key : κ} {value : α}
    {entries : List (κ × α)} (hs : Sorted entries) : Sorted (insert key value entries) := by
  induction entries with
  | nil => exact List.pairwise_singleton _ _
  | cons head rest ih =>
    obtain ⟨k, v⟩ := head
    obtain ⟨hfirst, hrest⟩ := List.pairwise_cons.1 hs
    rw [insert]
    split
    · rename_i hlt
      refine List.pairwise_cons.2 ⟨fun e he => ?_, hs⟩
      rcases List.mem_cons.1 he with rfl | he
      · exact hlt
      · exact Std.TransCmp.lt_trans hlt (hfirst e he)
    · rename_i heq
      obtain rfl : key = k := Std.LawfulEqCmp.eq_of_compare heq
      exact List.pairwise_cons.2 ⟨hfirst, hrest⟩
    · rename_i hgt
      refine List.pairwise_cons.2 ⟨fun e he => ?_, ih hrest⟩
      rcases mem_insert he with rfl | he
      · exact Std.OrientedCmp.gt_iff_lt.1 hgt
      · exact hfirst e he

theorem sorted_insertAll [Std.TransOrd κ] [Std.LawfulEqOrd κ] {entries into : List (κ × α)}
    (hs : Sorted into) : Sorted (insertAll entries into) := by
  induction entries generalizing into with
  | nil => exact hs
  | cons head rest ih => exact ih (sorted_insert hs)

/-- The value of the last entry with a key. -/
def last? [DecidableEq κ] (key : κ) (entries : List (κ × α)) : Option α :=
  (entries.reverse.find? fun e => e.1 = key).map Prod.snd

omit [Ord κ] in
theorem last?_cons [DecidableEq κ] (key : κ) (e : κ × α) (entries : List (κ × α)) :
    last? key (e :: entries) =
      (last? key entries).or (if e.1 = key then some e.2 else none) := by
  rw [last?, last?, List.reverse_cons, List.find?_append]
  cases entries.reverse.find? fun e => e.1 = key with
  | some found => rfl
  | none =>
    by_cases hkey : e.1 = key
    · simp [hkey]
    · simp [hkey]

omit [Ord κ] in
theorem last?_eq_none [DecidableEq κ] {key : κ} {entries : List (κ × α)} :
    last? key entries = none ↔ key ∉ entries.map Prod.fst := by
  induction entries with
  | nil => exact iff_of_true rfl List.not_mem_nil
  | cons e rest ih =>
    rw [last?_cons, Option.or_eq_none_iff, ih, List.map_cons, List.mem_cons, not_or, and_comm]
    by_cases hkey : e.1 = key
    · simp [hkey]
    · simp [hkey, Ne.symm hkey]

omit [Ord κ] in
/-- Of a key that occurs once the value is the last. -/
theorem last?_of_mem [DecidableEq κ] {e : κ × α} {entries : List (κ × α)}
    (hkeys : (entries.map Prod.fst).Nodup) (he : e ∈ entries) : last? e.1 entries = some e.2 := by
  induction entries with
  | nil => cases he
  | cons head rest ih =>
    obtain ⟨hfirst, hrest⟩ := List.nodup_cons.1 hkeys
    rw [last?_cons]
    rcases List.mem_cons.1 he with rfl | he
    · rw [last?_eq_none.2 hfirst, if_pos rfl]
      rfl
    · rw [ih hrest he]
      rfl

/-- Of entries with the same key the last one stays. -/
theorem find?_insertAll [DecidableEq κ] [Std.TransOrd κ] [Std.LawfulEqOrd κ] (key : κ)
    (entries into : List (κ × α)) :
    find? key (insertAll entries into) = (last? key entries).or (find? key into) := by
  induction entries generalizing into with
  | nil => rfl
  | cons e rest ih =>
    rw [insertAll_cons, ih, last?_cons]
    cases last? key rest with
    | some found => rfl
    | none =>
      by_cases hkey : e.1 = key
      · rw [if_pos hkey, ← hkey, find?_insert_self]
        rfl
      · rw [if_neg hkey, find?_insert_of_ne (Ne.symm hkey)]
        rfl

/-- There are as many entries in the end as there were keys. -/
theorem length_insertAll [DecidableEq κ] [Std.TransOrd κ] [Std.LawfulEqOrd κ]
    (entries : List (κ × α)) :
    (insertAll entries []).length = (entries.map Prod.fst).dedup.length := by
  have hsorted : Sorted (insertAll entries []) := sorted_insertAll List.Pairwise.nil
  have hfind (key : κ) : find? key (insertAll entries []) = last? key entries := by
    rw [find?_insertAll]
    exact Option.or_none
  have hmem (key : κ) :
      key ∈ (insertAll entries []).map Prod.fst ↔ key ∈ (entries.map Prod.fst).dedup := by
    rw [List.mem_dedup, ← not_iff_not, ← find?_eq_none hsorted, hfind, last?_eq_none]
  have hperm : ((insertAll entries []).map Prod.fst).Perm (entries.map Prod.fst).dedup :=
    (List.perm_ext_iff_of_nodup (nodup_keys hsorted) (List.nodup_dedup _)).2 hmem
  rw [← hperm.length_eq, List.length_map]

theorem insertAll_append [Std.OrientedOrd κ] {entries into : List (κ × α)}
    (hs : Sorted (into ++ entries)) : insertAll entries into = into ++ entries := by
  induction entries generalizing into with
  | nil => exact (List.append_nil into).symm
  | cons head rest ih =>
    have hlast : insert head.1 head.2 into = into ++ [head] :=
      insert_last fun e he => Std.OrientedCmp.gt_iff_lt.2
        ((List.pairwise_append.1 hs).2.2 e he head List.mem_cons_self)
    rw [List.append_cons] at hs
    rw [insertAll_cons, hlast, ih hs, ← List.append_cons]

/-- Entries in ascending order are put together to the same list. -/
theorem insertAll_sorted [Std.OrientedOrd κ] {entries : List (κ × α)} (hs : Sorted entries) :
    insertAll entries [] = entries := by
  have hnil : Sorted ([] ++ entries) := hs
  exact insertAll_append hnil

/-- Lists in order are told by what is found in them. -/
theorem eq_of_find? [Std.TransOrd κ] [Std.LawfulEqOrd κ] {entries others : List (κ × α)}
    (hs : Sorted entries) (hothers : Sorted others)
    (h : ∀ key, find? key entries = find? key others) : entries = others := by
  have hmem (e : κ × α) : e ∈ entries ↔ e ∈ others := by
    constructor
    · intro he
      have hfind := find?_of_mem hs (show (e.1, e.2) ∈ entries from he)
      exact mem_of_find? ((h e.1).symm.trans hfind)
    · intro he
      have hfind := find?_of_mem hothers (show (e.1, e.2) ∈ others from he)
      exact mem_of_find? ((h e.1).trans hfind)
  have hnodup {l : List (κ × α)} (hl : Sorted l) : l.Nodup :=
    (List.pairwise_map.1 (nodup_keys hl)).imp fun hne he => hne (congrArg Prod.fst he)
  have hperm : entries.Perm others :=
    (List.perm_ext_iff_of_nodup (hnodup hs) (hnodup hothers)).2 hmem
  refine hperm.eq_of_pairwise ?_ hs hothers
  intro a b _ _ hlt hgt
  rw [Std.OrientedCmp.gt_iff_lt.2 hlt] at hgt
  cases hgt

theorem find?_map [Std.LawfulEqOrd κ] {β : Type} (f : κ → α → β) (key : κ)
    (entries : List (κ × α)) :
    find? key (entries.map fun e => (e.1, f e.1 e.2)) = (find? key entries).map (f key) := by
  induction entries with
  | nil => rfl
  | cons head rest ih =>
    obtain ⟨k, v⟩ := head
    rw [List.map_cons, find?, find?]
    cases hkey : compare key k with
    | lt => rfl
    | eq =>
      obtain rfl : key = k := Std.LawfulEqCmp.eq_of_compare hkey
      rfl
    | gt => exact ih

theorem sorted_map {β : Type} (f : κ → α → β) {entries : List (κ × α)} (hs : Sorted entries) :
    Sorted (entries.map fun e => (e.1, f e.1 e.2)) := List.pairwise_map.2 hs

/-- There are no more entries than numbers that their keys can be. -/
theorem length_le_of_sorted {α : Type} {entries : List (UInt64 × α)} (hs : Sorted entries)
    {least bound : Nat} (hle : least ≤ bound)
    (hkeys : ∀ e ∈ entries, least ≤ e.1.toNat ∧ e.1.toNat < bound) :
    least + entries.length ≤ bound := by
  induction entries generalizing least with
  | nil => exact hle
  | cons head rest ih =>
    obtain ⟨hfirst, hrest⟩ := List.pairwise_cons.1 hs
    obtain ⟨hleast, hhead⟩ := hkeys head List.mem_cons_self
    have hmore : head.1.toNat + 1 + rest.length ≤ bound := by
      refine ih hrest hhead fun e he => ⟨?_, (hkeys e (List.mem_cons_of_mem _ he)).2⟩
      have hlt : head.1 < e.1 := Std.compare_eq_lt.1 (hfirst e he)
      exact UInt64.lt_iff_toNat_lt.1 hlt
    rw [List.length_cons]
    omega

section Erase
variable [Std.LawfulEqOrd κ] {key : κ}

theorem erase_cons_self (value : α) (entries : List (κ × α)) :
    erase key ((key, value) :: entries) = erase key entries := by
  have hself : compare key key = .eq := Std.ReflCmp.compare_self
  exact List.filter_cons_of_neg (by rw [hself]; decide)

theorem erase_cons_of_ne {other : κ} (hne : other ≠ key) (value : α) (entries : List (κ × α)) :
    erase key ((other, value) :: entries) = (other, value) :: erase key entries := by
  have hother : compare key other ≠ .eq := fun h => hne (Std.LawfulEqCmp.eq_of_compare h).symm
  exact List.filter_cons_of_pos (bne_iff_ne.2 hother)

theorem erase_of_not_mem {entries : List (κ × α)} (h : ∀ e ∈ entries, e.1 ≠ key) :
    erase key entries = entries := by
  refine List.filter_eq_self.2 fun e he => bne_iff_ne.2 fun heq => ?_
  exact h e he (Std.LawfulEqCmp.eq_of_compare heq).symm

end Erase

/-- Where what is under one key is taken out of a list, what is under another is still found. -/
theorem find?_filter_ne {β ι : Type} [DecidableEq ι] (key : β → ι) {k other : ι} (hne : other ≠ k)
    (l : List β) : (l.filter fun x => key x ≠ k).find? (fun x => key x = other) =
      l.find? fun x => key x = other := by
  rw [List.find?_filter]
  congr 1
  funext x
  by_cases h : key x = other
  · simp [h, hne]
  · simp [h]

end Colloquy.Keyed
