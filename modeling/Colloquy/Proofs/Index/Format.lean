import Colloquy.Proofs.Index.File
import Mathlib.Data.List.Sort

/-!
The bytes of a file do not depend on the order in which its entries were handed over, and are read
back in the order of their ids.
-/

namespace Colloquy.Index
open Colloquy.Disk

section Sorted
variable {entries others : List Entry}

end Sorted

section Written
variable {d d' : Disk} {path : Path} {name : String} {entries : List Entry}

theorem replace_eq_ok {last : String} {bytes : List UInt8}
    (h : replace d path last bytes = (.ok (), d')) : ∃ staged,
      d.write (stagingPath path last) (.bytes bytes) = .ok staged ∧
        staged.rename (stagingPath path last) path = .ok d' := by
  unfold replace at h
  split at h
  · cases h
  · rename_i staged hwrite
    split at h
    · cases h
    · rename_i replaced hrename
      rw [← (Prod.mk.inj h).2]
      exact ⟨staged, hwrite, hrename⟩

theorem writeAt_eq_ok (h : writeAt d path name entries = (.ok (), d')) : ∃ made last,
    replace made path last (encode name entries) = (.ok (), d') := by
  unfold writeAt at h
  split at h
  · cases h
  · cases h
  · exact ⟨_, _, h⟩

/-- What was written at a path is read at it, whatever the path. -/
theorem read_writeAt (h : writeAt d path name entries = (.ok (), d')) :
    d'.read path = .ok (.bytes (encode name entries)) := by
  obtain ⟨made, last, hreplace⟩ := writeAt_eq_ok h
  obtain ⟨staged, hwrite, hrename⟩ := replace_eq_ok hreplace
  obtain ⟨spot, hspot, hfree, rfl⟩ := write_eq_ok hwrite
  obtain ⟨content, source, goal, hread, hsource, hgoal, hgoalfree, rfl⟩ := rename_eq_ok hrename
  have hne {d : Disk} {place : Path} (hfile : d.node? place ≠ some .directory) : place ≠ [] := by
    rintro rfl
    exact hfile (node?_nil d)
  -- the staging file is moved from where it was put, with what was put there
  have hagain := locate_of_keeps (keeps_put hfree (.file (.bytes (encode name entries)))) hspot
  have hstaged := node?_put_self made (hne hfree) (.file (.bytes (encode name entries)))
  have hcontent := read_of_node hagain hstaged
  rw [hread, Except.ok.injEq] at hcontent
  rw [hagain, Except.ok.injEq] at hsource
  subst hcontent hsource
  have hspotfree : (made.put spot (.file (.bytes (encode name entries)))).node? spot ≠
      some .directory := by
    rw [hstaged]
    nofun
  -- no directory is in the way of the goal after that
  have hcleared : ((made.put spot (.file (.bytes (encode name entries)))).clear spot).node? goal ≠
      some .directory := by
    by_cases hgoal : goal = spot
    · rw [hgoal, node?_clear_self _ (hne hfree)]
      nofun
    · rw [node?_clear_of_ne _ hgoal]
      exact hgoalfree
  have hkeeps := keeps_trans (keeps_clear hspotfree)
    (keeps_put hcleared (.file (.bytes (encode name entries))))
  exact read_of_node (locate_of_keeps hkeeps (locate_of_locateTarget hgoal))
    (node?_put_self _ (hne hgoalfree) _)

end Written

end Colloquy.Index
