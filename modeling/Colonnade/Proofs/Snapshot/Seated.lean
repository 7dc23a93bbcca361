/-
Objects are found where they sit. A table is `Seated` if the slot of every
object is a slot of the table, taken by that object, and every column has a
cell there. `Slotted` says besides that a slot that is taken is the slot of
its object, and that is true only as long as no object key was given twice.
A key that is given again leaves its first row behind, with nobody to find
it, but never leads anybody to a row that is not there.

So every reached snapshot is seated, with no bound on how much was created.

Chain: `Snapshot.Misuse` writes to cells by it.
-/
import Colonnade.Proofs.Snapshot.Aligned

namespace Colonnade

-- ================================================================= rows

namespace Rows

/-- The slot of a key is taken by that key. -/
def Located (r : Rows) : Prop :=
  ∀ key i, r.slot? key = some i → r.keys[i]? = some key

variable {r : Rows} {key : ObjectKey} {slot i : Nat}

theorem located_empty : Located {} := by
  intro key i h
  rw [slot?_empty] at h
  cases h

/-- A located row has a slot among the rows. -/
theorem Located.slot_lt (h : r.Located) (hi : r.slot? key = some i) :
    i < r.size := by
  obtain ⟨hlt, -⟩ := Array.getElem?_eq_some_iff.1 (h key i hi)
  exact hlt

/-- A key takes the slot after the last, whether or not it had one. -/
theorem Located.push (h : r.Located) (key : ObjectKey) :
    (r.push key).Located := by
  intro a i ha
  have hkeys : (r.push key).keys[i]?
      = if i = r.size then some key else r.keys[i]? := Array.getElem?_push
  rw [slot?_push] at ha
  rw [hkeys]
  split at ha
  next heq =>
    cases ha
    rw [if_pos rfl, heq]
  next =>
    have hlt := h.slot_lt ha
    rw [if_neg (by omega)]
    exact h a i ha

/-- Taking a row out moves the last key, and the moved key is told so. -/
theorem Located.remove (h : r.Located) (hslot : r.slot? key = some slot) :
    (r.remove key slot).Located := by
  intro a i ha
  have hlt : slot < r.keys.size := h.slot_lt hslot
  have hback : r.keys.back? = r.keys[r.keys.size - 1]? :=
    Array.back?_eq_getElem? ..
  have hvacated := Slots.getElem?_vacate hlt
  -- an object that stays is not in the slot that falls free
  have hstays (hold : (r.slots.erase key)[a]? = some i) :
      r.keys[i]? = some a ∧ i ≠ slot ∧ i < r.keys.size := by
    rw [OrderedMap.getElem?_erase] at hold
    split at hold
    next => cases hold
    next hne =>
      have hkey := h a i hold
      refine ⟨hkey, ?_, h.slot_lt hold⟩
      rintro rfl
      exact hne (Option.some.inj (hkey.symm.trans (h key i hslot)))
  rw [keys_remove]
  unfold Rows.remove slot? at ha
  dsimp only at ha
  split at ha
  next hfree =>
    obtain ⟨hkey, hne, hin⟩ := hstays ha
    have hlast : ¬ slot < r.keys.size - 1 := by
      intro hbefore
      rw [hvacated, if_pos hbefore, if_pos rfl, hback,
        Array.getElem?_eq_getElem (by omega)] at hfree
      cases hfree
    rw [hvacated, if_pos (by omega), if_neg hne]
    exact hkey
  next moved hfree =>
    rw [OrderedMap.getElem?_insert] at ha
    split at ha
    next heq =>
      cases ha
      rw [hfree, heq]
    next hother =>
      obtain ⟨hkey, hne, hin⟩ := hstays ha
      have hbefore : slot < r.keys.size - 1 := by
        by_contra hno
        rw [hvacated, if_neg hno] at hfree
        cases hfree
      rw [hvacated, if_pos hbefore, if_pos rfl, hback] at hfree
      have hmoved : i ≠ r.keys.size - 1 := by
        rintro rfl
        exact hother (Option.some.inj (hkey.symm.trans hfree))
      rw [hvacated, if_pos (by omega), if_neg hne]
      exact hkey

end Rows

-- ================================================================ tables

/-- A table whose objects are found at slots that they take, with a cell in
every column. -/
structure Table.Seated (t : Table) : Prop where
  rows : t.rows.Located
  size_eq : ∀ c ∈ t.columns, c.size = t.size

namespace Table.Seated

variable {t : Table} {key : ObjectKey} {slot : Nat}

theorem empty (key : TableKey) (name : String) :
    Table.Seated { key, name } where
  rows := Rows.located_empty
  size_eq := nofun

/-- The slot of an object is within every column. -/
theorem slot_lt (h : t.Seated) {col : ColumnKey} {c : Column}
    (hc : t.column? col = some c) (hslot : t.rows.slot? key = some slot) :
    slot < c.size := by
  rw [h.size_eq c (mem_of_column? hc)]
  exact h.rows.slot_lt hslot

/-- Rows stay seated behind a new column. -/
theorem withColumn (h : t.Seated) (col : ColumnKey) (spec : ColumnSpec) :
    (t.withColumn col spec).Seated where
  rows := h.rows
  size_eq c hc := by
    rcases List.mem_append.1 hc with hc | hc
    · exact h.size_eq c hc
    · obtain rfl := List.mem_singleton.1 hc
      exact Column.size_blank _ _ _

theorem withoutColumn (h : t.Seated) (col : ColumnKey) :
    (t.withoutColumn col).Seated where
  rows := h.rows
  size_eq c hc := h.size_eq c (List.mem_filter.1 hc).1

/-- A new object is seated. -/
theorem withObject (h : t.Seated) (key : ObjectKey) :
    (t.withObject key).Seated where
  rows := h.rows.push key
  size_eq d hd := by
    obtain ⟨c, hc, rfl⟩ := List.mem_map.1 hd
    rw [Column.size_grow, h.size_eq c hc]
    exact (Rows.size_push ..).symm

/-- Rows stay seated behind the removal of an object. -/
theorem withoutObject (h : t.Seated) (hslot : t.rows.slot? key = some slot) :
    (t.withoutObject key slot).Seated where
  rows := h.rows.remove hslot
  size_eq d hd := by
    obtain ⟨c, hc, rfl⟩ := List.mem_map.1 hd
    have hlt := h.rows.slot_lt hslot
    have hsize : c.cells.size = t.rows.size := h.size_eq c hc
    show (c.cells.vacate slot).size = (t.rows.remove key slot).size
    rw [Cells.size_vacate (hsize ▸ hlt), Rows.size_remove hlt, hsize]

theorem unlink (h : t.Seated) (target : TableKey) (key : ObjectKey) :
    (t.unlink target key).Seated where
  rows := h.rows
  size_eq d hd := by
    obtain ⟨c, hc, rfl⟩ := List.mem_map.1 hd
    show Column.size (if _ then _ else _) = t.size
    split
    · rw [Column.size_unlink]
      exact h.size_eq c hc
    · exact h.size_eq c hc

/-- Rows stay seated when content is stored. -/
theorem store (h : t.Seated) {col : ColumnKey} {c : Column}
    (hc : t.column? col = some c) (slot : Nat) (x : CellContent) :
    (t.store col slot x).Seated where
  rows := by
    rw [rows_store]
    exact h.rows
  size_eq d hd := by
    have hsize : (t.store col slot x).size = t.size :=
      congrArg Rows.size (rows_store ..)
    rw [hsize]
    rcases mem_columns_store hc hd with hd | rfl
    · exact h.size_eq d hd
    · show (c.cells.store slot x).size = t.size
      rw [Cells.size_store]
      exact h.size_eq c (mem_of_column? hc)

end Table.Seated

-- ============================================================= snapshots

namespace Snapshot

/-- Every table is seated. -/
def Seated (s : Snapshot) : Prop :=
  ∀ k t, s.table? k = some t → t.Seated

namespace Seated

variable {s s' : Snapshot}

/-- A snapshot stays seated when a table is replaced by a seated one. -/
theorem withTable (h : s.Seated) (key : TableKey) {t : Table}
    (ht : t.Seated) : (s.withTable key t).Seated := by
  intro k u hu
  rw [table?_withTable] at hu
  split at hu
  next =>
    cases hu
    exact ht
  next => exact h k u hu

/-- One instruction leaves every table seated. -/
theorem applied (h : s.Seated) {limits : Limits} {i : Instruction}
    (happ : Applied limits s i s') : s'.Seated := by
  cases happ with
  | addTable hname hnew =>
      intro k u hu
      rw [table?_withNewTable] at hu
      split at hu
      next =>
        cases hu
        exact .empty _ _
      next => exact h k u hu
  | removeTable ht hfree =>
      intro k u hu
      rw [table?_withoutTable] at hu
      split at hu
      next => cases hu
      next => exact h k u hu
  | addColumn ht htarget hvalid hnew =>
      exact h.withTable _ ((h _ _ ht).withColumn _ _)
  | removeColumn ht hc => exact h.withTable _ ((h _ _ ht).withoutColumn _)
  | createObject ht => exact h.withTable _ ((h _ _ ht).withObject _)
  | @removeObject table t key slot ht hslot =>
      have hremoved := h.withTable table ((h _ _ ht).withoutObject hslot)
      intro k u hu
      rw [table?_withoutLinks] at hu
      obtain ⟨t, ht, rfl⟩ := Option.map_eq_some_iff.1 hu
      exact (hremoved k t ht).unlink _ _
  | set ht hcell => exact h.withTable _ ((h _ _ ht).store hcell.1 _ _)
  | listInsert ht hcell => exact h.withTable _ ((h _ _ ht).store hcell.1 _ _)
  | listSet ht hcell => exact h.withTable _ ((h _ _ ht).store hcell.1 _ _)
  | listRemove ht hcell => exact h.withTable _ ((h _ _ ht).store hcell.1 _ _)
  | listClear ht hcell => exact h.withTable _ ((h _ _ ht).store hcell.1 _ _)

end Seated

/-- Every reached snapshot is seated. -/
theorem Reached.seated {is : List Instruction} {s : Snapshot}
    (h : Reached is s) : s.Seated := by
  induction h with
  | empty => exact fun k t ht => by simp at ht
  | step _ happ ih => exact ih.applied (apply_gives_iff.1 happ)
  | renumber _ _ ih => exact ih

end Snapshot

end Colonnade
