/-
The row index as a pair of maps that undo each other: the slot of a key and
the key at a slot. `Inverse` says so, and the two edits of the index keep it.

Removing a row is where the two could come apart. The last key moves into
the slot that falls free, and `slot?_remove` says what that means for every
other key: the moved one is found at that slot, and each of the others where
it was. Cells are moved the same way, so a row finds its old content at its
new slot (`content?_vacate_moved`).

Chain: `Table.Aligned` asks this of the rows of every table.
-/
import Colonnade.Proofs.Column
import Colonnade.Proofs.OrderedMap
import Colonnade.Table.Rows

namespace Colonnade.Rows

/-- Slots and keys are two views of one assignment. -/
def Inverse (r : Rows) : Prop :=
  ∀ key i, r.slot? key = some i ↔ r.keys[i]? = some key

theorem slot?_empty (key : ObjectKey) : slot? {} key = none :=
  Std.TreeMap.getElem?_emptyc

theorem inverse_empty : Inverse {} := by
  intro key i
  rw [slot?_empty]
  simp

variable {r : Rows} {key a : ObjectKey} {slot i : Nat}

theorem Inverse.slot_lt (h : r.Inverse) (hi : r.slot? key = some i) :
    i < r.size := by
  obtain ⟨hlt, -⟩ := Array.getElem?_eq_some_iff.1 ((h key i).1 hi)
  exact hlt

/-- Two keys do not share a slot. -/
theorem Inverse.injective (h : r.Inverse) (hkey : r.slot? key = some i)
    (ha : r.slot? a = some i) : key = a := by
  rw [h] at hkey ha
  exact Option.some.inj (hkey.symm.trans ha)

theorem slot?_push (r : Rows) (key a : ObjectKey) :
    (r.push key).slot? a = if a = key then some r.size else r.slot? a :=
  OrderedMap.getElem?_insert _ _ _ _

theorem size_push (r : Rows) (key : ObjectKey) :
    (r.push key).size = r.size + 1 :=
  Array.size_push ..

/-- A key that is not there yet gets the slot after the last. -/
theorem Inverse.push (h : r.Inverse) (hkey : r.slot? key = none) :
    (r.push key).Inverse := by
  intro a i
  have hkeys : (r.push key).keys[i]?
      = if i = r.size then some key else r.keys[i]? := Array.getElem?_push
  rw [slot?_push, hkeys]
  by_cases ha : a = key
  · subst ha
    have hno : r.keys[i]? ≠ some a := by
      rw [Ne, ← h, hkey]
      exact nofun
    by_cases hi : i = r.size
    · simp [hi]
    · simp [hi, hno, Ne.symm hi]
  · rw [if_neg ha]
    by_cases hi : i = r.size
    · have hno : r.slot? a ≠ some i := fun hs =>
        absurd (h.slot_lt hs) (by omega)
      simp [hi, hi ▸ hno, Ne.symm ha]
    · rw [if_neg hi]
      exact h a i

-- ======================================================= removing a row

/-- Where a row goes when another one is taken out of its slot: the last
row takes the slot, and the others stay. -/
def moved (r : Rows) (slot j : Nat) : Nat :=
  if j = r.size - 1 then slot else j

theorem keys_remove (r : Rows) (key : ObjectKey) (slot : Nat) :
    (r.remove key slot).keys = Slots.vacate r.keys slot := by
  unfold remove
  dsimp only
  split <;> rfl

theorem size_remove (hslot : slot < r.size) :
    (r.remove key slot).size = r.size - 1 := by
  show (r.remove key slot).keys.size = _
  rw [keys_remove]
  exact Slots.size_vacate hslot

/-- Where the rows are found after one of them was taken out. -/
theorem slot?_remove (h : r.Inverse) (hslot : r.slot? key = some slot)
    (a : ObjectKey) :
    (r.remove key slot).slot? a
      = if a = key then none else (r.slot? a).map (r.moved slot) := by
  have hlt : slot < r.size := h.slot_lt hslot
  have hvacated (i : Nat) :=
    Slots.getElem?_vacate (show slot < r.keys.size from hlt) i
  have herase : (r.slots.erase key)[a]?
      = if a = key then none else r.slot? a :=
    OrderedMap.getElem?_erase _ _ _
  have hback : r.keys.back? = r.keys[r.size - 1]? := Array.back?_eq_getElem? ..
  -- the slot falls free in the middle, or it was the last one
  by_cases hlast : slot = r.size - 1
  · have hfree : (Slots.vacate r.keys slot)[slot]? = none := by
      rw [hvacated, if_neg]
      show ¬ slot < r.size - 1
      omega
    have hremove : (r.remove key slot).slot? a = (r.slots.erase key)[a]? := by
      unfold remove
      dsimp only
      rw [hfree]
      rfl
    rw [hremove, herase]
    split
    · rfl
    next hne =>
      cases ha : r.slot? a with
      | none => rfl
      | some j =>
          have hj : j ≠ r.size - 1 := by
            intro heq
            subst heq
            exact hne (h.injective ha (hlast ▸ hslot))
          simp [moved, hj]
  · obtain ⟨last, hlastKey⟩ : ∃ last, r.keys[r.size - 1]? = some last :=
      ⟨_, Array.getElem?_eq_getElem (by
        show r.size - 1 < r.size
        omega)⟩
    have hlastSlot : r.slot? last = some (r.size - 1) := (h _ _).2 hlastKey
    have hfree : (Slots.vacate r.keys slot)[slot]? = some last := by
      rw [hvacated, if_pos, if_pos rfl, hback, hlastKey]
      show slot < r.size - 1
      omega
    have hremove : (r.remove key slot).slot? a
        = if a = last then some slot else (r.slots.erase key)[a]? := by
      unfold remove
      dsimp only
      rw [hfree]
      exact OrderedMap.getElem?_insert _ _ _ _
    have hne : last ≠ key := by
      intro heq
      subst heq
      rw [hslot] at hlastSlot
      exact hlast (Option.some.inj hlastSlot)
    rw [hremove, herase]
    by_cases ha : a = last
    · subst ha
      rw [if_pos rfl, if_neg hne, hlastSlot]
      simp [moved]
    · rw [if_neg ha]
      split
      · rfl
      · cases haslot : r.slot? a with
        | none => rfl
        | some j =>
            have hj : j ≠ r.size - 1 := by
              intro heq
              subst heq
              exact ha (h.injective haslot hlastSlot)
            simp [moved, hj]

/-- Taking a row out keeps slots and keys two views of one assignment. -/
theorem Inverse.remove (h : r.Inverse) (hslot : r.slot? key = some slot) :
    (r.remove key slot).Inverse := by
  intro a i
  have hlt : slot < r.size := h.slot_lt hslot
  have hback : r.keys.back? = r.keys[r.size - 1]? := Array.back?_eq_getElem? ..
  have hkeys : (r.remove key slot).keys[i]?
      = if i < r.size - 1 then
          if i = slot then r.keys[r.size - 1]? else r.keys[i]?
        else none := by
    have hin : slot < r.keys.size := hlt
    rw [keys_remove, Slots.getElem?_vacate hin, hback]
    rfl
  rw [slot?_remove h hslot, hkeys]
  constructor
  · intro ha
    split at ha
    next => cases ha
    next hne =>
      obtain ⟨j, hj, rfl⟩ := Option.map_eq_some_iff.1 ha
      have hjlt := h.slot_lt hj
      -- only the removed key was at the slot, so the moved row is another one
      have hjs : j ≠ slot := by
        intro heq
        subst heq
        exact hne (h.injective hj hslot)
      have hjkey := (h a j).1 hj
      unfold moved
      by_cases hl : j = r.size - 1
      · rw [if_pos hl, if_pos (by omega), if_pos rfl, ← hl]
        exact hjkey
      · rw [if_neg hl, if_pos (by omega), if_neg hjs]
        exact hjkey
  · intro ha
    split at ha
    next hi =>
      -- what is at another slot is not the removed key
      have hne : ∀ j, r.keys[j]? = some a → j ≠ slot → a ≠ key := by
        rintro j hj hjs rfl
        rw [← h, hslot] at hj
        exact hjs (Option.some.inj hj).symm
      split at ha
      next his =>
        rw [if_neg (hne _ ha (by omega)), (h a _).2 ha]
        simp [moved, his]
      next his =>
        rw [if_neg (hne _ ha his), (h a _).2 ha]
        simp [moved, Nat.ne_of_lt hi]
    next => cases ha

/-- A row that stays finds its content where it has moved. -/
theorem content?_vacate_moved {cells : Cells} (hsize : cells.size = r.size)
    {j : Nat} (hslot : slot < r.size) (hj : j < r.size) (hne : j ≠ slot) :
    (cells.vacate slot).content? (r.moved slot j) = cells.content? j := by
  rw [Cells.content?_vacate (by omega), hsize]
  unfold moved
  by_cases hl : j = r.size - 1
  · rw [if_pos hl, if_pos (by omega), if_pos rfl, ← hl]
  · rw [if_neg hl, if_pos (by omega), if_neg hne]

end Colonnade.Rows
