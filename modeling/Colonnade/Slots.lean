/-
Arrays with one entry per row. Rows have no order of their own, so a row is
taken out by moving the last entry into its place; every array of a table
does this with the same slot, which keeps the entries of one row together.

Chain: used by the row index and by the cells of every column.
-/

namespace Colonnade.Slots

variable {α : Type}

/-- The array without the entry at a slot, the last entry moved there. -/
def vacate (xs : Array α) (slot : Nat) : Array α :=
  match xs.back? with
  | none => xs
  | some last =>
    if slot < xs.size then (xs.setIfInBounds slot last).pop else xs

/-- One entry goes. -/
theorem size_vacate {xs : Array α} {slot : Nat} (h : slot < xs.size) :
    (vacate xs slot).size = xs.size - 1 := by
  have hback : xs.back? = some xs[xs.size - 1] := by
    rw [Array.back?_eq_getElem?]
    exact Array.getElem?_eq_getElem (by omega)
  simp [vacate, hback, h]

/-- The vacated slot holds the entry that was last, and every other slot
what it held. -/
theorem getElem?_vacate {xs : Array α} {slot : Nat} (h : slot < xs.size)
    (i : Nat) :
    (vacate xs slot)[i]? =
      if i < xs.size - 1 then
        if i = slot then xs.back? else xs[i]?
      else none := by
  have hback : xs.back? = some xs[xs.size - 1] := by
    rw [Array.back?_eq_getElem?]
    exact Array.getElem?_eq_getElem (by omega)
  simp only [vacate, hback, h, if_true, Array.getElem?_pop,
    Array.size_setIfInBounds, Array.getElem?_setIfInBounds]
  by_cases hi : i < xs.size - 1
  · by_cases hs : slot = i
    · subst hs
      simp [hi]
    · simp [hi, hs, Ne.symm hs]
  · simp [hi]

end Colonnade.Slots
