/-
How often a value is found in an ordered map, and how that number changes
with one entry. The lemmas are equations between sums, so that nothing is
taken away from a number that may be nothing.

Chain: on `OrderedMap`; the books of an engine count pins so, and those of a
desk the names that hold an engine.
-/
import Colonnade.Proofs.OrderedMap
import Mathlib.Data.Finset.Card

namespace Colonnade.OrderedMap

open Std

variable {α β : Type} [Ord α] [LawfulEqOrd α] [TransOrd α] [DecidableEq α]
  [DecidableEq β] {m m' : TreeMap α β} {k : α} {v : β}

omit [Ord α] [LawfulEqOrd α] [TransOrd α] in
/-- Two sets that differ at one place have sizes that differ there. -/
theorem card_of_erase_eq {s s' : Finset α} {a : α}
    (hrest : s'.erase a = s.erase a) :
    s'.card + (if a ∈ s then 1 else 0)
      = s.card + (if a ∈ s' then 1 else 0) := by
  have hcard (u : Finset α) :
      (u.erase a).card + (if a ∈ u then 1 else 0) = u.card := by
    split
    next hmem => exact Finset.card_erase_add_one hmem
    next hmem => rw [Finset.erase_eq_of_notMem hmem, Nat.add_zero]
  rw [← hcard s, ← hcard s', hrest]
  omega

/-- The keys under which a map has a value. -/
def keysOf (m : TreeMap α β) (v : β) : Finset α :=
  m.keys.toFinset.filter fun k => m[k]? = some v

theorem mem_keysOf : k ∈ keysOf m v ↔ m[k]? = some v := by
  unfold keysOf
  rw [Finset.mem_filter, List.mem_toFinset, TreeMap.mem_keys,
    TreeMap.mem_iff_isSome_getElem?]
  exact and_iff_right_of_imp Option.isSome_of_eq_some

/-- How many keys a map has a value under. -/
def tally (m : TreeMap α β) (v : β) : Nat := (keysOf m v).card

/-- A value is tallied if some key has it. -/
theorem tally_pos : 0 < tally m v ↔ ∃ k : α, m[k]? = some v := by
  unfold tally
  rw [Finset.card_pos]
  exact exists_congr fun k => mem_keysOf

theorem tally_empty (v : β) : tally (∅ : TreeMap α β) v = 0 := by
  refine Nat.eq_zero_of_not_pos fun hpos => ?_
  obtain ⟨k, hk⟩ := tally_pos.1 hpos
  rw [TreeMap.getElem?_emptyc] at hk
  cases hk

/-- One entry has changed, at most. -/
theorem tally_changed (hothers : ∀ a, a ≠ k → m'[a]? = m[a]?) (v : β) :
    tally m' v + (if m[k]? = some v then 1 else 0)
      = tally m v + (if m'[k]? = some v then 1 else 0) := by
  have hrest : (keysOf m' v).erase k = (keysOf m v).erase k := by
    ext a
    rw [Finset.mem_erase, Finset.mem_erase, mem_keysOf, mem_keysOf]
    exact and_congr_right fun hne => by rw [hothers a hne]
  have hcard := card_of_erase_eq hrest
  simp only [mem_keysOf] at hcard
  exact hcard

/-- An inserted key is tallied under its new value and no more under the old.
-/
theorem tally_insert (m : TreeMap α β) (k : α) (w v : β) :
    tally (m.insert k w) v + (if m[k]? = some v then 1 else 0)
      = tally m v + (if some w = some v then 1 else 0) := by
  have hothers (a : α) (ha : a ≠ k) : (m.insert k w)[a]? = m[a]? := by
    rw [getElem?_insert, if_neg ha]
  have hchanged := tally_changed hothers v
  rwa [getElem?_insert, if_pos rfl] at hchanged

/-- An erased key is tallied no more. -/
theorem tally_erase (m : TreeMap α β) (k : α) (v : β) :
    tally (m.erase k) v + (if m[k]? = some v then 1 else 0) = tally m v := by
  have hothers (a : α) (ha : a ≠ k) : (m.erase k)[a]? = m[a]? := by
    rw [getElem?_erase, if_neg ha]
  have hchanged := tally_changed hothers v
  have hnone : ¬ none = some v := nofun
  rwa [getElem?_erase, if_pos rfl, if_neg hnone] at hchanged

end Colonnade.OrderedMap
