/-
Ordered maps whose keys are equal when they compare equal: what a lookup
finds after a change, with the keys compared by equality, and that putting
an entry where it already is changes nothing at all, down to the shape of
the tree. The second is why an edit of a part that fails leaves the whole as
it was: what is put back is what was taken out.

Chain: used wherever tables, transactions or pins are looked up by key.
-/
import Std.Data.TreeMap
import Mathlib.Tactic.Common

namespace Colonnade.OrderedMap

open Std Std.DTreeMap.Internal

variable {α β : Type} [Ord α] [LawfulEqOrd α]

-- =========================================================== lookups

section Lookups

variable [TransOrd α]

/-- What is inserted is found under its key, and the rest as before. -/
theorem getElem?_insert (m : TreeMap α β) (k a : α) (v : β)
    [DecidableEq α] :
    (m.insert k v)[a]? = if a = k then some v else m[a]? := by
  rw [TreeMap.getElem?_insert]
  by_cases h : a = k
  · simp [h]
  · simp [h, Ne.symm h]

theorem getElem?_erase (m : TreeMap α β) (k a : α) [DecidableEq α] :
    (m.erase k)[a]? = if a = k then none else m[a]? := by
  rw [TreeMap.getElem?_erase]
  by_cases h : a = k
  · simp [h]
  · simp [h, Ne.symm h]

theorem mem_insert {m : TreeMap α β} {k a : α} {v : β} :
    a ∈ m.insert k v ↔ a = k ∨ a ∈ m := by
  rw [TreeMap.mem_insert, LawfulEqCmp.compare_eq_iff_eq]
  exact or_congr_left eq_comm

theorem mem_erase {m : TreeMap α β} {k a : α} :
    a ∈ m.erase k ↔ a ≠ k ∧ a ∈ m := by
  rw [TreeMap.mem_erase, ne_eq, LawfulEqCmp.compare_eq_iff_eq]
  exact and_congr_left' (not_congr eq_comm)

omit [LawfulEqOrd α] in
theorem size_insert_of_mem {m : TreeMap α β} {k : α} (h : k ∈ m) (v : β) :
    (m.insert k v).size = m.size := by
  rw [TreeMap.size_insert, if_pos (TreeMap.contains_iff_mem.2 h)]

omit [LawfulEqOrd α] in
theorem size_insert_of_notMem {m : TreeMap α β} {k : α} (h : k ∉ m) (v : β) :
    (m.insert k v).size = m.size + 1 := by
  rw [TreeMap.size_insert, if_neg fun hc => h (TreeMap.contains_iff_mem.1 hc)]

theorem size_erase_of_mem {m : TreeMap α β} {k : α} (h : k ∈ m) :
    (m.erase k).size + 1 = m.size := by
  have hpos : 0 < m.size := by
    rw [← TreeMap.length_keys]
    exact List.length_pos_of_mem (TreeMap.mem_keys.2 h)
  rw [TreeMap.size_erase, if_pos (TreeMap.contains_iff_mem.2 h)]
  exact Nat.sub_add_cancel hpos

omit [LawfulEqOrd α] [TransOrd α] in
theorem values_eq_map_snd (m : TreeMap α β) :
    m.values = m.toList.map Prod.snd := by
  show Impl.values _ = (Impl.Const.toList _).map Prod.snd
  rw [Impl.values_eq_map_snd, Impl.Const.toList_eq_toListModel_map,
    List.map_map]
  rfl

/-- Lookups that agree on some part of what they find agree on that part of
all values, in order. -/
theorem map_values_congr {γ : Type} {m n : TreeMap α β} {f : β → γ}
    (h : ∀ k : α, m[k]?.map f = n[k]?.map f) :
    m.values.map f = n.values.map f := by
  have hvalues (m : TreeMap α β) :
      m.values.map f = (m.map fun _ => f).values := by
    rw [values_eq_map_snd, values_eq_map_snd, TreeMap.toList_map,
      List.map_map, List.map_map]
    rfl
  have hequiv : (m.map fun _ => f).Equiv (n.map fun _ => f) := by
    refine .of_forall_constGet?_eq fun k => ?_
    rw [TreeMap.getElem?_map, TreeMap.getElem?_map]
    exact h k
  rw [hvalues, hvalues, hequiv.values_eq]

/-- The values of a map are what its lookups find. -/
theorem mem_values {m : TreeMap α β} {v : β} :
    v ∈ m.values ↔ ∃ k : α, m[k]? = some v := by
  rw [values_eq_map_snd, List.mem_map]
  constructor
  · intro h
    rcases h with ⟨⟨k, w⟩, hmem, rfl⟩
    exact ⟨k, TreeMap.mem_toList_iff_getElem?_eq_some.1 hmem⟩
  · intro h
    rcases h with ⟨k, h⟩
    exact ⟨(k, v), TreeMap.mem_toList_iff_getElem?_eq_some.2 h, rfl⟩

/-- One value is counted where the lookups find one that counts. -/
theorem countP_values_eq_one {m : TreeMap α β} {p : β → Bool} {k : α} {v : β}
    (hv : m[k]? = some v) (hp : p v = true)
    (hsole : ∀ (a : α) w, m[a]? = some w → p w = true → a = k) :
    m.values.countP p = 1 := by
  have hmem : (k, v) ∈ m.toList.filter (p ∘ Prod.snd) :=
    List.mem_filter.2 ⟨TreeMap.mem_toList_iff_getElem?_eq_some.2 hv, hp⟩
  have hkey (x : α × β) (hx : x ∈ m.toList.filter (p ∘ Prod.snd)) :
      x.1 = k := by
    obtain ⟨hin, hcounts⟩ := List.mem_filter.1 hx
    exact hsole x.1 x.2 (TreeMap.mem_toList_iff_getElem?_eq_some.1 hin) hcounts
  have hdistinct : (m.toList.filter (p ∘ Prod.snd)).Pairwise
      fun x y => x.1 ≠ y.1 := by
    refine (TreeMap.distinct_keys_toList.filter _).imp fun hne heq => hne ?_
    rw [heq]
    exact ReflCmp.compare_self
  rw [values_eq_map_snd, List.countP_map, List.countP_eq_length_filter]
  match hlist : m.toList.filter (p ∘ Prod.snd) with
  | [] =>
      rw [hlist] at hmem
      exact absurd hmem List.not_mem_nil
  | [_] => rfl
  | x :: y :: rest =>
      rw [hlist] at hkey hdistinct
      refine absurd ?_ ((List.pairwise_cons.1 hdistinct).1 y (by simp))
      rw [hkey x (by simp), hkey y (by simp)]

end Lookups

-- ============================================= putting back what was there

/-- The tree is rebuilt along the path to the key, and every node on it is
balanced already. -/
theorem impl_insert_self {t : Impl α (fun _ => β)} {k : α} {v : β}
    (hb : t.Balanced) (h : Impl.Const.get? t k = some v) :
    (t.insert k v hb).impl = t := by
  induction t with
  | leaf => simp [Impl.Const.get?] at h
  | inner size k' v' l r ihl ihr =>
      rw [Impl.Const.get?] at h
      rw [Impl.insert]
      split at h
      case h_1 hlt =>
        simp only [hlt, Impl.balanceL_eq_balance, ihl hb.left h]
        exact Impl.balance_eq_inner hb
      case h_2 hgt =>
        simp only [hgt, Impl.balanceR_eq_balance, ihr hb.right h]
        exact Impl.balance_eq_inner hb
      case h_3 heq =>
        cases h
        simp only [heq]
        rw [LawfulEqOrd.eq_of_compare heq]

/-- Putting an entry where it already is changes nothing. -/
theorem insert_self {m : TreeMap α β} {k : α} {v : β}
    (h : m[k]? = some v) : m.insert k v = m := by
  obtain ⟨⟨t, wf⟩⟩ := m
  have ht := impl_insert_self wf.balanced h
  simp only [TreeMap.insert, DTreeMap.insert]
  congr

end Colonnade.OrderedMap
