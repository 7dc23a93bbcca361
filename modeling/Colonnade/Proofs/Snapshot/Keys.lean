/-
Object keys that are in use are not negative, and neither is any key that a
successful instruction names, the new key of `createObject` apart: that one
comes from a counter, and a counter that has wrapped is negative. So this is
the one place where a wrapped counter would show, and the premise that it
has not is asked for where an object is created and nowhere else.

The other difference between a live write and its replay is the limits. A
write that was allowed under some limits is allowed without any, as long as
its texts have a length that a machine word can state, which anything that
was written to a log has.

Chain: `Engine.Recoverable` keeps both for the changes of a transaction.
-/
import Colonnade.Proofs.Rows
import Colonnade.Proofs.Snapshot.Reached
import Colonnade.Proofs.Wire.Framing

namespace Colonnade

-- ============================================================== rows

/-- Vacating a slot brings nothing new. -/
theorem Slots.mem_of_mem_vacate {α : Type} {xs : Array α} {slot : Nat} {x : α}
    (h : x ∈ vacate xs slot) : x ∈ xs := by
  by_cases hslot : slot < xs.size
  · obtain ⟨i, hi⟩ := Array.getElem?_of_mem h
    rw [getElem?_vacate hslot] at hi
    split at hi
    next =>
      split at hi
      next => exact Array.mem_of_back? hi
      next => exact Array.mem_of_getElem? hi
    next => cases hi
  · simp only [vacate, hslot, if_false] at h
    split at h <;> exact h

namespace Rows

/-- No key among the rows is negative. -/
structure KeysNonneg (r : Rows) : Prop where
  keys : ∀ key ∈ r.keys, 0 ≤ key.raw
  slots : ∀ key slot, r.slot? key = some slot → 0 ≤ key.raw

namespace KeysNonneg

variable {r : Rows} {key : ObjectKey}

theorem empty : Rows.KeysNonneg {} where
  keys _ h := by simp at h
  slots _ _ h := by simp [slot?_empty] at h

/-- A row under a key that can be read may be added. -/
theorem push (h : r.KeysNonneg) (hkey : 0 ≤ key.raw) :
    (r.push key).KeysNonneg where
  keys k hk := by
    rcases Array.mem_push.1 hk with hk | rfl
    · exact h.keys k hk
    · exact hkey
  slots k slot hk := by
    rw [slot?_push] at hk
    split at hk
    next heq => exact heq ▸ hkey
    next => exact h.slots k slot hk

theorem remove (h : r.KeysNonneg) (key : ObjectKey) (slot : Nat) :
    (r.remove key slot).KeysNonneg := by
  have hkeys (k : ObjectKey) (hk : k ∈ Slots.vacate r.keys slot) :
      0 ≤ k.raw := h.keys k (Slots.mem_of_mem_vacate hk)
  have herase (k : ObjectKey) (i : Nat)
      (hk : (r.slots.erase key)[k]? = some i) : 0 ≤ k.raw := by
    rw [OrderedMap.getElem?_erase] at hk
    split at hk
    next => cases hk
    next => exact h.slots k i hk
  refine ⟨fun k hk => ?_, fun k i hk => ?_⟩
  · rw [keys_remove] at hk
    exact hkeys k hk
  · unfold Rows.remove Rows.slot? at hk
    dsimp only at hk
    split at hk
    next => exact herase k i hk
    next moved hmoved =>
      rw [OrderedMap.getElem?_insert] at hk
      split at hk
      next heq => exact heq ▸ hkeys moved (Array.mem_of_getElem? hmoved)
      next => exact herase k i hk

end KeysNonneg

end Rows

namespace Snapshot

/-- No object key of a row is negative. -/
def KeysNonneg (s : Snapshot) : Prop :=
  ∀ k t, s.table? k = some t → t.rows.KeysNonneg

variable {limits : Limits} {s s' : Snapshot} {i : Instruction}

theorem keysNonneg_empty : KeysNonneg empty := by
  intro k t ht
  simp at ht

/-- An instruction that names no negative key leaves none behind. -/
theorem KeysNonneg.applied (h : s.KeysNonneg) (happ : Applied limits s i s')
    (hi : i.KeysNonneg) : s'.KeysNonneg := by
  have hwith {k : TableKey} {u : Table} (hu : u.rows.KeysNonneg) :
      (s.withTable k u).KeysNonneg := by
    intro a t ht
    rw [table?_withTable] at ht
    split at ht
    next => exact Option.some.inj ht ▸ hu
    next => exact h a t ht
  have hstore {k : TableKey} {t : Table} {col : ColumnKey} {slot : Nat}
      {x : CellContent} (ht : s.table? k = some t) :
      (s.withTable k (t.store col slot x)).KeysNonneg := by
    apply hwith
    rw [Table.rows_store]
    exact h k t ht
  cases happ with
  | addTable hname hnew =>
      intro a t ht
      rw [table?_withNewTable] at ht
      split at ht
      next => exact Option.some.inj ht ▸ .empty
      next => exact h a t ht
  | removeTable ht hfree =>
      intro a u hu
      rw [table?_withoutTable] at hu
      split at hu
      next => cases hu
      next => exact h a u hu
  | addColumn ht htarget hvalid hnew =>
      have hrows := h _ _ ht
      exact hwith hrows
  | removeColumn ht hc =>
      have hrows := h _ _ ht
      exact hwith hrows
  | createObject ht =>
      apply hwith
      exact (h _ _ ht).push (hi.key _ rfl)
  | @removeObject table t key slot ht hslot =>
      have hremoved :
          (s.withTable table (t.withoutObject key slot)).KeysNonneg := by
        apply hwith
        exact (h _ _ ht).remove key slot
      intro a u hu
      rw [table?_withoutLinks] at hu
      obtain ⟨v, hv, rfl⟩ := Option.map_eq_some_iff.1 hu
      exact hremoved a v hv
  | set ht => exact hstore ht
  | listInsert ht => exact hstore ht
  | listSet ht => exact hstore ht
  | listRemove ht => exact hstore ht
  | listClear ht => exact hstore ht

/-- An instruction that succeeds names keys that are there, and so none that
is negative, unless it is a new one. -/
theorem KeysNonneg.instruction (h : s.KeysNonneg)
    (happ : Applied limits s i s')
    (hnew : ∀ table key, i = .createObject table key → 0 ≤ key.raw) :
    i.KeysNonneg := by
  have hlink {c : Column} {v : Value} (hlive : s.LinkLive c v) (l : ObjectKey)
      (hl : some v = some (.link l)) : 0 ≤ l.raw := by
    obtain ⟨u, target, -, ht, hcontains⟩ := hlive l (Option.some.inj hl)
    obtain ⟨slot, hslot⟩ := Table.contains_iff.1 hcontains
    exact (h u target ht).slots l slot hslot
  have hkey {k : TableKey} {t : Table} {key : ObjectKey} {slot : Nat}
      (ht : s.table? k = some t) (hslot : t.rows.slot? key = some slot)
      (l : ObjectKey) (hl : some key = some l) : 0 ≤ l.raw :=
    Option.some.inj hl ▸ (h k t ht).slots key slot hslot
  cases happ with
  | addTable => exact ⟨nofun, nofun⟩
  | removeTable => exact ⟨nofun, nofun⟩
  | addColumn => exact ⟨nofun, nofun⟩
  | removeColumn => exact ⟨nofun, nofun⟩
  | createObject =>
      exact ⟨fun l hl => Option.some.inj hl ▸ hnew _ _ rfl, nofun⟩
  | removeObject ht hslot => exact ⟨hkey ht hslot, nofun⟩
  | set ht hcell _ _ hlive => exact ⟨hkey ht hcell.slot_eq, hlink hlive⟩
  | listInsert ht hcell _ hlive => exact ⟨hkey ht hcell.slot_eq, hlink hlive⟩
  | listSet ht hcell _ hlive => exact ⟨hkey ht hcell.slot_eq, hlink hlive⟩
  | listRemove ht hcell => exact ⟨hkey ht hcell.slot_eq, nofun⟩
  | listClear ht hcell => exact ⟨hkey ht hcell.slot_eq, nofun⟩

/-- Instructions whose keys can be read lead to keys that can. -/
theorem KeysNonneg.applyAll {is : List Instruction} (h : s.KeysNonneg)
    (happ : Edit.Gives (Snapshot.applyAll limits is) s () s')
    (his : ∀ i ∈ is, i.KeysNonneg) : s'.KeysNonneg := by
  induction is generalizing s with
  | nil =>
      obtain ⟨-, rfl⟩ := Edit.gives_pure.1 happ
      exact h
  | cons i is ih =>
      obtain ⟨hi, his⟩ := List.forall_mem_cons.1 his
      obtain ⟨t, hfirst, hrest⟩ := Edit.gives_forM_cons.1 happ
      exact ih (h.applied (apply_gives_iff.1 hfirst) hi) hrest his

-- ============================================================ limits

/-- A value that can be written is within the limits of replay. -/
theorem within_none {v : Value} (h : (Wire.valueBytes v).length ≤ maxSize) :
    v.Within .none := by
  cases v with
  | string text =>
      have hsize : text.utf8ByteSize = (Utf8.encode text).length := rfl
      show text.utf8ByteSize ≤ maxSize
      unfold Wire.valueBytes Wire.textBytes Wire.countedBytes at h
      simp only [List.length_cons, List.length_append] at h
      omega
  | binary bytes =>
      show bytes.length ≤ maxSize
      unfold Wire.valueBytes Wire.countedBytes at h
      simp only [List.length_cons, List.length_append] at h
      omega
  | _ => trivial

/-- What is accepted under limits is accepted without any, if it can be
written. -/
theorem accepts_none {spec : ColumnSpec} {v : Value}
    (h : spec.Accepts limits v)
    (hlen : (Wire.valueBytes v).length ≤ maxSize) :
    spec.Accepts .none v := by
  have hwithin := within_none hlen
  unfold ColumnSpec.Accepts at h ⊢
  cases v <;> first | exact h | exact ⟨h.1, hwithin⟩

/-- The value of an instruction is no longer than the instruction. -/
theorem length_valueBytes_le {v : Value} (hv : i.parts.value = some v)
    (h : (Wire.instructionBytes i).length ≤ maxSize) :
    (Wire.valueBytes v).length ≤ maxSize := by
  unfold Wire.instructionBytes at h
  rw [List.length_cons] at h
  cases i with
  | set t k c w =>
      obtain rfl : w = v := Option.some.inj hv
      simp only [Wire.fieldBytes, List.length_append] at h
      omega
  | listInsert t k c index w =>
      obtain rfl : w = v := Option.some.inj hv
      simp only [Wire.fieldBytes, List.length_append] at h
      omega
  | listSet t k c index w =>
      obtain rfl : w = v := Option.some.inj hv
      simp only [Wire.fieldBytes, List.length_append] at h
      omega
  | _ => cases hv

/-- What was carried out under limits is carried out without them. -/
theorem Applied.unlimited (h : Applied limits s i s')
    (hlen : (Wire.instructionBytes i).length ≤ maxSize) :
    Applied .none s i s' := by
  cases h with
  | addTable hname hnew => exact .addTable hname hnew
  | removeTable ht hfree => exact .removeTable ht hfree
  | addColumn ht htarget hvalid hnew =>
      exact .addColumn ht htarget hvalid hnew
  | removeColumn ht hc => exact .removeColumn ht hc
  | createObject ht => exact .createObject ht
  | removeObject ht hslot => exact .removeObject ht hslot
  | set ht hcell hlist hfits hlive =>
      have hvalue := length_valueBytes_le rfl hlen
      exact .set ht hcell hlist (accepts_none hfits hvalue) hlive
  | listInsert ht hcell hfits hlive hindex =>
      have hvalue := length_valueBytes_le rfl hlen
      exact .listInsert ht hcell ⟨hfits.isList, hfits.present,
        accepts_none hfits.accepts hvalue⟩ hlive hindex
  | listSet ht hcell hfits hlive hindex =>
      have hvalue := length_valueBytes_le rfl hlen
      exact .listSet ht hcell ⟨hfits.isList, hfits.present,
        accepts_none hfits.accepts hvalue⟩ hlive hindex
  | listRemove ht hcell hindex => exact .listRemove ht hcell hindex
  | listClear ht hcell => exact .listClear ht hcell

/-- What applies under limits applies without any, if it can be written. -/
theorem applyAll_unlimited {is : List Instruction}
    (h : Edit.Gives (applyAll limits is) s () s')
    (hlen : (is.flatMap Wire.instructionBytes).length ≤ maxSize) :
    Edit.Gives (applyAll .none is) s () s' := by
  induction is generalizing s with
  | nil =>
      obtain ⟨-, rfl⟩ := Edit.gives_pure.1 h
      exact Edit.gives_pure.2 ⟨rfl, rfl⟩
  | cons i is ih =>
      rw [List.flatMap_cons, List.length_append] at hlen
      obtain ⟨t, hfirst, hrest⟩ := Edit.gives_forM_cons.1 h
      have happ := (apply_gives_iff.1 hfirst).unlimited (by omega)
      exact Edit.gives_forM_cons.2
        ⟨t, apply_gives_iff.2 happ, ih hrest (by omega)⟩

end Snapshot

end Colonnade
