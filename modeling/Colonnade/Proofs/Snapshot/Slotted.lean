/-
Slots without counters. The counters of tables and columns wrap: the key
after the last is the first again, and what is added under a key that is in
use hides or replaces what was there. Rows do not mind. A table that takes
the place of another begins without rows, and a hidden column has cells like
any other, so rows and cells stay in step whatever those two counters do.

Only an object key that is given a second time while its first object lives
brings two rows under one key. `Drawn t n` says how the keys of a table came
about: its counter was moved `n` times and every key in use is one of those
that it gave. With fewer moves than there are words no key is given twice,
and `Reached.slotted` asks for nothing else.

Chain: `Snapshot.Searched` and `Snapshot.Observed` read tables that are in
step in this sense, and no more.
-/
import Colonnade.Proofs.Snapshot.Evolved

namespace Colonnade

/-- The key that an object counter gives after so many others. -/
def ObjectKey.nth (n : Nat) : ObjectKey := ⟨Int64.ofNat n⟩

/-- The keys are different until the counter comes round. -/
theorem ObjectKey.nth_injective {m n : Nat} (hm : m < 2 ^ 64)
    (hn : n < 2 ^ 64) (h : nth m = nth n) : m = n := by
  have h64 := congrArg (fun key : ObjectKey => key.raw.toUInt64.toNat) h
  simp only [nth, Int64.toUInt64_ofNat', UInt64.toNat_ofNat'] at h64
  omega

theorem ObjectKey.nth_succ (n : Nat) :
    nth (n + 1) = ⟨(nth n).raw + 1⟩ := by
  unfold nth
  rw [Int64.ofNat_add]
  rfl

-- ======================================================= one table

/-- A table in step whose object counter was moved so many times. -/
structure Table.Drawn (t : Table) (n : Nat) : Prop where
  slotted : t.Slotted
  counter : t.nextObject = .nth n
  given : ∀ key slot, t.rows.slot? key = some slot →
    ∃ m < n, key = .nth m

namespace Table.Drawn

variable {t t' : Table} {n : Nat}

theorem empty (key : TableKey) (name : String) :
    Table.Drawn { key, name } 0 where
  slotted := .empty key name
  counter := rfl
  given a slot h := by
    rw [Rows.slot?_empty] at h
    cases h

/-- The next key is not in use until the counter comes round. -/
theorem slot?_nextObject (h : t.Drawn n) (hn : n < 2 ^ 64) :
    t.rows.slot? t.nextObject = none := by
  cases hs : t.rows.slot? t.nextObject with
  | none => rfl
  | some slot =>
      obtain ⟨m, hm, hkey⟩ := h.given _ slot hs
      rw [h.counter] at hkey
      have := ObjectKey.nth_injective hn (Nat.lt_trans hm hn) hkey
      omega

/-- A change that creates no object. -/
theorem keep (h : t.Drawn n) (hslotted : t'.Slotted)
    (hcounter : t'.nextObject = t.nextObject)
    (hrows : ∀ key slot, t'.rows.slot? key = some slot →
      ∃ i, t.rows.slot? key = some i) : t'.Drawn n where
  slotted := hslotted
  counter := hcounter.trans h.counter
  given key slot hs := by
    obtain ⟨i, hi⟩ := hrows key slot hs
    exact h.given key i hi

/-- One more object is drawn, while there are keys. -/
theorem withObject (h : t.Drawn n) (hn : n < 2 ^ 64) :
    (t.withObject t.nextObject).Drawn (n + 1) where
  slotted := h.slotted.withObject (h.slot?_nextObject hn)
  counter := by
    rw [ObjectKey.nth_succ, ← h.counter]
    rfl
  given key slot hs := by
    change (t.rows.push t.nextObject).slot? key = some slot at hs
    rw [Rows.slot?_push] at hs
    split at hs
    next hkey => exact ⟨n, Nat.lt_succ_self n, hkey.trans h.counter⟩
    next =>
      obtain ⟨m, hm, hkey⟩ := h.given key slot hs
      exact ⟨m, Nat.lt_succ_of_lt hm, hkey⟩

/-- Without an object as many have been drawn. -/
theorem withoutObject (h : t.Drawn n) {key : ObjectKey} {slot : Nat}
    (hslot : t.rows.slot? key = some slot) :
    (t.withoutObject key slot).Drawn n := by
  refine h.keep (h.slotted.withoutObject hslot) rfl fun a i hs => ?_
  change (t.rows.remove key slot).slot? a = some i at hs
  rw [Rows.slot?_remove h.slotted.rows hslot] at hs
  split at hs
  next => cases hs
  next =>
    obtain ⟨j, hj, -⟩ := Option.map_eq_some_iff.1 hs
    exact ⟨j, hj⟩

theorem unlink (h : t.Drawn n) (target : TableKey) (key : ObjectKey) :
    (t.unlink target key).Drawn n :=
  h.keep (h.slotted.unlink target key) rfl fun _ i hs => ⟨i, hs⟩

theorem store (h : t.Drawn n) {col : ColumnKey} {c : Column}
    (hc : t.column? col = some c) (slot : Nat) (x : CellContent) :
    (t.store col slot x).Drawn n := by
  refine h.keep (h.slotted.store hc slot x) (nextObject_store ..)
    fun key i hs => ⟨i, ?_⟩
  rwa [rows_store] at hs

end Table.Drawn

-- ======================================================= snapshots

namespace Snapshot

variable {limits : Limits} {s s' : Snapshot} {i : Instruction}
  {is : List Instruction} {k : TableKey} {m : Nat}

/-- Whether the table under a key, if there is one, had its object counter
moved at most so many times. -/
def DrawnWithin (s : Snapshot) (k : TableKey) (m : Nat) : Prop :=
  ∀ t, s.table? k = some t → ∃ n ≤ m, t.Drawn n

/-- What is within a bound is within a larger one. -/
theorem DrawnWithin.mono {n : Nat} (h : s.DrawnWithin k m) (hmn : m ≤ n) :
    s.DrawnWithin k n := fun t ht =>
  (h t ht).imp fun _ ⟨hle, hdrawn⟩ => ⟨Nat.le_trans hle hmn, hdrawn⟩

/-- One table exchanged for what it became. -/
theorem DrawnWithin.withTable {n : Nat} (h : s.DrawnWithin k m) (hmn : m ≤ n)
    {table : TableKey} {t t' : Table} (ht : s.table? table = some t)
    (ht' : table = k → ∀ j ≤ m, t.Drawn j → ∃ j ≤ n, t'.Drawn j) :
    (s.withTable table t').DrawnWithin k n := by
  intro u hu
  rw [table?_withTable] at hu
  split at hu
  next hk =>
    subst hk
    cases hu
    obtain ⟨j, hj, hdrawn⟩ := h t ht
    exact ht' rfl j hj hdrawn
  next => exact h.mono hmn u hu

/-- An instruction moves the object counter of a table at most once, and
only by creating an object. -/
theorem DrawnWithin.applied (h : s.DrawnWithin k m)
    (happ : Applied limits s i s') {n : Nat}
    (hn : n = m + if i.createsObjectIn k then 1 else 0) (hfew : n ≤ 2 ^ 64) :
    s'.DrawnWithin k n := by
  have hmono : m ≤ n := hn ▸ Nat.le_add_right m _
  -- every change of a table but the creation of an object
  have hkept {table : TableKey} {t t' : Table}
      (ht : s.table? table = some t) (hstep : ∀ j, t.Drawn j → t'.Drawn j) :
      (s.withTable table t').DrawnWithin k n :=
    h.withTable hmono ht fun _ j hj hdrawn =>
      ⟨j, Nat.le_trans hj hmono, hstep j hdrawn⟩
  cases happ with
  | @addTable name hname hnew =>
      intro u hu
      rw [table?_withNewTable] at hu
      split at hu
      next =>
        cases hu
        exact ⟨0, Nat.zero_le _, .empty _ _⟩
      next => exact h.mono hmono u hu
  | removeTable ht hfree =>
      intro u hu
      rw [table?_withoutTable] at hu
      split at hu
      next => cases hu
      next => exact h.mono hmono u hu
  | addColumn ht htarget hvalid hnew =>
      exact hkept ht fun _ hj => hj.keep (hj.slotted.withColumn _ _) rfl
        fun _ slot hs => ⟨slot, hs⟩
  | removeColumn ht hc =>
      exact hkept ht fun _ hj => hj.keep (hj.slotted.withoutColumn _) rfl
        fun _ slot hs => ⟨slot, hs⟩
  | @createObject table t ht =>
      refine h.withTable hmono ht fun hk j hj hdrawn => ?_
      simp only [Instruction.createsObjectIn, hk, beq_self_eq_true, if_true]
        at hn
      exact ⟨j + 1, by omega, hdrawn.withObject (by omega)⟩
  | @removeObject table t key slot ht hslot =>
      intro u hu
      rw [table?_withoutLinks] at hu
      obtain ⟨v, hv, rfl⟩ := Option.map_eq_some_iff.1 hu
      obtain ⟨j, hj, hdrawn⟩ := hkept ht
        (fun j hj => Table.Drawn.withoutObject hj hslot) v hv
      exact ⟨j, hj, hdrawn.unlink table key⟩
  | set ht hcell => exact hkept ht fun _ hj => hj.store hcell.1 _ _
  | listInsert ht hcell => exact hkept ht fun _ hj => hj.store hcell.1 _ _
  | listSet ht hcell => exact hkept ht fun _ hj => hj.store hcell.1 _ _
  | listRemove ht hcell => exact hkept ht fun _ hj => hj.store hcell.1 _ _
  | listClear ht hcell => exact hkept ht fun _ hj => hj.store hcell.1 _ _

/-- The object counter of a table was moved no more often than objects were
created under its key. -/
theorem Reached.drawnWithin (h : Reached is s)
    (hfew : objectsCreated k is ≤ 2 ^ 64) :
    s.DrawnWithin k (objectsCreated k is) := by
  induction h with
  | empty => exact fun t ht => by simp at ht
  | @step is s s' limits i h happ ih =>
      have happend := objectsCreated_append k is i
      exact (ih (by omega)).applied (apply_gives_iff.1 happ) happend hfew
  | renumber _ version ih => exact ih hfew

/-- Rows and cells are in step as long as no object key was given twice. -/
theorem Reached.slotted (h : Reached is s) (hfew : objectsCreated k is ≤ 2 ^ 64)
    {t : Table} (ht : s.table? k = some t) : t.Slotted := by
  obtain ⟨n, -, hdrawn⟩ := h.drawnWithin hfew t ht
  exact hdrawn.slotted

end Snapshot

end Colonnade
