/-
Counters and the instructions that moved them. The counter that a table
takes its object keys from has been moved by no more instructions than led
to the snapshot, so it can only have wrapped after more instructions than
half the range of a word. That many have more bytes than a store can count
(`two_mul_length_le`), so a log that fits a store never names a negative
object key, whatever its transactions did.

This replaces the premise that no counter wraps, wherever there is a log to
measure.

Chain: `Engine.Ledger` measures the log of an engine by it.
-/
import Colonnade.Proofs.Snapshot.Keys

namespace Colonnade

namespace Wire

/-- Every instruction starts with its operation and its table. -/
theorem two_le_length_instructionBytes (i : Instruction) :
    2 ≤ (instructionBytes i).length := by
  have htable (t : TableKey) : (tableBytes t).length = 4 :=
    length_leBytes 4 t.raw.toNat
  have hfields : 1 ≤ (fieldBytes i).length := by
    cases i <;>
      simp only [fieldBytes, cellBytes, List.length_append, htable] <;> omega
  unfold instructionBytes
  rw [List.length_cons]
  omega

/-- Many instructions make a long payload. -/
theorem two_mul_length_le (r : CommitRecord) :
    2 * r.instructions.length ≤ (payloadBytes r).length := by
  have hall (is : List Instruction) :
      2 * is.length ≤ (is.flatMap instructionBytes).length := by
    induction is with
    | nil => exact Nat.le_refl 0
    | cons i is ih =>
        have hi := two_le_length_instructionBytes i
        rw [List.flatMap_cons, List.length_append, List.length_cons]
        omega
  have hbody := hall r.instructions
  unfold payloadBytes
  rw [List.length_append]
  omega

end Wire

namespace Snapshot

variable {limits : Limits} {s s' : Snapshot} {i : Instruction}
  {is : List Instruction}

/-- No counter of a table was moved more often than so many times. -/
def CountedTo (n : Nat) (s : Snapshot) : Prop :=
  ∀ k t, s.table? k = some t →
    ∃ m ≤ n, t.nextObject.raw = Int64.ofNat m

theorem CountedTo.mono {n : Nat} (h : s.CountedTo n) :
    s.CountedTo (n + 1) := by
  intro k t ht
  obtain ⟨m, hm, hcount⟩ := h k t ht
  exact ⟨m, by omega, hcount⟩

/-- One instruction moves a counter by one at most. -/
theorem CountedTo.applied {n : Nat} (h : s.CountedTo n)
    (happ : Applied limits s i s') : s'.CountedTo (n + 1) := by
  have hwith {table : TableKey} {u : Table}
      (hu : ∃ m ≤ n + 1, u.nextObject.raw = Int64.ofNat m) :
      (s.withTable table u).CountedTo (n + 1) := by
    intro a t ht
    rw [table?_withTable] at ht
    split at ht
    next => exact Option.some.inj ht ▸ hu
    next => exact h.mono a t ht
  have hkept {table : TableKey} {t u : Table} (ht : s.table? table = some t)
      (hu : u.nextObject = t.nextObject) :
      (s.withTable table u).CountedTo (n + 1) := by
    apply hwith
    rw [hu]
    exact h.mono _ _ ht
  have hstore {table : TableKey} {t : Table} {col : ColumnKey} {slot : Nat}
      {x : CellContent} (ht : s.table? table = some t) :
      (s.withTable table (t.store col slot x)).CountedTo (n + 1) :=
    hkept ht (Table.nextObject_store ..)
  cases happ with
  | addTable hname hnew =>
      intro a t ht
      rw [table?_withNewTable] at ht
      split at ht
      next => exact Option.some.inj ht ▸ ⟨0, by omega, rfl⟩
      next => exact h.mono a t ht
  | removeTable ht hfree =>
      intro a u hu
      rw [table?_withoutTable] at hu
      split at hu
      next => cases hu
      next => exact h.mono a u hu
  | addColumn ht => exact hkept ht rfl
  | removeColumn ht => exact hkept ht rfl
  | @createObject table t ht =>
      -- only this one moves the counter on
      obtain ⟨m, hm, hcount⟩ := h _ _ ht
      refine hwith ⟨m + 1, by omega, ?_⟩
      show t.nextObject.raw + 1 = Int64.ofNat (m + 1)
      rw [hcount, Int64.ofNat_add]
      rfl
  | @removeObject table t key slot ht hslot =>
      intro a u hu
      rw [table?_withoutLinks] at hu
      obtain ⟨v, hv, rfl⟩ := Option.map_eq_some_iff.1 hu
      have hremoved :
          (s.withTable table (t.withoutObject key slot)).CountedTo (n + 1) :=
        hkept ht rfl
      exact hremoved a v hv
  | set ht => exact hstore ht
  | listInsert ht => exact hstore ht
  | listSet ht => exact hstore ht
  | listRemove ht => exact hstore ht
  | listClear ht => exact hstore ht

theorem Reached.countedTo (h : Reached is s) : s.CountedTo is.length := by
  induction h with
  | empty =>
      intro k t ht
      simp at ht
  | step _ happ ih =>
      rw [List.length_append]
      exact ih.applied (apply_gives_iff.1 happ)
  | renumber _ version ih => exact ih

/-- A counter in the lower half of its range is not negative. -/
theorem nonneg_ofNat {m : Nat} (hm : m < 2 ^ 63) : 0 ≤ Int64.ofNat m := by
  rw [Int64.le_iff_toInt_le, Int64.toInt_ofNat_of_lt hm]
  show (0 : Int64).toInt ≤ _
  simp

/-- Fewer instructions than half a word counts name no negative keys. -/
theorem Reached.keysNonneg (h : Reached is s) (hlength : is.length ≤ 2 ^ 63) :
    s.KeysNonneg ∧ ∀ i ∈ is, i.KeysNonneg := by
  induction h with
  | empty => exact ⟨keysNonneg_empty, nofun⟩
  | @step is s s' limits i hbefore happ ih =>
      rw [List.length_append, List.length_singleton] at hlength
      obtain ⟨hs, his⟩ := ih (by omega)
      have happ := apply_gives_iff.1 happ
      have hi : i.KeysNonneg := by
        refine hs.instruction happ fun table key hi => ?_
        subst hi
        cases happ with
        | createObject ht =>
            obtain ⟨m, hm, hcount⟩ := hbefore.countedTo _ _ ht
            rw [hcount]
            exact nonneg_ofNat (by omega)
      refine ⟨hs.applied happ hi, fun j hj => ?_⟩
      rcases List.mem_append.1 hj with hj | hj
      · exact his j hj
      · exact List.mem_singleton.1 hj ▸ hi
  | renumber _ version ih => exact ih hlength

end Snapshot

end Colonnade
