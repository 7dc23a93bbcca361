/-
One table across one instruction. `Became` has a constructor for each thing
that an instruction can make of a table that was there, and
`Applied.table_became` says that nothing else happens: a table that is there
afterwards is the one that was added, or it became what it is from the table
under the same key.

An invariant of single tables is then one case for each constructor, with no
map of tables in sight. The counters are the first of them. Each of the
three kinds of counter stands no higher than the number of instructions that
moved it, whether or not it came round, so instructions that are few enough
leave room at every step (`Reached.unwrapped`).

Chain: `Snapshot.Regular` proves what the cells hold by it.
-/
import Colonnade.Proofs.Snapshot.Aligned

namespace Colonnade

-- ======================================================= one table

/-- What a write may put in the place of what a cell held: a value that the
column accepts, or a list all of whose elements were in the list before or
are ones that the column takes. -/
inductive Column.Written (limits : Limits) (c : Column) :
    CellContent → CellContent → Prop
  | value {v w : Value} (hlist : c.spec.isList = false)
      (hfits : c.spec.Accepts limits v) :
      Written limits c (.value w) (.value v)
  | list {vs ws : List Value}
      (hmem : ∀ w ∈ ws, w ∈ vs ∨ Table.TakesElement c limits w) :
      Written limits c (.list vs) (.list ws)

/-- A write puts content in the place of content of the same kind. -/
theorem Column.Written.kind {limits : Limits} {c : Column}
    {old x : CellContent} (h : c.Written limits old x) :
    (∃ v w, old = .value v ∧ x = .value w)
      ∨ ∃ vs ws, old = .list vs ∧ x = .list ws := by
  cases h with
  | value => exact Or.inl ⟨_, _, rfl, rfl⟩
  | list => exact Or.inr ⟨_, _, rfl, rfl⟩

/-- What an instruction makes of the table under a key. -/
inductive Table.Became (limits : Limits) (i : Instruction) (k : TableKey)
    (t : Table) : Table → Prop
  | same : Became limits i k t t
  | withColumn {spec : ColumnSpec}
      (hi : i = .addColumn k t.nextColumnKey spec) (hvalid : spec.Valid)
      (hnew : t.columnKey? spec.name = none) :
      Became limits i k t (t.withColumn t.nextColumnKey spec)
  | withoutColumn (col : ColumnKey) :
      Became limits i k t (t.withoutColumn col)
  | withObject (hi : i = .createObject k t.nextObject) :
      Became limits i k t (t.withObject t.nextObject)
  | withoutObject (key : ObjectKey) (slot : Nat) :
      Became limits i k t ((t.withoutObject key slot).unlink k key)
  | unlink (target : TableKey) (key : ObjectKey) :
      Became limits i k t (t.unlink target key)
  | store {key : ObjectKey} {col : ColumnKey} {c : Column} {slot : Nat}
      {old x : CellContent} (hcell : t.CellAt key col c slot old)
      (hx : c.Written limits old x) :
      Became limits i k t (t.store col slot x)

namespace Snapshot

variable {limits : Limits} {s s' : Snapshot} {i : Instruction}
  {is : List Instruction}

/-- A table that is there after an instruction was added by it, or is what
the instruction made of the table under that key. -/
theorem Applied.table_became (h : Applied limits s i s') {k : TableKey}
    {t' : Table} (hk : s'.table? k = some t') :
    (∃ name, name ≠ "" ∧ i = .addTable k name ∧ t' = { key := k, name })
      ∨ ∃ t, s.table? k = some t ∧ t.Became limits i k t' := by
  have hwith {table : TableKey} {t u : Table}
      (ht : s.table? table = some t) (hu : t.Became limits i table u)
      (hk : (s.withTable table u).table? k = some t') :
      ∃ t, s.table? k = some t ∧ t.Became limits i k t' := by
    rw [table?_withTable] at hk
    split at hk
    next he =>
      subst he
      exact ⟨t, ht, Option.some.inj hk ▸ hu⟩
    next => exact ⟨t', hk, .same⟩
  cases h with
  | addTable hname hnew =>
      rw [table?_withNewTable] at hk
      split at hk
      next he =>
        subst he
        exact Or.inl ⟨_, hname, rfl, (Option.some.inj hk).symm⟩
      next => exact Or.inr ⟨t', hk, .same⟩
  | removeTable ht hfree =>
      rw [table?_withoutTable] at hk
      split at hk
      next => cases hk
      next => exact Or.inr ⟨t', hk, .same⟩
  | addColumn ht htarget hvalid hnew =>
      exact Or.inr (hwith ht (.withColumn rfl hvalid hnew) hk)
  | removeColumn ht hc => exact Or.inr (hwith ht (.withoutColumn _) hk)
  | createObject ht => exact Or.inr (hwith ht (.withObject rfl) hk)
  | removeObject ht hslot =>
      rw [table?_withoutLinks, table?_withTable] at hk
      obtain ⟨u, hu, rfl⟩ := Option.map_eq_some_iff.1 hk
      split at hu
      next he =>
        subst he
        cases hu
        exact Or.inr ⟨_, ht, .withoutObject _ _⟩
      next => exact Or.inr ⟨u, hu, .unlink _ _⟩
  | set ht hcell hlist hfits hlink =>
      exact Or.inr (hwith ht (.store hcell (.value hlist hfits)) hk)
  | listInsert ht hcell hfits hlink hindex =>
      refine Or.inr (hwith ht (.store hcell (.list fun w hw => ?_)) hk)
      rcases (List.mem_insertIdx hindex).1 hw with rfl | hw
      · exact Or.inr hfits
      · exact Or.inl hw
  | listSet ht hcell hfits hlink hindex =>
      refine Or.inr (hwith ht (.store hcell (.list fun w hw => ?_)) hk)
      rcases List.mem_or_eq_of_mem_set hw with hw | rfl
      · exact Or.inl hw
      · exact Or.inr hfits
  | listRemove ht hcell hindex =>
      refine Or.inr (hwith ht (.store hcell (.list fun w hw => ?_)) hk)
      exact Or.inl (List.mem_of_mem_eraseIdx hw)
  | listClear ht hcell =>
      refine Or.inr (hwith ht (.store hcell (.list fun w hw => ?_)) hk)
      cases hw

end Snapshot

-- ========================================================= counting

/-- Whether an instruction adds a column to a table. -/
def Instruction.addsColumnTo (k : TableKey) : Instruction → Bool
  | .addColumn table _ _ => table == k
  | _ => false

/-- Whether an instruction creates an object in a table. -/
def Instruction.createsObjectIn (k : TableKey) : Instruction → Bool
  | .createObject table _ => table == k
  | _ => false

/-- A word that comes round falls. -/
theorem Table.toInt_succ_le (n : Int64) : (n + 1).toInt ≤ n.toInt + 1 := by
  have hlow := n.le_toInt
  have hhigh := n.toInt_lt
  rw [Int64.toInt_add]
  show Int.bmod (n.toInt + 1) (2 ^ 64) ≤ n.toInt + 1
  rw [Int.bmod_def]
  omega

namespace Table.Became

variable {limits : Limits} {i : Instruction} {k : TableKey} {t t' : Table}

/-- The next column moves on by one at most, and only for a column. -/
theorem nextColumn_le (h : t.Became limits i k t') :
    t'.nextColumn.toNat
      ≤ t.nextColumn.toNat + if i.addsColumnTo k then 1 else 0 := by
  cases h with
  | withColumn hi =>
      subst hi
      simp only [Instruction.addsColumnTo, beq_self_eq_true, if_true]
      show (t.nextColumn + 1).toNat ≤ _
      rw [UInt32.toNat_add]
      exact Nat.mod_le _ _
  | store =>
      rw [nextColumn_store]
      exact Nat.le_add_right _ _
  | _ => exact Nat.le_add_right _ _

/-- The next object moves on by one at most, and only for an object. -/
theorem nextObject_le (h : t.Became limits i k t') :
    t'.nextObject.raw.toInt
      ≤ t.nextObject.raw.toInt
        + (if i.createsObjectIn k then 1 else 0 : Nat) := by
  have hsame (n : Int64) (m : Nat) : n.toInt ≤ n.toInt + m := by omega
  cases h with
  | withObject hi =>
      subst hi
      simp only [Instruction.createsObjectIn, beq_self_eq_true, if_true]
      exact toInt_succ_le t.nextObject.raw
  | store =>
      rw [nextObject_store]
      exact hsame _ _
  | _ => exact hsame _ _

end Table.Became

namespace Snapshot

variable {limits : Limits} {s s' : Snapshot} {i : Instruction}
  {is : List Instruction}

/-- How many columns instructions add to a table. -/
def columnsAdded (k : TableKey) (is : List Instruction) : Nat :=
  is.countP (·.addsColumnTo k)

/-- How many objects instructions create in a table. -/
def objectsCreated (k : TableKey) (is : List Instruction) : Nat :=
  is.countP (·.createsObjectIn k)

theorem columnsAdded_append (k : TableKey) (is : List Instruction)
    (i : Instruction) :
    columnsAdded k (is ++ [i])
      = columnsAdded k is + if i.addsColumnTo k then 1 else 0 := by
  simp [columnsAdded, List.countP_append, List.countP_singleton]

theorem objectsCreated_append (k : TableKey) (is : List Instruction)
    (i : Instruction) :
    objectsCreated k (is ++ [i])
      = objectsCreated k is + if i.createsObjectIn k then 1 else 0 := by
  simp [objectsCreated, List.countP_append, List.countP_singleton]

/-- No counter stands higher than it was moved. -/
structure CountersWithin (is : List Instruction) (s : Snapshot) : Prop where
  tables : s.nextTable.raw.toNat ≤ tablesAdded is
  columns : ∀ k t, s.table? k = some t →
    t.nextColumn.toNat ≤ columnsAdded k is + 1
  objects : ∀ k t, s.table? k = some t →
    t.nextObject.raw.toInt ≤ objectsCreated k is

/-- Counters stay within what was asked for behind every instruction. -/
theorem CountersWithin.applied (h : s.CountersWithin is)
    (happ : Applied limits s i s') : s'.CountersWithin (is ++ [i]) where
  tables := by
    rw [happ.nextTable_eq, tablesAdded_append]
    have := h.tables
    split
    · rw [UInt32.toNat_add]
      exact Nat.le_trans (Nat.mod_le _ _) (Nat.succ_le_succ this)
    · exact this
  columns k t' ht' := by
    rw [columnsAdded_append]
    rcases happ.table_became ht' with ⟨name, -, -, rfl⟩ | ⟨t, ht, hbecame⟩
    · show 1 ≤ _
      omega
    · have hold := h.columns k t ht
      have hstep := hbecame.nextColumn_le
      omega
  objects k t' ht' := by
    rw [objectsCreated_append]
    rcases happ.table_became ht' with ⟨name, -, -, rfl⟩ | ⟨t, ht, hbecame⟩
    · show (0 : Int64).toInt ≤ _
      exact Int.natCast_nonneg _
    · have hold := h.objects k t ht
      have hstep := hbecame.nextObject_le
      omega

theorem Reached.countersWithin (h : Reached is s) :
    s.CountersWithin is := by
  induction h with
  | empty => exact ⟨Nat.le_refl 0, fun k t ht => by simp at ht,
      fun k t ht => by simp at ht⟩
  | step _ happ ih => exact ih.applied (apply_gives_iff.1 happ)
  | renumber _ version ih => exact ⟨ih.tables, ih.columns, ih.objects⟩

/-- Instructions so few that no counter comes round: fewer tables and
columns than there are keys for them, where the first column of a table has
key 1, and fewer objects than a word counts upward. -/
structure FitCounters (is : List Instruction) : Prop where
  tables : tablesAdded is < 2 ^ 32
  columns : ∀ k, columnsAdded k is < 2 ^ 32 - 1
  objects : ∀ k, objectsCreated k is < 2 ^ 63

theorem FitCounters.before (h : FitCounters (is ++ [i])) :
    FitCounters is where
  tables := by
    have := h.tables
    rw [tablesAdded_append] at this
    omega
  columns k := by
    have := h.columns k
    rw [columnsAdded_append] at this
    omega
  objects k := by
    have := h.objects k
    rw [objectsCreated_append] at this
    omega

/-- The last of few instructions finds room. -/
theorem FitCounters.hasRoom (h : FitCounters (is ++ [i]))
    (hs : s.CountersWithin is) : s.HasRoom i := by
  cases i with
  | addTable key name =>
      have hfit := h.tables
      have hnext := hs.tables
      rw [tablesAdded_append] at hfit
      simp only [Instruction.addsTable, if_true] at hfit
      show s.nextTable.raw.toNat + 1 < 2 ^ 32
      omega
  | addColumn table col spec =>
      intro t ht
      have hfit := h.columns table
      have hnext := hs.columns table t ht
      rw [columnsAdded_append] at hfit
      simp only [Instruction.addsColumnTo, beq_self_eq_true, if_true]
        at hfit
      omega
  | createObject table key =>
      intro t ht
      have hfit := h.objects table
      have hnext := hs.objects table t ht
      rw [objectsCreated_append] at hfit
      simp only [Instruction.createsObjectIn, beq_self_eq_true, if_true]
        at hfit
      omega
  | _ => trivial

/-- No counter has come round after few instructions. -/
theorem Reached.unwrapped (h : Reached is s) (hfit : FitCounters is) :
    Unwrapped s := by
  induction h with
  | empty => exact .empty
  | step h happ ih =>
      exact (ih hfit.before).step (hfit.hasRoom h.countersWithin) happ
  | renumber _ version ih => exact (ih hfit).renumber version

end Snapshot

end Colonnade
