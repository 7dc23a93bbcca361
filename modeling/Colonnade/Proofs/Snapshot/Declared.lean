/-
The columns of a table as they are declared: their keys and declarations,
without the cells. An instruction declares one column more, or takes one
back, or leaves what is declared alone, whatever it does to the cells
(`Table.Became.declared_before`).

A column key holds the key of its table above the number of the column.
Numbers start at one and, while no counter comes round, only ever go up. So a
key tells its table and its number, and below 2^31 tables the sign of the
word is left alone.

Chain: `Snapshot.Identity` follows declarations along a sequence.
-/
import Colonnade.Proofs.Snapshot.Regular

namespace Colonnade

-- ===================================================== numbered columns

/-- The key of the column with a number in a table. -/
def ColumnKey.numbered (table : TableKey) (n : Nat) : ColumnKey :=
  ⟨Int64.ofNat (table.raw.toNat * 0x100000000 + n)⟩

/-- Numbered keys are different for different tables and numbers. -/
theorem ColumnKey.numbered_injective {j k : TableKey} {m n : Nat}
    (hm : m < 2 ^ 32) (hn : n < 2 ^ 32)
    (h : numbered j m = numbered k n) : j = k ∧ m = n := by
  have hj := j.raw.toNat_lt
  have hk := k.raw.toNat_lt
  have h64 := congrArg (fun c => c.raw.toUInt64.toNat) h
  simp only [numbered, Int64.toUInt64_ofNat', UInt64.toNat_ofNat'] at h64
  have hraw : j.raw.toNat = k.raw.toNat := by omega
  refine ⟨?_, by omega⟩
  cases j
  cases k
  exact congrArg TableKey.mk (UInt32.toNat_inj.1 hraw)

/-- The keys of columns are positive in the first half of all tables. -/
theorem ColumnKey.numbered_pos {k : TableKey} {n : Nat}
    (hk : k.raw.toNat < 2 ^ 31) (hpos : 0 < n) (hn : n < 2 ^ 32) :
    0 < (numbered k n).raw := by
  rw [Int64.lt_iff_toInt_lt]
  show (0 : Int64).toInt
    < (Int64.ofNat (k.raw.toNat * 0x100000000 + n)).toInt
  rw [Int64.toInt_ofNat_of_lt (by omega)]
  show (0 : Int) < _
  omega

/-- A table whose columns have numbers from one up to the counter. -/
structure Table.Numbered (t : Table) : Prop where
  next_pos : 0 < t.nextColumn.toNat
  column : ∀ c ∈ t.columns, ∃ n, 0 < n ∧ n < t.nextColumn.toNat
    ∧ c.key = .numbered t.key n

/-- The keys and declarations of the columns of a table. -/
def Table.declared (t : Table) : List (ColumnKey × ColumnSpec) :=
  t.columns.map fun c => (c.key, c.spec)

namespace Table

variable {limits : Limits} {i : Instruction} {k : TableKey} {t t' : Table}

theorem mem_declared {col : ColumnKey} {spec : ColumnSpec} :
    (col, spec) ∈ t.declared ↔ ∃ c ∈ t.columns, c.key = col ∧ c.spec = spec := by
  simp [declared]

/-- Columns changed in place are declared as they were. -/
theorem declared_mapColumns {f : Column → Column}
    (hcolumns : t'.columns = t.columns.map f)
    (hkey : ∀ c, (f c).key = c.key) (hspec : ∀ c, (f c).spec = c.spec) :
    t'.declared = t.declared := by
  unfold declared
  rw [hcolumns, List.map_map]
  exact List.map_congr_left fun c _ => Prod.ext (hkey c) (hspec c)

theorem declared_unlink (t : Table) (target : TableKey) (key : ObjectKey) :
    (t.unlink target key).declared = t.declared := by
  refine declared_mapColumns rfl (fun c => ?_) (fun c => ?_)
  · split
    · exact Column.key_unlink c key
    · rfl
  · split
    · exact Column.spec_unlink c key
    · rfl

/-- A new column is declared last. -/
theorem declared_withColumn (t : Table) (col : ColumnKey)
    (spec : ColumnSpec) :
    (t.withColumn col spec).declared = t.declared ++ [(col, spec)] := by
  unfold declared withColumn
  rw [List.map_append, List.map_singleton, Column.key_blank,
    Column.spec_blank]

namespace Became

theorem key_eq (h : t.Became limits i k t') : t'.key = t.key := by
  cases h with
  | store => exact key_store ..
  | _ => rfl

theorem name_eq (h : t.Became limits i k t') : t'.name = t.name := by
  cases h with
  | store => exact name_store ..
  | _ => rfl

/-- A column that is declared afterwards was declared before, or it is the
one that was added. -/
theorem declared_before (h : t.Became limits i k t')
    {col : ColumnKey} {spec : ColumnSpec} (hp : (col, spec) ∈ t'.declared) :
    (col, spec) ∈ t.declared
      ∨ i = .addColumn k col spec ∧ col = t.nextColumnKey
        ∧ t' = t.withColumn col spec := by
  cases h with
  | same => exact .inl hp
  | withColumn hi =>
      rw [declared_withColumn] at hp
      rcases List.mem_append.1 hp with hp | hp
      · exact .inl hp
      · cases List.mem_singleton.1 hp
        exact .inr ⟨hi, rfl, rfl⟩
  | withoutColumn c =>
      have hsub : (t.withoutColumn c).columns.Sublist t.columns :=
        List.filter_sublist
      exact .inl ((hsub.map _).mem hp)
  | withObject =>
      rw [declared_mapColumns rfl Column.key_grow Column.spec_grow] at hp
      exact .inl hp
  | withoutObject key slot =>
      rw [declared_unlink] at hp
      rw [declared_mapColumns (t := t) (f := (Column.vacate · slot)) rfl
        (fun _ => rfl) fun _ => rfl] at hp
      exact .inl hp
  | unlink target key =>
      rw [declared_unlink] at hp
      exact .inl hp
  | store hcell hx =>
      unfold declared at hp
      rw [map_columns_store fun _ _ => rfl] at hp
      exact .inl hp

/-- No instruction that finds room turns the counter of columns back. -/
theorem nextColumn_mono (h : t.Became limits i k t')
    (hroom : i.addsColumnTo k = true → t.nextColumn.toNat + 1 < 2 ^ 32) :
    t.nextColumn.toNat ≤ t'.nextColumn.toNat := by
  cases h with
  | withColumn hi =>
      have hroom := hroom (by simp [hi, Instruction.addsColumnTo])
      show _ ≤ (t.nextColumn + 1).toNat
      rw [UInt32.toNat_add]
      exact Nat.le_trans (Nat.le_succ _)
        (Nat.le_of_eq (Nat.mod_eq_of_lt hroom).symm)
  | store => exact Nat.le_of_eq (by rw [nextColumn_store])
  | _ => exact Nat.le_refl _

/-- No instruction that finds room turns the counter of objects back. -/
theorem nextObject_mono (h : t.Became limits i k t')
    (hnext : 0 ≤ t.nextObject.raw.toInt)
    (hroom : i.createsObjectIn k = true →
      t.nextObject.raw.toInt + 1 < 2 ^ 63) :
    t.nextObject.raw.toInt ≤ t'.nextObject.raw.toInt := by
  cases h with
  | withObject hi =>
      have hroom := hroom (by simp [hi, Instruction.createsObjectIn])
      show _ ≤ (t.nextObject.raw + 1).toInt
      rw [Int64.toInt_add]
      show _ ≤ Int.bmod (_ + 1) _
      rw [Int.bmod_eq_of_le] <;> omega
  | store => exact Int.le_of_eq (by rw [nextObject_store])
  | _ => exact Int.le_refl _

/-- Columns keep their numbers, and a new one takes the next. -/
theorem numbered (h : t.Became limits i k t') (hn : t.Numbered)
    (hroom : i.addsColumnTo k = true → t.nextColumn.toNat + 1 < 2 ^ 32) :
    t'.Numbered where
  next_pos := Nat.lt_of_lt_of_le hn.next_pos (h.nextColumn_mono hroom)
  column c hc := by
    have hmono := h.nextColumn_mono hroom
    rw [h.key_eq]
    rcases h.declared_before (mem_declared.2 ⟨c, hc, rfl, rfl⟩) with
      hold | ⟨hi, hkey, rfl⟩
    · obtain ⟨d, hd, hkey, -⟩ := mem_declared.1 hold
      obtain ⟨n, hpos, hlt, hnumber⟩ := hn.column d hd
      exact ⟨n, hpos, Nat.lt_of_lt_of_le hlt hmono, hkey ▸ hnumber⟩
    · have hroom := hroom (by simp [hi, Instruction.addsColumnTo])
      refine ⟨t.nextColumn.toNat, hn.next_pos, ?_, hkey⟩
      show _ < (t.nextColumn + 1).toNat
      rw [UInt32.toNat_add]
      exact Nat.lt_of_lt_of_eq (Nat.lt_succ_self _)
        (Nat.mod_eq_of_lt hroom).symm

end Became

end Table

namespace Snapshot

variable {limits : Limits} {i : Instruction} {s s' : Snapshot}
  {is : List Instruction}

/-- With room a table has a key left for a column. -/
theorem HasRoom.column (h : s.HasRoom i) {k : TableKey} {t : Table}
    (ht : s.table? k = some t) (hi : i.addsColumnTo k = true) :
    t.nextColumn.toNat + 1 < 2 ^ 32 := by
  cases i with
  | addColumn table col spec =>
      obtain rfl : table = k := by simpa [Instruction.addsColumnTo] using hi
      exact h t ht
  | _ => cases hi

/-- With room a table has a key left for an object. -/
theorem HasRoom.object (h : s.HasRoom i) {k : TableKey} {t : Table}
    (ht : s.table? k = some t) (hi : i.createsObjectIn k = true) :
    t.nextObject.raw.toInt + 1 < 2 ^ 63 := by
  cases i with
  | createObject table key =>
      obtain rfl : table = k := by simpa [Instruction.createsObjectIn] using hi
      exact h t ht
  | _ => cases hi

/-- The columns of every table are numbered from one on. -/
theorem Reached.numbered (h : Reached is s) (hfit : FitCounters is)
    {k : TableKey} {t : Table} (ht : s.table? k = some t) : t.Numbered := by
  induction h generalizing k t with
  | empty => simp at ht
  | step h happ ih =>
      have hroom := hfit.hasRoom h.countersWithin
      rcases (apply_gives_iff.1 happ).table_became ht with
        ⟨name, -, -, rfl⟩ | ⟨u, hu, hbecame⟩
      · exact ⟨Nat.one_pos, nofun⟩
      · exact hbecame.numbered (ih hfit.before hu) (hroom.column hu)
  | renumber _ version ih => exact ih hfit ht

end Snapshot

end Colonnade
