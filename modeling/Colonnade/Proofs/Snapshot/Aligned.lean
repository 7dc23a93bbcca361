/-
Everything in step. A table is `Slotted` if its row index is sound and every
column has as many cells as there are rows. It is `Aligned` if besides the
keys in use lie below the counters that the next ones are taken from. A
snapshot is aligned if its tables are and the index of names finds each
table by its name and nothing else.

That no counter wraps is `HasRoom`, asked of each step and not of a number
of steps: the counter that an instruction takes its key from has a successor
above it. `Unwrapped` snapshots are those reached by such steps.

Chain: `Snapshot.Refinement` reads a map off an aligned snapshot.
-/
import Colonnade.Proofs.Rows
import Colonnade.Proofs.Snapshot.Reached

namespace Colonnade

-- ========================================================== slotted tables

/-- A table whose rows and cells agree: every object has a slot of its own,
and every column a cell at each. -/
structure Table.Slotted (t : Table) : Prop where
  rows : t.rows.Inverse
  size_eq : ∀ c ∈ t.columns, c.size = t.size

namespace Table.Slotted

variable {t : Table} {key : ObjectKey} {slot : Nat}

theorem empty (key : TableKey) (name : String) :
    Table.Slotted { key, name } where
  rows := Rows.inverse_empty
  size_eq := nofun

/-- The slot of an object is within every column. -/
theorem slot_lt (h : t.Slotted) {col : ColumnKey} {c : Column}
    (hc : t.column? col = some c) (hslot : t.rows.slot? key = some slot) :
    slot < c.size := by
  rw [h.size_eq c (mem_of_column? hc)]
  exact h.rows.slot_lt hslot

/-- Rows stay slotted behind a new column. -/
theorem withColumn (h : t.Slotted) (col : ColumnKey) (spec : ColumnSpec) :
    (t.withColumn col spec).Slotted where
  rows := h.rows
  size_eq c hc := by
    rcases List.mem_append.1 hc with hc | hc
    · exact h.size_eq c hc
    · obtain rfl := List.mem_singleton.1 hc
      exact Column.size_blank _ _ _

theorem withoutColumn (h : t.Slotted) (col : ColumnKey) :
    (t.withoutColumn col).Slotted where
  rows := h.rows
  size_eq c hc := h.size_eq c (List.mem_filter.1 hc).1

/-- Columns changed in place, with as many cells afterwards as the table has
rows then. -/
theorem mapColumns {t' : Table} {f : Column → Column}
    (hcolumns : t'.columns = t.columns.map f) (hrows : t'.rows.Inverse)
    (hsize : ∀ c ∈ t.columns, (f c).size = t'.size) : t'.Slotted where
  rows := hrows
  size_eq d hd := by
    rw [hcolumns] at hd
    obtain ⟨c, hc, rfl⟩ := List.mem_map.1 hd
    exact hsize c hc

/-- A row under a key that is not in use. -/
theorem withObject (h : t.Slotted) (hnew : t.rows.slot? key = none) :
    (t.withObject key).Slotted := by
  refine mapColumns (f := Column.grow) rfl (h.rows.push hnew) fun c hc => ?_
  rw [Column.size_grow, h.size_eq c hc]
  exact (Rows.size_push ..).symm

/-- Rows stay slotted behind the removal of an object, whose slot the last row
takes. -/
theorem withoutObject (h : t.Slotted) (hslot : t.rows.slot? key = some slot) :
    (t.withoutObject key slot).Slotted := by
  have hlt := h.rows.slot_lt hslot
  refine mapColumns (f := (Column.vacate · slot)) rfl (h.rows.remove hslot)
    fun c hc => ?_
  have hsize := h.size_eq c hc
  have hcell : slot < c.cells.size := by
    rw [show c.cells.size = t.size from hsize]
    exact hlt
  show (c.cells.vacate slot).size = (t.rows.remove key slot).size
  rw [Cells.size_vacate hcell, Rows.size_remove hlt]
  exact congrArg (· - 1) hsize

theorem unlink (h : t.Slotted) (target : TableKey) (key : ObjectKey) :
    (t.unlink target key).Slotted := by
  refine mapColumns rfl h.rows fun c hc => ?_
  show Column.size (if _ then _ else _) = t.size
  split
  · rw [Column.size_unlink]
    exact h.size_eq c hc
  · exact h.size_eq c hc

theorem store (h : t.Slotted) {col : ColumnKey} {c : Column}
    (hc : t.column? col = some c) (slot : Nat) (x : CellContent) :
    (t.store col slot x).Slotted where
  rows := by
    rw [rows_store]
    exact h.rows
  size_eq d hd := by
    have hsize : (t.store col slot x).size = t.size :=
      congrArg Rows.size (rows_store ..)
    rw [hsize]
    rcases mem_columns_store hc hd with hd | rfl
    · exact h.size_eq d hd
    · show (c.cells.store slot x).size = t.size
      rw [Cells.size_store]
      exact h.size_eq c (mem_of_column? hc)

end Table.Slotted

-- ========================================================== aligned tables

/-- A table whose rows, cells and counters agree. -/
structure Table.Aligned (t : Table) : Prop where
  rows : t.rows.Inverse
  size_eq : ∀ c ∈ t.columns, c.size = t.size
  object_range : ∀ key slot, t.rows.slot? key = some slot →
    0 ≤ key.raw.toInt ∧ key.raw.toInt < t.nextObject.raw.toInt
  next_nonneg : 0 ≤ t.nextObject.raw.toInt
  column_lt : ∀ c ∈ t.columns, ∃ n < t.nextColumn.toNat,
    c.key = ⟨Int64.ofNat (t.key.raw.toNat * 0x100000000 + n)⟩

namespace Table.Aligned

variable {t : Table}

theorem slotted (h : t.Aligned) : t.Slotted := ⟨h.rows, h.size_eq⟩

theorem empty (key : TableKey) (name : String) :
    Table.Aligned { key, name } where
  rows := Rows.inverse_empty
  size_eq := nofun
  object_range a slot h := by
    rw [Rows.slot?_empty] at h
    cases h
  next_nonneg := by
    show 0 ≤ (0 : Int64).toInt
    decide
  column_lt := nofun

/-- The next object key is not in use. -/
theorem slot?_nextObject (h : t.Aligned) :
    t.rows.slot? t.nextObject = none := by
  cases hs : t.rows.slot? t.nextObject with
  | none => rfl
  | some slot => exact absurd (h.object_range _ slot hs).2 (Int.lt_irrefl _)

/-- Column keys of one table differ as long as their counters do. -/
theorem columnKey_injective {k m n : Nat} (_ : k < 2 ^ 32) (hm : m < 2 ^ 32)
    (hn : n < 2 ^ 32)
    (h : Int64.ofNat (k * 0x100000000 + m)
      = Int64.ofNat (k * 0x100000000 + n)) : m = n := by
  have h64 := congrArg (fun x : Int64 => x.toUInt64.toNat) h
  simp only [Int64.toUInt64_ofNat', UInt64.toNat_ofNat'] at h64
  omega

/-- The next column key is not in use. -/
theorem column?_nextColumnKey (h : t.Aligned) :
    t.column? t.nextColumnKey = none := by
  unfold column?
  rw [List.find?_eq_none]
  intro c hc heq
  obtain ⟨n, hn, hkey⟩ := h.column_lt c hc
  have heq : c.key = t.nextColumnKey := by simpa using heq
  rw [hkey] at heq
  have := columnKey_injective t.key.raw.toNat_lt
    (Nat.lt_trans hn t.nextColumn.toNat_lt) t.nextColumn.toNat_lt
    (congrArg ColumnKey.raw heq)
  omega

/-- A new column is as long as the others, under a key that no other has. -/
theorem withColumn (h : t.Aligned) (spec : ColumnSpec)
    (hroom : t.nextColumn.toNat + 1 < 2 ^ 32) :
    (t.withColumn t.nextColumnKey spec).Aligned where
  rows := h.rows
  size_eq := (h.slotted.withColumn _ spec).size_eq
  object_range := h.object_range
  next_nonneg := h.next_nonneg
  column_lt c hc := by
    have hnext : (t.nextColumn + 1).toNat = t.nextColumn.toNat + 1 := by
      rw [UInt32.toNat_add]
      exact Nat.mod_eq_of_lt hroom
    show ∃ n < (t.nextColumn + 1).toNat, _
    rw [hnext]
    rcases List.mem_append.1 hc with hc | hc
    · obtain ⟨n, hn, hkey⟩ := h.column_lt c hc
      exact ⟨n, Nat.lt_succ_of_lt hn, hkey⟩
    · obtain rfl := List.mem_singleton.1 hc
      exact ⟨t.nextColumn.toNat, Nat.lt_succ_self _, Column.key_blank _ _ _⟩

theorem withoutColumn (h : t.Aligned) (col : ColumnKey) :
    (t.withoutColumn col).Aligned where
  rows := h.rows
  size_eq := (h.slotted.withoutColumn col).size_eq
  object_range := h.object_range
  next_nonneg := h.next_nonneg
  column_lt c hc := h.column_lt c (List.mem_filter.1 hc).1

/-- Columns changed in place, under the keys they had. -/
theorem mapColumns (h : t.Aligned) {t' : Table} {f : Column → Column}
    (hkey : t'.key = t.key) (hcounter : t'.nextColumn = t.nextColumn)
    (hcolumns : t'.columns = t.columns.map f)
    (hfkey : ∀ c, (f c).key = c.key) (hslotted : t'.Slotted)
    (hrange : ∀ key slot, t'.rows.slot? key = some slot →
      0 ≤ key.raw.toInt ∧ key.raw.toInt < t'.nextObject.raw.toInt)
    (hnext : 0 ≤ t'.nextObject.raw.toInt) : t'.Aligned where
  rows := hslotted.rows
  size_eq := hslotted.size_eq
  object_range := hrange
  next_nonneg := hnext
  column_lt d hd := by
    rw [hcolumns] at hd
    obtain ⟨c, hc, rfl⟩ := List.mem_map.1 hd
    rw [hfkey, hkey, hcounter]
    exact h.column_lt c hc

/-- A new object is aligned while there are keys. -/
theorem withObject (h : t.Aligned)
    (hroom : t.nextObject.raw.toInt + 1 < 2 ^ 63) :
    (t.withObject t.nextObject).Aligned := by
  have hnext : (t.nextObject.raw + 1).toInt = t.nextObject.raw.toInt + 1 := by
    have := h.next_nonneg
    rw [Int64.toInt_add]
    show Int.bmod (_ + 1) _ = _
    rw [Int.bmod_eq_of_le] <;> omega
  have hpos := h.next_nonneg
  refine h.mapColumns rfl rfl rfl Column.key_grow
    (h.slotted.withObject h.slot?_nextObject) (fun key slot hs => ?_) ?_
  · show _ ∧ _ < (t.nextObject.raw + 1).toInt
    rw [hnext]
    change (t.rows.push t.nextObject).slot? key = _ at hs
    rw [Rows.slot?_push] at hs
    split at hs
    next hk =>
      rw [hk]
      omega
    next =>
      have := h.object_range key slot hs
      omega
  · show 0 ≤ (t.nextObject.raw + 1).toInt
    omega

/-- Without an object the rest stays aligned. -/
theorem withoutObject (h : t.Aligned) {key : ObjectKey} {slot : Nat}
    (hslot : t.rows.slot? key = some slot) :
    (t.withoutObject key slot).Aligned := by
  refine h.mapColumns (f := (Column.vacate · slot)) rfl rfl rfl
    (fun _ => rfl) (h.slotted.withoutObject hslot) (fun a i hs => ?_)
    h.next_nonneg
  change (t.rows.remove key slot).slot? a = _ at hs
  rw [Rows.slot?_remove h.rows hslot] at hs
  split at hs
  next => cases hs
  next =>
    obtain ⟨j, hj, -⟩ := Option.map_eq_some_iff.1 hs
    exact h.object_range a j hj

theorem unlink (h : t.Aligned) (target : TableKey) (key : ObjectKey) :
    (t.unlink target key).Aligned := by
  refine h.mapColumns rfl rfl rfl (fun c => ?_) (h.slotted.unlink target key)
    h.object_range h.next_nonneg
  split
  · exact Column.key_unlink c key
  · rfl

theorem store (h : t.Aligned) {col : ColumnKey} {c : Column}
    (hc : t.column? col = some c) (slot : Nat) (x : CellContent) :
    (t.store col slot x).Aligned := by
  have hslotted := h.slotted.store hc slot x
  refine ⟨hslotted.rows, hslotted.size_eq, ?_, ?_, fun d hd => ?_⟩
  · rw [rows_store, nextObject_store]
    exact h.object_range
  · rw [nextObject_store]
    exact h.next_nonneg
  · rw [key_store, nextColumn_store]
    rcases mem_columns_store hc hd with hd | rfl
    · exact h.column_lt d hd
    · exact h.column_lt c (mem_of_column? hc)

end Table.Aligned

-- ======================================================= aligned snapshots

namespace Snapshot

/-- A snapshot whose tables are aligned and found by their names. -/
structure Aligned (s : Snapshot) : Prop where
  table : ∀ k t, s.table? k = some t → t.Aligned
  names_iff : ∀ name k, s.names[name]? = some k
    ↔ ∃ t, s.table? k = some t ∧ t.name = name
  table_lt : ∀ k t, s.table? k = some t →
    k.raw.toNat < s.nextTable.raw.toNat

/-- Whether the counter that an instruction takes a key from stays above the
key it gives. -/
def HasRoom (s : Snapshot) : Instruction → Prop
  | .addTable _ _ => s.nextTable.raw.toNat + 1 < 2 ^ 32
  | .addColumn table _ _ =>
    ∀ t, s.table? table = some t → t.nextColumn.toNat + 1 < 2 ^ 32
  | .createObject table _ =>
    ∀ t, s.table? table = some t → t.nextObject.raw.toInt + 1 < 2 ^ 63
  | _ => True

/-- The snapshots that instructions lead to without any counter coming
round. -/
inductive Unwrapped : Snapshot → Prop
  | empty : Unwrapped .empty
  | step {s s' : Snapshot} {limits : Limits} {i : Instruction}
      (h : Unwrapped s) (hroom : s.HasRoom i)
      (happ : Edit.Gives (apply limits i) s () s') : Unwrapped s'
  | renumber {s : Snapshot} (h : Unwrapped s) (version : Version) :
      Unwrapped { s with version }

/-- What is reached without a counter that wraps is reached. -/
theorem Unwrapped.reached {s : Snapshot} (h : Unwrapped s) :
    ∃ is, Reached is s := by
  induction h with
  | empty => exact ⟨[], .empty⟩
  | step _ _ happ ih =>
      obtain ⟨is, his⟩ := ih
      exact ⟨_, his.step happ⟩
  | renumber _ version ih =>
      obtain ⟨is, his⟩ := ih
      exact ⟨is, his.renumber version⟩

theorem Unwrapped.formed {s : Snapshot} (h : Unwrapped s) : s.Formed := by
  obtain ⟨is, his⟩ := h.reached
  exact his.formed

namespace Aligned

variable {s : Snapshot}

theorem empty : empty.Aligned where
  table k t h := by simp at h
  names_iff name k := by
    have hnone : Snapshot.empty.names[name]? = none :=
      Std.TreeMap.getElem?_emptyc
    simp [hnone]
  table_lt k t h := by simp at h

/-- The next table key is not in use. -/
theorem table?_nextTable (h : s.Aligned) : s.table? s.nextTable = none := by
  cases ht : s.table? s.nextTable with
  | none => rfl
  | some t => exact absurd (h.table_lt _ t ht) (Nat.lt_irrefl _)

/-- A name is free if no table has it. -/
theorem contains_names (h : s.Aligned) {name : String} :
    s.names.contains name = false
      ↔ ∀ k t, s.table? k = some t → t.name ≠ name := by
  rw [← Bool.not_eq_true, ← Std.TreeMap.isSome_getElem?_eq_contains,
    Option.isSome_iff_exists]
  constructor
  · rintro hfree k t ht rfl
    exact hfree ⟨k, (h.names_iff _ k).2 ⟨t, ht, rfl⟩⟩
  · rintro hfree ⟨k, hk⟩
    obtain ⟨t, ht, hname⟩ := (h.names_iff name k).1 hk
    exact hfree k t ht hname

/-- A new table is aligned while there are keys. -/
theorem withNewTable (h : s.Aligned) {name : String}
    (hnew : s.names.contains name = false)
    (hroom : s.nextTable.raw.toNat + 1 < 2 ^ 32) :
    (s.withNewTable name).Aligned where
  table k t ht := by
    rw [table?_withNewTable] at ht
    split at ht
    next =>
      cases ht
      exact .empty _ _
    next => exact h.table k t ht
  names_iff n k := by
    have hnames : (s.withNewTable name).names[n]?
        = if n = name then some s.nextTable else s.names[n]? :=
      OrderedMap.getElem?_insert _ _ _ _
    have hfree := h.contains_names.1 hnew
    rw [hnames, table?_withNewTable]
    by_cases hk : k = s.nextTable
    · subst hk
      rw [if_pos rfl]
      by_cases hn : n = name
      · simp [hn]
      -- no other name stands for the new key, which no table had
      · have hno : s.names[n]? ≠ some s.nextTable := by
          intro hno
          obtain ⟨t, ht, -⟩ := (h.names_iff _ _).1 hno
          rw [h.table?_nextTable] at ht
          cases ht
        simp [hn, hno, Ne.symm hn]
    · rw [if_neg hk]
      by_cases hn : n = name
      · subst hn
        rw [if_pos rfl]
        constructor
        · intro he
          exact absurd (Option.some.inj he).symm hk
        · intro h
          rcases h with ⟨t, ht, hname⟩
          exact absurd hname (hfree k t ht)
      · rw [if_neg hn]
        exact h.names_iff n k
  table_lt k t ht := by
    have hnext : (s.nextTable.raw + 1).toNat = s.nextTable.raw.toNat + 1 := by
      rw [UInt32.toNat_add]
      exact Nat.mod_eq_of_lt hroom
    show k.raw.toNat < (s.nextTable.raw + 1).toNat
    rw [hnext]
    rw [table?_withNewTable] at ht
    split at ht
    next hk =>
      rw [hk]
      exact Nat.lt_succ_self _
    next => exact Nat.lt_succ_of_lt (h.table_lt k t ht)

/-- Without a table the others stay aligned. -/
theorem withoutTable (h : s.Aligned) {key : TableKey} {t : Table}
    (ht : s.table? key = some t) : (s.withoutTable key t.name).Aligned where
  table k u hu := by
    rw [table?_withoutTable] at hu
    split at hu
    next => cases hu
    next => exact h.table k u hu
  names_iff n k := by
    have hnames : (s.withoutTable key t.name).names[n]?
        = if n = t.name then none else s.names[n]? :=
      OrderedMap.getElem?_erase _ _ _
    rw [hnames, table?_withoutTable]
    have hkey := (h.names_iff t.name key).2 ⟨t, ht, rfl⟩
    by_cases hn : n = t.name
    · subst hn
      rw [if_pos rfl]
      constructor
      · exact nofun
      · intro h
        rcases h with ⟨u, hu, hname⟩
        split at hu
        next => cases hu
        next hk =>
          -- two tables never share a name
          have := (h.names_iff t.name k).2 ⟨u, hu, hname⟩
          rw [hkey] at this
          exact absurd (Option.some.inj this).symm hk
    · rw [if_neg hn, h.names_iff]
      by_cases hk : k = key
      · subst hk
        rw [ht, if_pos rfl]
        constructor
        · intro h
          rcases h with ⟨u, hu, rfl⟩
          cases hu
          exact absurd rfl hn
        · intro h
          rcases h with ⟨u, hu, -⟩
          cases hu
      · rw [if_neg hk]
  table_lt k u hu := by
    rw [table?_withoutTable] at hu
    split at hu
    next => cases hu
    next => exact h.table_lt k u hu

/-- One table exchanged for another of the same name. -/
theorem withTable (h : s.Aligned) {key : TableKey} {t t' : Table}
    (ht : s.table? key = some t) (hname : t'.name = t.name)
    (ht' : t'.Aligned) : (s.withTable key t').Aligned where
  table k u hu := by
    rw [table?_withTable] at hu
    split at hu
    next =>
      cases hu
      exact ht'
    next => exact h.table k u hu
  names_iff n k := by
    show s.names[n]? = some k ↔ _
    rw [h.names_iff, table?_withTable]
    by_cases hk : k = key
    · subst hk
      simp [ht, hname]
    · rw [if_neg hk]
  table_lt k u hu := by
    show k.raw.toNat < s.nextTable.raw.toNat
    rw [table?_withTable] at hu
    split at hu
    next hk => exact hk ▸ h.table_lt key t ht
    next => exact h.table_lt k u hu

theorem withoutLinks (h : s.Aligned) (table : TableKey) (key : ObjectKey) :
    (s.withoutLinks table key).Aligned where
  table k u hu := by
    rw [table?_withoutLinks] at hu
    obtain ⟨t, ht, rfl⟩ := Option.map_eq_some_iff.1 hu
    exact (h.table k t ht).unlink table key
  names_iff n k := by
    show s.names[n]? = some k ↔ _
    rw [h.names_iff, table?_withoutLinks]
    cases s.table? k <;> simp [Table.unlink]
  table_lt k u hu := by
    rw [table?_withoutLinks] at hu
    obtain ⟨t, ht, -⟩ := Option.map_eq_some_iff.1 hu
    exact h.table_lt k t ht

/-- Writing a cell leaves everything in step. -/
theorem store (h : s.Aligned) {k : TableKey} {t : Table}
    (ht : s.table? k = some t) {col : ColumnKey} {c : Column}
    (hc : t.column? col = some c) (slot : Nat) (x : CellContent) :
    (s.withTable k (t.store col slot x)).Aligned :=
  h.withTable ht (Table.name_store ..) ((h.table k t ht).store hc slot x)

/-- One instruction leaves everything in step, unless it takes the last key
of a counter. -/
theorem applied (h : s.Aligned) {limits : Limits} {i : Instruction}
    {s' : Snapshot} (hroom : s.HasRoom i) (happ : Applied limits s i s') :
    s'.Aligned := by
  cases happ with
  | addTable hname hnew => exact h.withNewTable hnew hroom
  | removeTable ht hfree => exact h.withoutTable ht
  | addColumn ht htarget hvalid hnew =>
      exact h.withTable ht rfl
        ((h.table _ _ ht).withColumn _ (hroom _ ht))
  | removeColumn ht hc =>
      exact h.withTable ht rfl ((h.table _ _ ht).withoutColumn _)
  | createObject ht =>
      exact h.withTable ht rfl ((h.table _ _ ht).withObject (hroom _ ht))
  | removeObject ht hslot =>
      apply Aligned.withoutLinks
      exact h.withTable ht rfl ((h.table _ _ ht).withoutObject hslot)
  | set ht hcell => exact h.store ht hcell.1 _ _
  | listInsert ht hcell => exact h.store ht hcell.1 _ _
  | listSet ht hcell => exact h.store ht hcell.1 _ _
  | listRemove ht hcell => exact h.store ht hcell.1 _ _
  | listClear ht hcell => exact h.store ht hcell.1 _ _

end Aligned

/-- Everything is in step in a snapshot that no counter wrapped on the way
to. -/
theorem Unwrapped.aligned {s : Snapshot} (h : Unwrapped s) : s.Aligned := by
  induction h with
  | empty => exact .empty
  | step _ hroom happ ih => exact ih.applied hroom (apply_gives_iff.1 happ)
  | renumber _ _ ih => exact ⟨ih.table, ih.names_iff, ih.table_lt⟩

end Snapshot

end Colonnade
