/-
The snapshots that instructions lead to, and what holds of all of them.

`Reached` starts from the empty snapshot. Each step is one instruction that
succeeds, under limits of its own, since live writes and replay measure
values against different ones. A step may also give a snapshot another
version number, which is what publishing it does and changes nothing else.

Every reached snapshot is `Formed`: tables lie under their own keys, every
column has an accepted declaration, and its array is of the kind that the
declaration asks for. That needs no bound on the counters; a counter that
wraps makes tables and rows replace each other and leaves them well formed.

Chain: `Snapshot.Links` and `Snapshot.Aligned` add what the counters are
needed for.
-/
import Colonnade.Proofs.Snapshot.Applied
import Mathlib.Algebra.Group.Int.Defs
import Mathlib.Algebra.Group.Nat.Defs

namespace Colonnade

-- ================================================== lookups after a change

namespace Snapshot

@[simp]
theorem table?_empty (k : TableKey) : empty.table? k = none :=
  Std.TreeMap.getElem?_emptyc

/-- A new table is found under the next key. -/
theorem table?_withNewTable (s : Snapshot) (name : String) (k : TableKey) :
    (s.withNewTable name).table? k
      = if k = s.nextTable then some { key := s.nextTable, name }
        else s.table? k :=
  OrderedMap.getElem?_insert _ _ _ _

/-- A removed table is not found, and every other one is. -/
theorem table?_withoutTable (s : Snapshot) (key k : TableKey)
    (name : String) :
    (s.withoutTable key name).table? k
      = if k = key then none else s.table? k :=
  OrderedMap.getElem?_erase _ _ _

/-- A replaced table is found replaced, and every other one as it was. -/
theorem table?_withTable (s : Snapshot) (key k : TableKey) (t : Table) :
    (s.withTable key t).table? k = if k = key then some t else s.table? k :=
  OrderedMap.getElem?_insert _ _ _ _

/-- Every table is found without its links to an object. -/
theorem table?_withoutLinks (s : Snapshot) (table k : TableKey)
    (key : ObjectKey) :
    (s.withoutLinks table key).table? k
      = (s.table? k).map (·.unlink table key) :=
  Std.TreeMap.getElem?_map

end Snapshot

-- ===================================================== well-formed arrays

/-- A column whose declaration is accepted and whose cells are of the kind
it asks for. -/
structure Column.Formed (c : Column) : Prop where
  valid : c.spec.Valid
  suits : c.cells.Suits c.spec

namespace Column.Formed

variable {c : Column}

/-- A blank column is formed. -/
theorem blank {spec : ColumnSpec} (h : spec.Valid) (key : ColumnKey)
    (rows : Nat) : (Column.blank key spec rows).Formed := by
  refine ⟨?_, suits_blank key spec rows⟩
  rw [spec_blank]
  exact h

theorem grow (h : c.Formed) : c.grow.Formed := by
  refine ⟨?_, suits_grow h.suits⟩
  rw [spec_grow]
  exact h.valid

theorem vacate (h : c.Formed) (slot : Nat) : (c.vacate slot).Formed :=
  ⟨h.valid, Cells.suits_vacate h.suits slot⟩

theorem unlink (h : c.Formed) (key : ObjectKey) : (c.unlink key).Formed := by
  refine ⟨?_, suits_unlink h.suits key⟩
  rw [spec_unlink]
  exact h.valid

theorem store (h : c.Formed) (slot : Nat) (x : CellContent) :
    ({ c with cells := c.cells.store slot x } : Column).Formed :=
  ⟨h.valid, Cells.suits_store h.suits slot x⟩

end Column.Formed

/-- A table all of whose columns are well formed. -/
def Table.Formed (t : Table) : Prop := ∀ c ∈ t.columns, c.Formed

namespace Table

variable {t : Table}

theorem mem_of_column? {col : ColumnKey} {c : Column}
    (h : t.column? col = some c) : c ∈ t.columns :=
  List.mem_of_find?_eq_some h

/-- A column of a table in which one cell was written is a column of the
table as it was, or the one that was written to. -/
theorem mem_columns_store {col : ColumnKey} {c d : Column} {slot : Nat}
    {x : CellContent} (hc : t.column? col = some c)
    (h : d ∈ (t.store col slot x).columns) :
    d ∈ t.columns ∨ d = { c with cells := c.cells.store slot x } := by
  rw [store_eq hc] at h
  exact (mem_replaceColumn h).symm

/-- A table stays formed when content is stored. -/
theorem Formed.store (h : t.Formed) {col : ColumnKey} {c : Column}
    (hc : t.column? col = some c) (slot : Nat) (x : CellContent) :
    (t.store col slot x).Formed := by
  intro d hd
  rcases mem_columns_store hc hd with hd | rfl
  · exact h d hd
  · exact (h c (mem_of_column? hc)).store slot x

theorem Formed.unlink (h : t.Formed) (target : TableKey) (key : ObjectKey) :
    (t.unlink target key).Formed := by
  intro d hd
  obtain ⟨c, hc, rfl⟩ := List.mem_map.1 hd
  split
  · exact (h c hc).unlink key
  · exact h c hc

@[simp]
theorem key_store (t : Table) (col : ColumnKey) (slot : Nat)
    (x : CellContent) : (t.store col slot x).key = t.key := by
  unfold Table.store
  split <;> rfl

@[simp]
theorem name_store (t : Table) (col : ColumnKey) (slot : Nat)
    (x : CellContent) : (t.store col slot x).name = t.name := by
  unfold Table.store
  split <;> rfl

@[simp]
theorem nextColumn_store (t : Table) (col : ColumnKey) (slot : Nat)
    (x : CellContent) : (t.store col slot x).nextColumn = t.nextColumn := by
  unfold Table.store
  split <;> rfl

@[simp]
theorem nextObject_store (t : Table) (col : ColumnKey) (slot : Nat)
    (x : CellContent) : (t.store col slot x).nextObject = t.nextObject := by
  unfold Table.store
  split <;> rfl

@[simp]
theorem rows_store (t : Table) (col : ColumnKey) (slot : Nat)
    (x : CellContent) : (t.store col slot x).rows = t.rows := by
  unfold Table.store
  split <;> rfl

end Table

-- ====================================================== reached snapshots

/-- Whether an instruction adds a table. -/
def Instruction.addsTable : Instruction → Bool
  | .addTable _ _ => true
  | _ => false

namespace Snapshot

/-- The snapshots that instructions lead to from the empty one, with the
instructions that led there. -/
inductive Reached : List Instruction → Snapshot → Prop
  | empty : Reached [] .empty
  | step {is : List Instruction} {s s' : Snapshot} {limits : Limits}
      {i : Instruction} (h : Reached is s)
      (happ : Edit.Gives (apply limits i) s () s') : Reached (is ++ [i]) s'
  | renumber {is : List Instruction} {s : Snapshot} (h : Reached is s)
      (version : Version) : Reached is { s with version }

/-- Two lists of instructions, one after the other. -/
theorem gives_applyAll_append {limits : Limits} {is js : List Instruction}
    {s s' : Snapshot} :
    Edit.Gives (applyAll limits (is ++ js)) s () s'
      ↔ ∃ t, Edit.Gives (applyAll limits is) s () t
        ∧ Edit.Gives (applyAll limits js) t () s' := by
  induction is generalizing s with
  | nil =>
      constructor
      · intro h
        exact ⟨s, Edit.gives_pure.2 ⟨rfl, rfl⟩, h⟩
      · intro h
        obtain ⟨t, hnone, h⟩ := h
        obtain ⟨-, rfl⟩ := Edit.gives_pure.1 hnone
        exact h
  | cons i is ih =>
      unfold applyAll at ih ⊢
      simp only [List.cons_append, Edit.gives_forM_cons, ih]
      constructor
      · intro h
        obtain ⟨t, hi, u, his, hjs⟩ := h
        exact ⟨u, ⟨t, hi, his⟩, hjs⟩
      · intro h
        obtain ⟨u, ⟨t, hi, his⟩, hjs⟩ := h
        exact ⟨t, hi, u, his, hjs⟩

/-- One instruction gives what it gives alone. -/
theorem gives_applyAll_singleton {limits : Limits} {i : Instruction}
    {s s' : Snapshot} :
    Edit.Gives (applyAll limits [i]) s () s'
      ↔ Edit.Gives (apply limits i) s () s' := by
  unfold applyAll
  rw [Edit.gives_forM_cons]
  constructor
  · intro h
    obtain ⟨t, hi, hrest⟩ := h
    obtain ⟨-, rfl⟩ := Edit.gives_pure.1 hrest
    exact hi
  · intro h
    exact ⟨s', h, Edit.gives_pure.2 ⟨rfl, rfl⟩⟩

/-- Instructions in order reach what they give. -/
theorem Reached.applyAll {is js : List Instruction} {s s' : Snapshot}
    {limits : Limits} (h : Reached is s)
    (hgives : Edit.Gives (applyAll limits js) s () s') :
    Reached (is ++ js) s' := by
  induction js generalizing is s with
  | nil =>
      obtain rfl : s = s' := (Edit.gives_pure.1 hgives).2
      rwa [List.append_nil]
  | cons j js ih =>
      obtain ⟨t, hj, hjs⟩ := Edit.gives_forM_cons.1 hgives
      have := ih (h.step hj) hjs
      rwa [List.append_assoc] at this

/-- Tables lie under their own keys and are well formed. -/
structure Formed (s : Snapshot) : Prop where
  key_eq : ∀ k t, s.table? k = some t → t.key = k
  table : ∀ k t, s.table? k = some t → t.Formed

namespace Formed

variable {s : Snapshot}

theorem empty : Formed empty where
  key_eq _ _ h := by simp at h
  table _ _ h := by simp at h

/-- Tables that were there, and one that lies under its own key. -/
theorem of_table? {s' : Snapshot} (h : s.Formed) {key : TableKey} {t : Table}
    (hkey : t.key = key) (ht : t.Formed)
    (hold : ∀ k u, s'.table? k = some u →
      k = key ∧ u = t ∨ s.table? k = some u) : s'.Formed where
  key_eq k u hu := by
    rcases hold k u hu with ⟨rfl, rfl⟩ | hu
    · exact hkey
    · exact h.key_eq k u hu
  table k u hu := by
    rcases hold k u hu with ⟨rfl, rfl⟩ | hu
    · exact ht
    · exact h.table k u hu

/-- A snapshot stays formed when a table is replaced by one under its key. -/
theorem withTable (h : s.Formed) {key : TableKey} {t t' : Table}
    (ht : s.table? key = some t) (hkey : t'.key = t.key) (ht' : t'.Formed) :
    (s.withTable key t').Formed := by
  refine h.of_table? (hkey.trans (h.key_eq key t ht)) ht' fun k u hu => ?_
  rw [table?_withTable] at hu
  split at hu
  next hk => exact Or.inl ⟨hk, (Option.some.inj hu).symm⟩
  next => exact Or.inr hu

theorem withoutLinks (h : s.Formed) (table : TableKey) (key : ObjectKey) :
    (s.withoutLinks table key).Formed where
  key_eq a u hu := by
    rw [table?_withoutLinks] at hu
    obtain ⟨t, ht, rfl⟩ := Option.map_eq_some_iff.1 hu
    exact h.key_eq a t ht
  table a u hu := by
    rw [table?_withoutLinks] at hu
    obtain ⟨t, ht, rfl⟩ := Option.map_eq_some_iff.1 hu
    exact (h.table a t ht).unlink table key

/-- Writing a cell leaves everything well formed. -/
theorem store (h : s.Formed) {k : TableKey} {t : Table}
    (ht : s.table? k = some t) {col : ColumnKey} {c : Column}
    (hc : t.column? col = some c) (slot : Nat) (x : CellContent) :
    (s.withTable k (t.store col slot x)).Formed := by
  exact h.withTable ht (Table.key_store ..) ((h.table k t ht).store hc slot x)

/-- One instruction leaves everything well formed. -/
theorem applied (h : s.Formed) {limits : Limits} {i : Instruction}
    {s' : Snapshot} (happ : Applied limits s i s') : s'.Formed := by
  cases happ with
  | @addTable name hname hnew =>
      refine h.of_table? (t := { key := s.nextTable, name }) rfl nofun ?_
      intro k u hu
      rw [table?_withNewTable] at hu
      split at hu
      next hk => exact Or.inl ⟨hk, (Option.some.inj hu).symm⟩
      next => exact Or.inr hu
  | removeTable ht hfree =>
      refine h.of_table? (h.key_eq _ _ ht) (h.table _ _ ht) fun k u hu => ?_
      rw [table?_withoutTable] at hu
      split at hu
      next => cases hu
      next => exact Or.inr hu
  | addColumn ht htarget hvalid hnew =>
      refine h.withTable ht rfl fun d hd => ?_
      rcases List.mem_append.1 hd with hd | hd
      · exact h.table _ _ ht d hd
      · obtain rfl := List.mem_singleton.1 hd
        exact .blank hvalid _ _
  | removeColumn ht hc =>
      exact h.withTable ht rfl fun d hd =>
        h.table _ _ ht d (List.mem_filter.1 hd).1
  | createObject ht =>
      refine h.withTable ht rfl fun d hd => ?_
      obtain ⟨c, hc, rfl⟩ := List.mem_map.1 hd
      exact (h.table _ _ ht c hc).grow
  | removeObject ht hslot =>
      apply Formed.withoutLinks
      refine h.withTable ht rfl fun d hd => ?_
      obtain ⟨c, hc, rfl⟩ := List.mem_map.1 hd
      exact (h.table _ _ ht c hc).vacate _
  | set ht hcell => exact h.store ht hcell.1 _ _
  | listInsert ht hcell => exact h.store ht hcell.1 _ _
  | listSet ht hcell => exact h.store ht hcell.1 _ _
  | listRemove ht hcell => exact h.store ht hcell.1 _ _
  | listClear ht hcell => exact h.store ht hcell.1 _ _

end Formed

/-- Every reached snapshot is well formed. -/
theorem Reached.formed {is : List Instruction} {s : Snapshot}
    (h : Reached is s) : s.Formed := by
  induction h with
  | empty => exact .empty
  | step _ happ ih => exact ih.applied (apply_gives_iff.1 happ)
  | renumber _ _ ih => exact ⟨ih.key_eq, ih.table⟩

-- ======================================================= table counter

/-- How many tables instructions add. -/
def tablesAdded (is : List Instruction) : Nat := is.countP (·.addsTable)

section Counter

variable {limits : Limits} {s s' : Snapshot} {i : Instruction}
  {is : List Instruction}

/-- Adding a table moves the next key of tables on, and nothing else does. -/
theorem Applied.nextTable_eq (h : Applied limits s i s') :
    s'.nextTable
      = if i.addsTable then ⟨s.nextTable.raw + 1⟩ else s.nextTable := by
  cases h <;> rfl

/-- A table that is there afterwards was there before, or it is the one that
was added. -/
theorem Applied.table?_before (h : Applied limits s i s') {k : TableKey}
    {t' : Table} (hk : s'.table? k = some t') :
    (∃ t, s.table? k = some t) ∨ i.addsTable = true ∧ k = s.nextTable := by
  have hwith {key : TableKey} {t u : Table} (ht : s.table? key = some t)
      (hk : ∃ v, (s.withTable key u).table? k = some v) :
      (∃ t, s.table? k = some t) ∨ i.addsTable = true ∧ k = s.nextTable := by
    obtain ⟨v, hv⟩ := hk
    rw [table?_withTable] at hv
    split at hv
    next he => exact Or.inl ⟨t, he ▸ ht⟩
    next => exact Or.inl ⟨v, hv⟩
  cases h with
  | addTable hname hnew =>
      rw [table?_withNewTable] at hk
      split at hk
      next he => exact Or.inr ⟨rfl, he⟩
      next => exact Or.inl ⟨t', hk⟩
  | removeTable ht hfree =>
      rw [table?_withoutTable] at hk
      split at hk
      next => cases hk
      next => exact Or.inl ⟨t', hk⟩
  | removeObject ht hslot =>
      rw [table?_withoutLinks] at hk
      obtain ⟨v, hv, -⟩ := Option.map_eq_some_iff.1 hk
      exact hwith ht ⟨v, hv⟩
  | addColumn ht => exact hwith ht ⟨t', hk⟩
  | removeColumn ht => exact hwith ht ⟨t', hk⟩
  | createObject ht => exact hwith ht ⟨t', hk⟩
  | set ht => exact hwith ht ⟨t', hk⟩
  | listInsert ht => exact hwith ht ⟨t', hk⟩
  | listSet ht => exact hwith ht ⟨t', hk⟩
  | listRemove ht => exact hwith ht ⟨t', hk⟩
  | listClear ht => exact hwith ht ⟨t', hk⟩

/-- One more instruction adds one more table or none. -/
theorem tablesAdded_append (is : List Instruction) (i : Instruction) :
    tablesAdded (is ++ [i])
      = tablesAdded is + if i.addsTable then 1 else 0 := by
  simp [tablesAdded, List.countP_append, List.countP_singleton]

/-- As long as the table counter has not wrapped, it counts the tables that
were added, and every table that is there has a lower key. -/
theorem Reached.nextTable_eq (h : Reached is s)
    (hadded : tablesAdded is < 2 ^ 32) :
    s.nextTable.raw.toNat = tablesAdded is
      ∧ ∀ k t, s.table? k = some t → k.raw.toNat < tablesAdded is := by
  induction h with
  | empty => exact ⟨rfl, fun k t ht => by simp at ht⟩
  | @step is s s' limits i _ happ ih =>
      have happ := apply_gives_iff.1 happ
      rw [tablesAdded_append] at hadded ⊢
      obtain ⟨hnext, hbelow⟩ := ih (by omega)
      constructor
      · rw [happ.nextTable_eq]
        split
        next hi =>
          rw [if_pos hi] at hadded
          rw [UInt32.toNat_add, hnext]
          exact Nat.mod_eq_of_lt hadded
        next => exact hnext
      · intro k t' ht'
        rcases happ.table?_before ht' with ⟨t, ht⟩ | ⟨hi, rfl⟩
        · exact Nat.lt_add_right _ (hbelow k t ht)
        · rw [if_pos hi, hnext]
          exact Nat.lt_succ_self _
  | renumber _ _ ih => exact ih hadded

/-- The next table key is not in use. -/
theorem Reached.table?_nextTable (h : Reached is s)
    (hadded : tablesAdded is < 2 ^ 32) : s.table? s.nextTable = none := by
  obtain ⟨hnext, hbelow⟩ := h.nextTable_eq hadded
  cases ht : s.table? s.nextTable with
  | none => rfl
  | some t =>
      have := hbelow _ t ht
      omega

end Counter

end Snapshot

end Colonnade
