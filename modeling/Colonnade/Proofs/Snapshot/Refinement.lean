/-
Snapshots refine maps. `Snapshot.logical` reads the maps off a snapshot: a
row is what the cells at the slot of its key hold, and the slot itself is
forgotten. An instruction succeeds exactly when the maps allow it, and what
it leaves reads as the maps that it performs.

The lemmas about one table come first, one for each way in which a table
changes. Each compares rows: an object has the same slot afterwards, or a
new one at which its cells are found, and the cells at that slot have
changed as the row did. The whole-database lemmas then only put tables
together.

Chain: over `Snapshot.Aligned` and `Snapshot.Logical`.
-/
import Colonnade.Proofs.Snapshot.Aligned
import Colonnade.Proofs.Snapshot.Logical

namespace Colonnade

/-- What the cells at a slot hold, column by column. -/
def Table.rowAt (t : Table) (slot : Nat) : Logical.Row :=
  fun col => (t.column? col).bind (·.cells.content? slot)

/-- What the table holds, without its slots. -/
def Table.logical (t : Table) : Logical.Table where
  name := t.name
  columns := t.columns.map fun c => (c.key, c.spec)
  nextColumn := t.nextColumn
  nextObject := t.nextObject
  rows := fun key => (t.rows.slot? key).map t.rowAt

/-- What the snapshot holds, without slots and indexes. -/
def Snapshot.logical (s : Snapshot) : Logical.Database where
  tables := fun k => (s.table? k).map Table.logical
  nextTable := s.nextTable

namespace Table

variable {t : Table} {key : ObjectKey} {col : ColumnKey}

-- ==================================================== reading it off

/-- The map declares the columns of the table. -/
theorem spec?_logical (t : Table) (col : ColumnKey) :
    t.logical.spec? col = (t.column? col).map (·.spec) := by
  unfold Logical.Table.spec? logical column?
  dsimp only
  induction t.columns with
  | nil => rfl
  | cons c cs ih =>
      rw [List.map_cons, List.lookup_cons, List.find?_cons, ih]
      by_cases h : c.key = col
      · simp [h]
      · have h' : (col == c.key) = false := by simpa using Ne.symm h
        have h'' : (c.key == col) = false := by simpa using h
        rw [h', h'']

/-- The map has the rows of the table. -/
theorem rows_logical (t : Table) (key : ObjectKey) :
    t.logical.rows key = (t.rows.slot? key).map t.rowAt := rfl

/-- The map has the cells of the table. -/
theorem cell?_logical {x : CellContent} :
    t.logical.cell? key col = some x
      ↔ ∃ c slot, t.CellAt key col c slot x := by
  unfold Logical.Table.cell?
  rw [rows_logical]
  cases hslot : t.rows.slot? key with
  | none =>
      constructor
      · exact nofun
      · intro h
        rcases h with ⟨c, slot, h⟩
        rw [h.slot_eq] at hslot
        cases hslot
  | some i =>
      show (t.column? col).bind (·.cells.content? i) = some x ↔ _
      rw [Option.bind_eq_some_iff]
      constructor
      · intro h
        rcases h with ⟨c, hc, hx⟩
        exact ⟨c, i, hc, hslot, hx⟩
      · intro h
        rcases h with ⟨c, slot, h⟩
        obtain rfl : slot = i := Option.some.inj (h.slot_eq.symm.trans hslot)
        exact ⟨c, h.column_eq, h.content_eq⟩

/-- Where a row and a column are, there is a cell. -/
theorem Slotted.cellAt (h : t.Slotted) {c : Column} {slot : Nat}
    (hc : t.column? col = some c) (hslot : t.rows.slot? key = some slot) :
    ∃ x, t.CellAt key col c slot x := by
  have hsize := h.size_eq c (mem_of_column? hc)
  have hlt : slot < c.cells.size := by
    rw [show c.cells.size = t.size from hsize]
    exact h.rows.slot_lt hslot
  obtain ⟨x, hx⟩ := Option.isSome_iff_exists.1 (Cells.content?_isSome.2 hlt)
  exact ⟨x, hc, hslot, hx⟩

/-- What is read as a list is the list that the maps hold. -/
theorem listOf_logical {vs : List Value} :
    t.listOf key col = .ok vs ↔ t.logical.cell? key col = some (.list vs) :=
  listOf_eq_ok.trans cell?_logical.symm

/-- What is read as a value is the value that the maps hold. -/
theorem valueOf_logical (h : t.Slotted) (hf : t.Formed) {v : Value} :
    t.valueOf key col = .ok v ↔ t.logical.cell? key col = some (.value v) := by
  simp only [valueOf, Check.bind_eq_ok, requireColumn_eq_ok,
    Check.throw_bind, Check.guard_eq_ok, requireSlot_eq_ok,
    Check.pure_eq_ok, cell?_logical]
  constructor
  · intro h
    rcases h with ⟨c, hc, hlist, slot, hslot, rfl⟩
    obtain ⟨x, hx⟩ := h.cellAt hc hslot
    refine ⟨c, slot, hc, hslot, ?_⟩
    have hsuits := (hf c (mem_of_column? hc)).suits
    have hcontent := hx.content_eq
    unfold Column.valueAt
    cases hcells : c.cells with
    | lists cells =>
        rw [hcells] at hsuits
        exact absurd hsuits hlist
    | values cells =>
        rw [hcells] at hcontent
        obtain ⟨w, hw, -⟩ := Option.map_eq_some_iff.1 hcontent
        simp [Cells.content?, hw]
  · intro h
    rcases h with ⟨c, slot, hc, hslot, hv⟩
    have hsuits := (hf c (mem_of_column? hc)).suits
    cases hcells : c.cells with
    | lists cells => simp [hcells, Cells.content?] at hv
    | values cells =>
        rw [hcells] at hv hsuits
        obtain ⟨w, hw, hwv⟩ := Option.map_eq_some_iff.1 hv
        cases hwv
        have hlist : c.spec.isList = false := hsuits
        refine ⟨c, hc, by simp [hlist], slot, hslot, ?_⟩
        simp [Column.valueAt, hcells, hw]

/-- Columns changed in place are found under the keys they had. -/
theorem column?_map {cs : List Column} {f : Column → Column}
    (hf : ∀ c, (f c).key = c.key) (col : ColumnKey) :
    (cs.map f).find? (·.key == col) = (cs.find? (·.key == col)).map f := by
  rw [List.find?_map]
  congr 2
  funext c
  exact congrArg (· == col) (hf c)

/-- What leaves keys and declarations leaves the list of them. -/
theorem map_spec_map {cs : List Column} {f : Column → Column}
    (hkey : ∀ c, (f c).key = c.key) (hspec : ∀ c, (f c).spec = c.spec) :
    (cs.map f).map (fun c => (c.key, c.spec))
      = cs.map fun c => (c.key, c.spec) := by
  rw [List.map_map]
  refine List.map_congr_left fun c _ => ?_
  show ((f c).key, (f c).spec) = _
  rw [hkey, hspec]

-- =============================================== one table, changed

/-- A new column is found where no other column of its key is. -/
theorem column?_withColumn (t : Table) (col k : ColumnKey)
    (spec : ColumnSpec) :
    (t.withColumn col spec).column? k
      = (t.column? k).or
          (if k = col then some (Column.blank col spec t.size) else none) := by
  show (t.columns ++ [_]).find? _ = _
  rw [List.find?_append, List.find?_singleton, Column.key_blank]
  by_cases hk : k = col
  · simp [hk, column?]
  · have hne : (col == k) = false := by simpa using Ne.symm hk
    rw [hne, if_neg hk]
    rfl

/-- A new column is the last one in the map. -/
theorem columns_withColumn (t : Table) (col : ColumnKey)
    (spec : ColumnSpec) :
    (t.withColumn col spec).logical.columns
      = t.logical.columns ++ [(col, spec)] := by
  show (t.columns ++ [_]).map _ = _
  rw [List.map_append, List.map_singleton, Column.key_blank,
    Column.spec_blank]
  rfl

/-- A new column reads as a fresh cell in every row. -/
theorem logical_withColumn (h : t.Slotted) {col : ColumnKey}
    (hnew : t.column? col = none) (spec : ColumnSpec) :
    (t.withColumn col spec).logical = t.logical.addColumn col spec := by
  refine Logical.Table.ext rfl (columns_withColumn ..) rfl rfl
    (funext fun key => ?_)
  show _ = (t.logical.rows key).map _
  rw [rows_logical, rows_logical]
  change (t.rows.slot? key).map _ = _
  cases hslot : t.rows.slot? key with
  | none => rfl
  | some slot =>
      refine congrArg some (funext fun k => ?_)
      show _ = Logical.update (t.rowAt slot) _ _ k
      unfold rowAt Logical.update
      rw [column?_withColumn]
      split
      next hk =>
        rw [hk, hnew, ← Logical.freshContent_eq_fresh]
        exact Column.content?_blank (h.rows.slot_lt hslot)
      next => rw [Option.or_none]

/-- A removed column is gone from every row. -/
theorem logical_withoutColumn (t : Table) (col : ColumnKey) :
    (t.withoutColumn col).logical = t.logical.removeColumn col := by
  have hcolumn (k : ColumnKey) : (t.withoutColumn col).column? k
      = if k = col then none else t.column? k := by
    show (t.columns.filter _).find? _ = _
    rw [List.find?_filter]
    unfold column?
    by_cases hk : k = col
    · subst hk
      rw [if_pos rfl, List.find?_eq_none]
      intro c _
      simp
    · rw [if_neg hk]
      congr 1
      funext c
      by_cases hc : c.key = k
      · simp [hc, hk]
      · simp [hc]
  refine Logical.Table.ext rfl ?_ rfl rfl (funext fun key => ?_)
  · show (t.columns.filter _).map _ = (t.columns.map _).filter _
    rw [List.filter_map]
    rfl
  · show _ = (t.logical.rows key).map _
    rw [rows_logical, rows_logical]
    change (t.rows.slot? key).map _ = _
    cases t.rows.slot? key with
    | none => rfl
    | some slot =>
        refine congrArg some (funext fun k => ?_)
        show _ = Logical.update (t.rowAt slot) _ _ k
        unfold rowAt Logical.update
        rw [hcolumn]
        split <;> rfl

/-- A new row reads as fresh cells in every column, and the other rows are
what they were. -/
theorem logical_withObject (h : t.Slotted) (hf : t.Formed) :
    (t.withObject t.nextObject).logical
      = t.logical.createObject t.nextObject := by
  have hcolumn (col : ColumnKey) :
      (t.withObject t.nextObject).column? col
        = (t.column? col).map Column.grow := column?_map Column.key_grow col
  refine Logical.Table.ext rfl ?_ rfl rfl (funext fun key => ?_)
  · exact map_spec_map Column.key_grow Column.spec_grow
  · show _ = Logical.update _ _ _ _
    rw [rows_logical]
    change ((t.rows.push t.nextObject).slot? key).map _ = _
    rw [Rows.slot?_push]
    unfold Logical.update
    split
    next =>
      refine congrArg some (funext fun col => ?_)
      unfold rowAt
      rw [hcolumn, spec?_logical]
      cases hc : t.column? col with
      | none => rfl
      | some c =>
          have hmem := mem_of_column? hc
          show c.grow.cells.content? _ = some (Logical.fresh c.spec)
          rw [Column.content?_grow (hf c hmem).suits, if_pos,
            Logical.freshContent_eq_fresh]
          exact (h.size_eq c hmem).symm
    next =>
      rw [rows_logical]
      cases hslot : t.rows.slot? key with
      | none => rfl
      | some slot =>
          refine congrArg some (funext fun col => ?_)
          unfold rowAt
          rw [hcolumn]
          cases hc : t.column? col with
          | none => rfl
          | some c =>
              have hmem := mem_of_column? hc
              have hlt := h.rows.slot_lt hslot
              show c.grow.cells.content? _ = c.cells.content? _
              rw [Column.content?_grow (hf c hmem).suits, if_neg]
              rw [h.size_eq c hmem]
              exact Nat.ne_of_lt hlt

/-- A removed row is gone, and the row that took its slot reads as it
did. -/
theorem logical_withoutObject (h : t.Slotted) {slot : Nat}
    (hslot : t.rows.slot? key = some slot) :
    (t.withoutObject key slot).logical = t.logical.removeObject key := by
  have hcolumn (col : ColumnKey) :
      (t.withoutObject key slot).column? col
        = (t.column? col).map (Column.vacate · slot) :=
    column?_map (f := (Column.vacate · slot)) (fun _ => rfl) col
  refine Logical.Table.ext rfl ?_ rfl rfl (funext fun a => ?_)
  · exact map_spec_map (f := (Column.vacate · slot)) (fun _ => rfl)
      fun _ => rfl
  · show _ = Logical.update _ _ _ _
    rw [rows_logical]
    change ((t.rows.remove key slot).slot? a).map _ = _
    rw [Rows.slot?_remove h.rows hslot]
    unfold Logical.update
    split
    next => rfl
    next hne =>
      rw [rows_logical]
      cases ha : t.rows.slot? a with
      | none => rfl
      | some j =>
          have hj : j ≠ slot := by
            intro heq
            subst heq
            exact hne (h.rows.injective ha hslot)
          refine congrArg some (funext fun col => ?_)
          unfold rowAt
          rw [hcolumn]
          cases hc : t.column? col with
          | none => rfl
          | some c =>
              exact Rows.content?_vacate_moved
                (h.size_eq c (mem_of_column? hc)) (h.rows.slot_lt hslot)
                (h.rows.slot_lt ha) hj

/-- Links taken out of the columns that have some are taken out of every
column that links there. -/
theorem logical_unlink (hf : t.Formed) (target : TableKey)
    (key : ObjectKey) :
    (t.unlink target key).logical = t.logical.forget target key := by
  -- one column either way, so that both sides are maps over the columns
  let f (c : Column) : Column :=
    if c.spec.target == some target && c.linksTo key then c.unlink key
    else c
  have hkey (c : Column) : (f c).key = c.key := by
    unfold f
    split
    · exact Column.key_unlink c key
    · rfl
  have hspec (c : Column) : (f c).spec = c.spec := by
    unfold f
    split
    · exact Column.spec_unlink c key
    · rfl
  have hcolumn (col : ColumnKey) :
      (t.unlink target key).column? col = (t.column? col).map f :=
    column?_map hkey col
  refine Logical.Table.ext rfl ?_ rfl rfl (funext fun a => ?_)
  · exact map_spec_map hkey hspec
  · show _ = (t.logical.rows a).map _
    rw [rows_logical, rows_logical]
    change (t.rows.slot? a).map _ = _
    cases t.rows.slot? a with
    | none => rfl
    | some slot =>
        refine congrArg some (funext fun col => ?_)
        show _ = if t.logical.links col target
          then (t.rowAt slot col).map (Column.forget key)
          else t.rowAt slot col
        unfold rowAt Logical.Table.links
        rw [hcolumn, spec?_logical]
        cases hc : t.column? col with
        | none => simp
        | some c =>
            have hcf := hf c (mem_of_column? hc)
            show (f c).cells.content? slot
              = if (c.spec.target == some target) = true
                then (c.cells.content? slot).map _
                else c.cells.content? slot
            unfold f
            by_cases hu : c.spec.target = some target
            · rw [hu, if_pos (beq_self_eq_true _), beq_self_eq_true,
                Bool.true_and]
              split
              next => exact Column.content?_unlink hcf.valid hcf.suits hu ..
              -- the column is passed over because it has no such link
              next hno =>
                exact (Column.forget_of_not_linksTo hcf.valid hcf.suits hu
                  (by simpa using hno) slot).symm
            · have hbeq : (c.spec.target == some target) = false := by
                simpa using hu
              rw [hbeq]
              rfl

/-- Content written at the slot of one row is written to that row alone. -/
theorem logical_store (h : t.Slotted) {c : Column} {slot : Nat}
    {old x : CellContent} (hcell : t.CellAt key col c slot old)
    (hkind : (∃ v w, old = .value v ∧ x = .value w)
      ∨ ∃ vs ws, old = .list vs ∧ x = .list ws) :
    (t.store col slot x).logical = t.logical.write key col x := by
  obtain ⟨hc, hslot, hold⟩ := hcell
  have hkey : c.key = col := by simpa using List.find?_some hc
  have hcolumn (k : ColumnKey) : (t.store col slot x).column? k
      = if k = col then some { c with cells := c.cells.store slot x }
        else t.column? k := by
    rw [store_eq hc]
    exact find?_replaceColumn (c := { c with cells := c.cells.store slot x })
      hc rfl k
  have hcolumns : (t.store col slot x).columns.map
      (fun c => (c.key, c.spec)) = t.columns.map fun c => (c.key, c.spec) := by
    rw [store_eq hc]
    exact map_replaceColumn (c := { c with cells := _ }) hc rfl
  refine Logical.Table.ext (name_store ..) hcolumns (nextColumn_store ..)
    (nextObject_store ..) (funext fun a => ?_)
  show _ = if a = key then _ else _
  rw [rows_logical, rows_logical, rows_store]
  cases ha : t.rows.slot? a with
  | none => split <;> rfl
  | some i =>
      -- two rows never share a slot, so the slot tells the row
      have hi : a = key ↔ i = slot := by
        constructor
        · intro heq
          subst heq
          exact Option.some.inj (ha.symm.trans hslot)
        · intro heq
          subst heq
          exact h.rows.injective ha hslot
      by_cases hak : a = key
      · rw [if_pos hak]
        obtain rfl := hi.1 hak
        refine congrArg some (funext fun k => ?_)
        show _ = Logical.update (t.rowAt i) _ _ k
        unfold rowAt Logical.update
        rw [hcolumn]
        by_cases hk : k = col
        · rw [if_pos hk, if_pos hk]
          show (c.cells.store i x).content? i = some x
          rw [Cells.content?_store hold hkind, if_pos rfl]
        · rw [if_neg hk, if_neg hk]
      · rw [if_neg hak]
        refine congrArg some (funext fun k => ?_)
        unfold rowAt
        rw [hcolumn]
        by_cases hk : k = col
        · subst hk
          rw [if_pos rfl, hc]
          show (c.cells.store slot x).content? i = c.cells.content? i
          rw [Cells.content?_store hold hkind, if_neg (mt hi.2 hak)]
        · rw [if_neg hk]

end Table

namespace Snapshot

variable {s s' : Snapshot} {limits : Limits} {table : TableKey} {t : Table}
  {key : ObjectKey} {col : ColumnKey}

-- ============================================== reading it off, at large

theorem tables_logical (s : Snapshot) (k : TableKey) :
    s.logical.tables k = (s.table? k).map Table.logical := rfl

/-- The map has the tables of the snapshot. -/
theorem tables_logical_eq_some {d : Logical.Table} :
    s.logical.tables table = some d
      ↔ ∃ t, s.table? table = some t ∧ t.logical = d := by
  rw [tables_logical, Option.map_eq_some_iff]

/-- The map has the objects of the snapshot. -/
theorem live_logical :
    s.logical.Live table key
      ↔ ∃ t, s.table? table = some t ∧ t.contains key = true := by
  unfold Logical.Database.Live
  constructor
  · intro h
    rcases h with ⟨d, row, hd, hrow⟩
    obtain ⟨t, ht, rfl⟩ := tables_logical_eq_some.1 hd
    obtain ⟨slot, hslot, -⟩ := Option.map_eq_some_iff.1 hrow
    exact ⟨t, ht, Table.contains_iff.2 ⟨slot, hslot⟩⟩
  · intro h
    rcases h with ⟨t, ht, hlive⟩
    obtain ⟨slot, hslot⟩ := Table.contains_iff.1 hlive
    refine ⟨t.logical, t.rowAt slot, ?_, ?_⟩
    · rw [tables_logical, ht]
      rfl
    · rw [Table.rows_logical, hslot]
      rfl

/-- A link leads somewhere in the map if it does in the snapshot. -/
theorem linkLive_logical {c : Column} {v : Value} :
    s.logical.LinkLive c.spec v ↔ s.LinkLive c v := by
  constructor
  · intro h k hk
    obtain ⟨u, hu, hlive⟩ := h k hk
    obtain ⟨t, ht, hkey⟩ := live_logical.1 hlive
    exact ⟨u, t, hu, ht, hkey⟩
  · intro h k hk
    obtain ⟨u, t, hu, ht, hkey⟩ := h k hk
    exact ⟨u, hu, live_logical.2 ⟨t, ht, hkey⟩⟩

/-- An object and a column of a table, on the maps and below. -/
theorem hasCell_logical {d : Logical.Table} {spec : ColumnSpec} :
    s.logical.HasCell table key col d spec
      ↔ ∃ t c slot, s.table? table = some t ∧ t.logical = d
        ∧ t.column? col = some c ∧ c.spec = spec
        ∧ t.rows.slot? key = some slot := by
  constructor
  · intro h
    rcases h with ⟨hd, hspec, row, hrow⟩
    obtain ⟨t, ht, rfl⟩ := tables_logical_eq_some.1 hd
    rw [Table.spec?_logical] at hspec
    obtain ⟨c, hc, hspec⟩ := Option.map_eq_some_iff.1 hspec
    obtain ⟨slot, hslot, -⟩ := Option.map_eq_some_iff.1 hrow
    exact ⟨t, c, slot, ht, rfl, hc, hspec, hslot⟩
  · intro h
    rcases h with ⟨t, c, slot, ht, rfl, hc, rfl, hslot⟩
    refine ⟨tables_logical_eq_some.2 ⟨t, ht, rfl⟩, ?_, t.rowAt slot, ?_⟩
    · rw [Table.spec?_logical, hc]
      rfl
    · rw [Table.rows_logical, hslot]
      rfl

/-- The map has a cell where the table has one. -/
theorem hasCell_of_cellAt {c : Column} {slot : Nat} {x : CellContent}
    (ht : s.table? table = some t) (h : t.CellAt key col c slot x) :
    s.logical.HasCell table key col t.logical c.spec :=
  hasCell_logical.2 ⟨t, c, slot, ht, rfl, h.column_eq, rfl, h.slot_eq⟩

/-- What the maps hold in a column that is there is what its cell holds. -/
theorem cellAt_of_cell? {c : Column} {slot : Nat} {x : CellContent}
    (hc : t.column? col = some c) (hslot : t.rows.slot? key = some slot)
    (hx : t.logical.cell? key col = some x) : t.CellAt key col c slot x := by
  obtain ⟨d, j, hd⟩ := Table.cell?_logical.1 hx
  obtain rfl : d = c := Option.some.inj (hd.column_eq.symm.trans hc)
  obtain rfl : j = slot := Option.some.inj (hd.slot_eq.symm.trans hslot)
  exact hd

/-- A column of lists has lists in its cells, and nothing else has. -/
theorem isList_iff_of_cellAt (hf : s.Formed) (ht : s.table? table = some t)
    {c : Column} {slot : Nat} {x : CellContent}
    (hx : t.CellAt key col c slot x) :
    (c.spec.isList = true ∧ ∃ vs, x = .list vs)
      ∨ (c.spec.isList = false ∧ ∃ v, x = .value v) := by
  have hsuits := (hf.table table t ht c
    (Table.mem_of_column? hx.column_eq)).suits
  have hcontent := hx.content_eq
  cases hcells : c.cells with
  | values cells =>
      rw [hcells] at hsuits hcontent
      obtain ⟨v, -, rfl⟩ := Option.map_eq_some_iff.1 hcontent
      exact Or.inr ⟨hsuits, v, rfl⟩
  | lists cells =>
      rw [hcells] at hsuits hcontent
      obtain ⟨vs, -, rfl⟩ := Option.map_eq_some_iff.1 hcontent
      exact Or.inl ⟨hsuits, vs, rfl⟩

/-- Lists are in columns of lists. -/
theorem isList_of_cellAt (hf : s.Formed) (ht : s.table? table = some t)
    {c : Column} {slot : Nat} {vs : List Value}
    (hx : t.CellAt key col c slot (.list vs)) : c.spec.isList = true := by
  rcases isList_iff_of_cellAt hf ht hx with ⟨hlist, -⟩ | ⟨-, v, hv⟩
  · exact hlist
  · cases hv

/-- A column without lists has values. -/
theorem value_of_cellAt (hf : s.Formed) (ht : s.table? table = some t)
    {c : Column} {slot : Nat} {x : CellContent}
    (hx : t.CellAt key col c slot x) (hlist : c.spec.isList = false) :
    ∃ v, x = .value v := by
  rcases isList_iff_of_cellAt hf ht hx with ⟨h, -⟩ | ⟨-, hv⟩
  · rw [hlist] at h
    cases h
  · exact hv

/-- A column of lists has lists. -/
theorem list_of_cellAt (hf : s.Formed) (ht : s.table? table = some t)
    {c : Column} {slot : Nat} {x : CellContent}
    (hx : t.CellAt key col c slot x) (hlist : c.spec.isList = true) :
    ∃ vs, x = .list vs := by
  rcases isList_iff_of_cellAt hf ht hx with ⟨-, hvs⟩ | ⟨h, -⟩
  · exact hvs
  · rw [hlist] at h
    cases h

/-- The map takes the elements that the table does, if their links lead
somewhere. -/
theorem takesElement_logical {c : Column} {v : Value} :
    s.logical.TakesElement limits c.spec v
      ↔ Table.TakesElement c limits v ∧ s.LinkLive c v := by
  constructor
  · intro h
    rcases h with ⟨hlist, hpresent, hfits, hlink⟩
    exact ⟨⟨hlist, hpresent, hfits⟩, linkLive_logical.1 hlink⟩
  · intro h
    rcases h with ⟨⟨hlist, hpresent, hfits⟩, hlink⟩
    exact ⟨hlist, hpresent, hfits, linkLive_logical.2 hlink⟩

-- ============================================= the database, changed

/-- One table exchanged for another. -/
theorem logical_withTable {t' : Table} {f : Logical.Table → Logical.Table}
    (ht : s.table? table = some t) (hf : t'.logical = f t.logical) :
    (s.withTable table t').logical = s.logical.onTable table f := by
  refine Logical.Database.ext (funext fun k => ?_) rfl
  show _ = if k = table then (s.logical.tables k).map f
    else s.logical.tables k
  rw [tables_logical, tables_logical, table?_withTable]
  by_cases hk : k = table
  · rw [if_pos hk, if_pos hk, hk, ht]
    exact congrArg some hf
  · rw [if_neg hk, if_neg hk]

/-- Adding a table comes to adding it to the map. -/
theorem logical_withNewTable (s : Snapshot) (name : String) :
    (s.withNewTable name).logical
      = s.logical.perform (.addTable s.nextTable name) := by
  refine Logical.Database.ext (funext fun k => ?_) rfl
  show _ = Logical.update s.logical.tables s.nextTable _ k
  rw [tables_logical, table?_withNewTable]
  unfold Logical.update
  split
  next =>
    refine congrArg some (Logical.Table.ext rfl rfl rfl rfl ?_)
    funext a
    rw [Table.rows_logical]
    show (Rows.slot? {} a).map _ = none
    rw [Rows.slot?_empty]
    rfl
  next => rfl

/-- Removing a table comes to removing it from the map. -/
theorem logical_withoutTable (s : Snapshot) (name : String) :
    (s.withoutTable table name).logical
      = s.logical.perform (.removeTable table) := by
  refine Logical.Database.ext (funext fun k => ?_) rfl
  show _ = Logical.update s.logical.tables table none k
  rw [tables_logical, table?_withoutTable]
  unfold Logical.update
  split <;> rfl

/-- Taking links out comes to taking them out of the map. -/
theorem logical_withoutLinks (hf : s.Formed) (table : TableKey)
    (key : ObjectKey) :
    (s.withoutLinks table key).logical
      = { s.logical with tables := fun k =>
            (s.logical.tables k).map (·.forget table key) } := by
  refine Logical.Database.ext (funext fun k => ?_) rfl
  show _ = (s.logical.tables k).map _
  rw [tables_logical, tables_logical, table?_withoutLinks]
  cases ht : s.table? k with
  | none => rfl
  | some t =>
      exact congrArg some (Table.logical_unlink (hf.table k t ht) table key)

/-- A list changed in its cell. -/
theorem logical_edit (hs : t.Slotted) (ht : s.table? table = some t)
    {c : Column} {slot : Nat} {vs : List Value}
    (hcell : t.CellAt key col c slot (.list vs))
    (f : List Value → List Value) :
    (s.withTable table (t.store col slot (.list (f vs)))).logical
      = s.logical.onTable table (·.edit key col f) := by
  refine logical_withTable ht ?_
  have hread := Table.cell?_logical.2 ⟨c, slot, hcell⟩
  unfold Logical.Table.edit
  rw [hread]
  exact Table.logical_store hs hcell
    (Or.inr ⟨_, _, rfl, rfl⟩)

/-- Where rows and cells are in step and a new column has a key of its own,
what an instruction leaves reads as what the maps perform. -/
theorem Applied.logical_eq_of_slotted
    (hs : ∀ k t, s.table? k = some t → t.Slotted) (hf : s.Formed)
    {i : Instruction}
    (hnew : ∀ table col spec t, i = .addColumn table col spec →
      s.table? table = some t → t.column? col = none)
    (happ : Applied limits s i s') : s'.logical = s.logical.perform i := by
  have hslotted {k : TableKey} {t : Table} (ht : s.table? k = some t) :
      t.Slotted := hs k t ht
  cases happ with
  | addTable hname hfree => exact logical_withNewTable s _
  | removeTable ht hfree => exact logical_withoutTable s _
  | addColumn ht htarget hvalid hfree =>
      exact logical_withTable ht
        (Table.logical_withColumn (hslotted ht) (hnew _ _ _ _ rfl ht) _)
  | removeColumn ht hc =>
      exact logical_withTable ht (Table.logical_withoutColumn _ _)
  | createObject ht =>
      exact logical_withTable ht
        (Table.logical_withObject (hslotted ht) (hf.table _ _ ht))
  | @removeObject table t key slot ht hslot =>
      -- taking links out asks that the rows are gone already
      have hformed : (s.withTable table (t.withoutObject key slot)).Formed :=
        hf.withTable ht rfl fun d hd => by
          obtain ⟨c, hc, rfl⟩ := List.mem_map.1 hd
          exact (hf.table table t ht c hc).vacate slot
      rw [logical_withoutLinks hformed,
        logical_withTable (f := (·.removeObject key)) ht
          (Table.logical_withoutObject (hslotted ht) hslot)]
      rfl
  | set ht hcell =>
      exact logical_withTable ht (Table.logical_store (hslotted ht) hcell
        (Or.inl ⟨_, _, rfl, rfl⟩))
  | @listInsert table t key col c slot index v vs ht hcell =>
      exact logical_edit (hslotted ht) ht hcell
        (·.insertIdx index.toNat v)
  | @listSet table t key col c slot index v vs ht hcell =>
      exact logical_edit (hslotted ht) ht hcell
        (·.set index.toNat v)
  | @listRemove table t key col c slot index vs ht hcell =>
      exact logical_edit (hslotted ht) ht hcell
        (·.eraseIdx index.toNat)
  | listClear ht hcell => exact logical_edit (hslotted ht) ht hcell fun _ => []

/-- What an instruction leaves reads as what the maps perform. -/
theorem Applied.logical_eq (ha : s.Aligned) (hf : s.Formed)
    {i : Instruction} (happ : Applied limits s i s') :
    s'.logical = s.logical.perform i := by
  refine happ.logical_eq_of_slotted (fun k t ht => (ha.table k t ht).slotted)
    hf fun table col spec t hi ht => ?_
  subst hi
  cases happ with
  | @addColumn _ u _ hu =>
      obtain rfl : t = u := Option.some.inj (ht.symm.trans hu)
      exact (ha.table table t ht).column?_nextColumnKey

-- ============================================ what may be carried out

/-- A name is new if the map declares no column under it. -/
theorem columnKey?_eq_none {name : String} :
    t.columnKey? name = none ↔ ∀ c ∈ t.logical.columns, c.2.name ≠ name := by
  unfold Table.columnKey?
  rw [Option.map_eq_none_iff, List.find?_eq_none]
  show _ ↔ ∀ c ∈ t.columns.map _, _
  rw [List.forall_mem_map]
  simp

/-- What a successful instruction requires is what the maps ask for. -/
theorem Applied.allowed (ha : s.Aligned) (hf : s.Formed) {i : Instruction}
    (happ : Applied limits s i s') : s.logical.Allowed limits i := by
  have hthere {k : TableKey} {t : Table} (ht : s.table? k = some t) :
      s.logical.tables k = some t.logical :=
    tables_logical_eq_some.2 ⟨t, ht, rfl⟩
  cases happ with
  | addTable hname hnew =>
      refine ⟨rfl, hname, fun k d hd => ?_⟩
      obtain ⟨t, ht, rfl⟩ := tables_logical_eq_some.1 hd
      exact ha.contains_names.1 hnew k t ht
  | @removeTable key t ht hfree =>
      refine ⟨⟨_, hthere ht⟩, fun k d hd hk c hc hlink => ?_⟩
      obtain ⟨u, hu, rfl⟩ := tables_logical_eq_some.1 hd
      have hno := hfree k u hu (by rwa [hf.key_eq k u hu])
      obtain ⟨b, hb, rfl⟩ := List.mem_map.1 hc
      simp only [Table.linksInto, List.any_eq_false] at hno
      exact hno b hb (by simpa using hlink)
  | addColumn ht htarget hvalid hnew =>
      refine ⟨_, hthere ht, ?_, hvalid, columnKey?_eq_none.1 hnew,
        fun u hu => ?_⟩
      · rw [← hf.key_eq _ _ ht]
        rfl
      · obtain ⟨v, hv⟩ := Option.ne_none_iff_exists'.1 (htarget u hu)
        exact ⟨_, hthere hv⟩
  | @removeColumn table t col c ht hc =>
      refine ⟨_, c.spec, hthere ht, ?_⟩
      rw [Table.spec?_logical, hc]
      rfl
  | createObject ht => exact ⟨_, hthere ht, rfl⟩
  | removeObject ht hslot =>
      exact live_logical.2 ⟨_, ht, Table.contains_iff.2 ⟨_, hslot⟩⟩
  | set ht hcell hlist hfits hlink =>
      exact ⟨_, _, hasCell_of_cellAt ht hcell, hlist, hfits,
        linkLive_logical.2 hlink⟩
  | listInsert ht hcell hfits hlink hindex =>
      exact ⟨_, _, _, hasCell_of_cellAt ht hcell,
        takesElement_logical.2 ⟨hfits, hlink⟩,
        Table.cell?_logical.2 ⟨_, _, hcell⟩, hindex⟩
  | listSet ht hcell hfits hlink hindex =>
      exact ⟨_, _, _, hasCell_of_cellAt ht hcell,
        takesElement_logical.2 ⟨hfits, hlink⟩,
        Table.cell?_logical.2 ⟨_, _, hcell⟩, hindex⟩
  | listRemove ht hcell hindex =>
      exact ⟨_, _, _, hasCell_of_cellAt ht hcell, isList_of_cellAt hf ht hcell,
        Table.cell?_logical.2 ⟨_, _, hcell⟩, hindex⟩
  | listClear ht hcell =>
      exact ⟨_, _, hasCell_of_cellAt ht hcell, isList_of_cellAt hf ht hcell⟩

/-- What the maps allow can be carried out. -/
theorem applied_of_allowed (ha : s.Aligned) (hf : s.Formed)
    {i : Instruction} (h : s.logical.Allowed limits i) :
    ∃ s', Applied limits s i s' := by
  cases i with
  | addTable key name =>
      obtain ⟨rfl, hname, hnew⟩ := h
      -- the names are kept beside the tables, in step with them
      have hfree : s.names.contains name = false :=
        ha.contains_names.2 fun k t ht =>
          hnew k _ (tables_logical_eq_some.2 ⟨t, ht, rfl⟩)
      exact ⟨_, .addTable hname hfree⟩
  | removeTable key =>
      obtain ⟨⟨d, hd⟩, hfree⟩ := h
      obtain ⟨t, ht, rfl⟩ := tables_logical_eq_some.1 hd
      refine ⟨_, .removeTable ht fun k u hu hk => ?_⟩
      have hno := hfree k _ (tables_logical_eq_some.2 ⟨u, hu, rfl⟩)
        (by rwa [← hf.key_eq k u hu])
      simp only [Table.linksInto, List.any_eq_false]
      intro c hc hlink
      exact hno (c.key, c.spec) (List.mem_map.2 ⟨c, hc, rfl⟩)
        (by simpa using hlink)
  | addColumn table col spec =>
      obtain ⟨d, hd, rfl, hvalid, hnew, htarget⟩ := h
      obtain ⟨t, ht, rfl⟩ := tables_logical_eq_some.1 hd
      rw [← hf.key_eq table t ht]
      refine ⟨_, .addColumn (hf.key_eq table t ht ▸ ht) (fun u hu hnone => ?_)
        hvalid (columnKey?_eq_none.2 hnew)⟩
      obtain ⟨e, he⟩ := htarget u hu
      obtain ⟨v, hv, -⟩ := tables_logical_eq_some.1 he
      rw [hnone] at hv
      cases hv
  | removeColumn table col =>
      obtain ⟨d, spec, hd, hspec⟩ := h
      obtain ⟨t, ht, rfl⟩ := tables_logical_eq_some.1 hd
      rw [Table.spec?_logical] at hspec
      obtain ⟨c, hc, -⟩ := Option.map_eq_some_iff.1 hspec
      exact ⟨_, .removeColumn ht hc⟩
  | createObject table key =>
      obtain ⟨d, hd, rfl⟩ := h
      obtain ⟨t, ht, rfl⟩ := tables_logical_eq_some.1 hd
      exact ⟨_, .createObject ht⟩
  | removeObject table key =>
      obtain ⟨t, ht, hlive⟩ := live_logical.1 h
      obtain ⟨slot, hslot⟩ := Table.contains_iff.1 hlive
      exact ⟨_, .removeObject ht hslot⟩
  | set table key col v =>
      obtain ⟨d, spec, hcell, hlist, hfits, hlink⟩ := h
      obtain ⟨t, c, slot, ht, rfl, hc, rfl, hslot⟩ := hasCell_logical.1 hcell
      -- the map has no slots: there is a cell since columns are as long as
      -- the rows
      obtain ⟨x, hx⟩ := (ha.table table t ht).slotted.cellAt hc hslot
      obtain ⟨w, rfl⟩ := value_of_cellAt hf ht hx hlist
      exact ⟨_, .set ht hx hlist hfits (linkLive_logical.1 hlink)⟩
  | listInsert table key col index v =>
      obtain ⟨d, spec, vs, hcell, hfits, hread, hindex⟩ := h
      obtain ⟨t, c, slot, ht, rfl, hc, rfl, hslot⟩ := hasCell_logical.1 hcell
      obtain ⟨hfits, hlink⟩ := takesElement_logical.1 hfits
      have hx := cellAt_of_cell? hc hslot hread
      exact ⟨_, .listInsert ht hx hfits hlink hindex⟩
  | listSet table key col index v =>
      obtain ⟨d, spec, vs, hcell, hfits, hread, hindex⟩ := h
      obtain ⟨t, c, slot, ht, rfl, hc, rfl, hslot⟩ := hasCell_logical.1 hcell
      obtain ⟨hfits, hlink⟩ := takesElement_logical.1 hfits
      have hx := cellAt_of_cell? hc hslot hread
      exact ⟨_, .listSet ht hx hfits hlink hindex⟩
  | listRemove table key col index =>
      obtain ⟨d, spec, vs, hcell, hlist, hread, hindex⟩ := h
      obtain ⟨t, c, slot, ht, rfl, hc, rfl, hslot⟩ := hasCell_logical.1 hcell
      have hx := cellAt_of_cell? hc hslot hread
      exact ⟨_, .listRemove ht hx hindex⟩
  | listClear table key col =>
      obtain ⟨d, spec, hcell, hlist⟩ := h
      obtain ⟨t, c, slot, ht, rfl, hc, rfl, hslot⟩ := hasCell_logical.1 hcell
      obtain ⟨x, hx⟩ := (ha.table table t ht).slotted.cellAt hc hslot
      obtain ⟨vs, rfl⟩ := list_of_cellAt hf ht hx hlist
      exact ⟨_, .listClear ht hx⟩

-- ============================================================ refinement

/-- Snapshots refine maps: an instruction succeeds exactly where the maps
allow it, and then leaves what the maps perform. -/
theorem apply_refines (h : Unwrapped s) (limits : Limits)
    (i : Instruction) :
    ((∃ s', (apply limits i).run s = .ok () s')
        ↔ s.logical.Allowed limits i)
      ∧ ∀ s', (apply limits i).run s = .ok () s' →
        s'.logical = s.logical.perform i := by
  have ha := h.aligned
  have hf := h.formed
  refine ⟨⟨?_, fun hallowed => ?_⟩, fun s' hrun => ?_⟩
  · intro h
    rcases h with ⟨s', hrun⟩
    exact (apply_gives_iff.1 hrun).allowed ha hf
  · obtain ⟨s', happ⟩ := applied_of_allowed ha hf hallowed
    exact ⟨s', apply_gives_iff.2 happ⟩
  · exact (apply_gives_iff.1 hrun).logical_eq ha hf

/-- The first of two objects is removed, and the second moves. -/
theorem apply_refines_removal :
    ∃ s s', Unwrapped s ∧ s.logical.Allowed .none (.removeObject ⟨0⟩ ⟨0⟩)
      ∧ (apply .none (.removeObject ⟨0⟩ ⟨0⟩)).run s = .ok () s'
      ∧ s'.logical = s.logical.perform (.removeObject ⟨0⟩ ⟨0⟩) := by
  have htable := Unwrapped.empty.step (i := .addTable ⟨0⟩ "number")
    (show Snapshot.empty.nextTable.raw.toNat + 1 < 2 ^ 32 by decide)
    (show Edit.Gives (apply .none _) _ () _ from rfl)
  have hcolumn := htable.step
    (i := .addColumn ⟨0⟩ ⟨1⟩ (.scalar "n" .int false))
    (fun t ht => by cases ht; decide)
    (show Edit.Gives (apply .none _) _ () _ from rfl)
  have hfirst := hcolumn.step (i := .createObject ⟨0⟩ ⟨0⟩)
    (fun t ht => by cases ht; decide)
    (show Edit.Gives (apply .none _) _ () _ from rfl)
  have hsecond := hfirst.step (i := .createObject ⟨0⟩ ⟨1⟩)
    (fun t ht => by cases ht; decide)
    (show Edit.Gives (apply .none _) _ () _ from rfl)
  obtain ⟨hallowed, hperform⟩ :=
    apply_refines hsecond .none (.removeObject ⟨0⟩ ⟨0⟩)
  exact ⟨_, _, hsecond, hallowed.1 ⟨_, rfl⟩, rfl, hperform _ rfl⟩

end Snapshot

end Colonnade
