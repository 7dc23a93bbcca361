/-
What can be told of a snapshot. Two snapshots are `Alike` if every read
gives the same on both: the names with the keys they lead to, the next keys,
and of each table its name, its columns, its keys in order, every value and
list, and the answer to every search. Where the rows lie is not among the
things that can be read.

Everything on the list follows from the maps that `Table.logical` reads off
a table, and the maps follow from the list. So alike snapshots are those
with equal maps, as long as rows and cells are in step, which is what being
`Peers` asks for; proofs work with peers and speak of alike snapshots at
their ends. Maps say nothing about failing reads, so those are compared step
by step: a check that finds nothing on one side finds nothing on the other.

Chain: `Snapshot.Verdict` and `Snapshot.Commuting` change peers.
-/
import Colonnade.Proofs.Snapshot.Refinement
import Colonnade.Proofs.Snapshot.Searched

namespace Colonnade

/-- Two tables that no read can tell apart. -/
structure Table.Alike (t u : Table) : Prop where
  key_eq : t.key = u.key
  name_eq : t.name = u.name
  size_eq : t.size = u.size
  objectKeys_eq : t.objectKeys = u.objectKeys
  columns_eq : t.columns.map (fun c => (c.key, c.spec))
    = u.columns.map fun c => (c.key, c.spec)
  nextColumnKey_eq : t.nextColumnKey = u.nextColumnKey
  nextObject_eq : t.nextObject = u.nextObject
  valueOf_eq : ∀ key col, t.valueOf key col = u.valueOf key col
  listOf_eq : ∀ key col, t.listOf key col = u.listOf key col
  findFirst_eq : ∀ col v, t.findFirst col v = u.findFirst col v

/-- Two snapshots that no read can tell apart, their numbers aside. -/
structure Snapshot.Alike (s r : Snapshot) : Prop where
  names_eq : s.names.toList = r.names.toList
  nextTable_eq : s.nextTable = r.nextTable
  keys_eq : ∀ k, (s.table? k).isSome = (r.table? k).isSome
  table : ∀ k t u, s.table? k = some t → r.table? k = some u → t.Alike u

/-- A table whose rows and cells are in step and of the right kind. -/
structure Table.Sound (t : Table) : Prop where
  slotted : t.Slotted
  formed : t.Formed

/-- Two tables with the same maps. -/
structure Table.Peers (t u : Table) : Prop where
  left : t.Sound
  right : u.Sound
  key_eq : t.key = u.key
  logical_eq : t.logical = u.logical

-- ======================================================= two tables

/-- Two tables with the same name, columns and counters. -/
structure Table.SameFrame (t u : Table) : Prop where
  key_eq : t.key = u.key
  name_eq : t.name = u.name
  columns_eq : t.columns.map (fun c => (c.key, c.spec))
    = u.columns.map fun c => (c.key, c.spec)
  nextColumn_eq : t.nextColumn = u.nextColumn
  nextObject_eq : t.nextObject = u.nextObject

namespace Table.SameFrame

variable {t u : Table} {key : ObjectKey} {col : ColumnKey} {α : Type}

theorem nextColumnKey_eq (h : t.SameFrame u) :
    t.nextColumnKey = u.nextColumnKey := by
  unfold nextColumnKey
  rw [h.key_eq, h.nextColumn_eq]

/-- In the same frame the columns are declared alike. -/
theorem spec?_eq (h : t.SameFrame u) (col : ColumnKey) :
    (t.column? col).map (·.spec) = (u.column? col).map (·.spec) := by
  rw [← spec?_logical, ← spec?_logical]
  exact congrArg (List.lookup col) h.columns_eq

/-- A column that is there on one side is there on the other, declared the
same. -/
theorem column?_cases (h : t.SameFrame u) (col : ColumnKey) :
    (t.column? col = none ∧ u.column? col = none)
      ∨ ∃ c d, t.column? col = some c ∧ u.column? col = some d
        ∧ c.spec = d.spec := by
  have hspec := h.spec?_eq col
  cases hc : t.column? col with
  | none =>
      rw [hc] at hspec
      exact Or.inl ⟨rfl, Option.map_eq_none_iff.1 hspec.symm⟩
  | some c =>
      rw [hc] at hspec
      obtain ⟨d, hd, hdc⟩ := Option.map_eq_some_iff.1 hspec.symm
      exact Or.inr ⟨c, d, rfl, hd, hdc.symm⟩

/-- What follows a look for a column, where what follows depends on its
declaration alone. -/
theorem requireColumn_congr (h : t.SameFrame u)
    {f g : Column → Except Error α}
    (hfg : ∀ c d, t.column? col = some c → u.column? col = some d →
      c.spec = d.spec → f c = g d) :
    (t.requireColumn col >>= f) = (u.requireColumn col >>= g) := by
  unfold requireColumn
  rcases h.column?_cases col with ⟨hc, hd⟩ | ⟨c, d, hc, hd, hspec⟩
  · rw [hc, hd, h.name_eq]
    rfl
  · rw [hc, hd]
    exact hfg c d hc hd hspec

/-- What follows a look for an object that both have or neither has, where
what follows depends on how its slots are related. -/
theorem requireSlot_congr (h : t.SameFrame u) {R : Nat → Nat → Prop}
    (hslot : (t.rows.slot? key = none ∧ u.rows.slot? key = none)
      ∨ ∃ i j, t.rows.slot? key = some i ∧ u.rows.slot? key = some j ∧ R i j)
    {f g : Nat → Except Error α}
    (hfg : ∀ i j, t.rows.slot? key = some i → u.rows.slot? key = some j →
      R i j → f i = g j) :
    (t.requireSlot key >>= f) = (u.requireSlot key >>= g) := by
  unfold requireSlot
  rcases hslot with ⟨hi, hj⟩ | ⟨i, j, hi, hj, hrelated⟩
  · rw [hi, hj, h.name_eq]
    rfl
  · rw [hi, hj]
    exact hfg i j hi hj hrelated

end Table.SameFrame

namespace Table.Peers

variable {t u : Table} {key : ObjectKey} {col : ColumnKey} {α : Type}

theorem symm (h : t.Peers u) : u.Peers t :=
  ⟨h.right, h.left, h.key_eq.symm, h.logical_eq.symm⟩

/-- Peers have the same frame. -/
theorem frame (h : t.Peers u) : t.SameFrame u where
  key_eq := h.key_eq
  name_eq := congrArg Logical.Table.name h.logical_eq
  columns_eq := congrArg Logical.Table.columns h.logical_eq
  nextColumn_eq := congrArg Logical.Table.nextColumn h.logical_eq
  nextObject_eq := congrArg Logical.Table.nextObject h.logical_eq

/-- An object that is there on one side is there on the other, with the same
row. -/
theorem slot?_cases (h : t.Peers u) (key : ObjectKey) :
    (t.rows.slot? key = none ∧ u.rows.slot? key = none)
      ∨ ∃ i j, t.rows.slot? key = some i ∧ u.rows.slot? key = some j
        ∧ t.rowAt i = u.rowAt j := by
  have hrow : (t.rows.slot? key).map t.rowAt
      = (u.rows.slot? key).map u.rowAt := by
    rw [← rows_logical, ← rows_logical, h.logical_eq]
  cases hi : t.rows.slot? key with
  | none =>
      rw [hi] at hrow
      exact Or.inl ⟨rfl, Option.map_eq_none_iff.1 hrow.symm⟩
  | some i =>
      rw [hi] at hrow
      obtain ⟨j, hj, hji⟩ := Option.map_eq_some_iff.1 hrow.symm
      exact Or.inr ⟨i, j, rfl, hj, hji.symm⟩

theorem contains_eq (h : t.Peers u) (key : ObjectKey) :
    t.contains key = u.contains key := by
  rw [Bool.eq_iff_iff, contains_iff, contains_iff]
  rcases h.slot?_cases key with ⟨hi, hj⟩ | ⟨i, j, hi, hj, -⟩
  · simp [hi, hj]
  · simp [hi, hj]

/-- What follows a look for an object, where what follows depends on its row
alone. -/
theorem requireSlot_congr (h : t.Peers u) {f g : Nat → Except Error α}
    (hfg : ∀ i j, t.rows.slot? key = some i → u.rows.slot? key = some j →
      t.rowAt i = u.rowAt j → f i = g j) :
    (t.requireSlot key >>= f) = (u.requireSlot key >>= g) :=
  h.frame.requireSlot_congr (h.slot?_cases key) hfg

end Table.Peers

-- ======================================================= reading peers

/-- A slot is read as the value in it, or as null. -/
theorem Column.valueAt_eq (c : Column) (slot : Nat) :
    c.valueAt slot
      = match c.cells.content? slot with
        | some (.value v) => v
        | _ => .null := by
  unfold valueAt Cells.content?
  cases c.cells with
  | values cells => cases h : cells[slot]? <;> simp [h]
  | lists cells => cases h : cells[slot]? <;> simp [h]

/-- A slot is read as the list in it, if it has one. -/
theorem Column.listAt?_eq (c : Column) (slot : Nat) :
    c.listAt? slot
      = match c.cells.content? slot with
        | some (.list vs) => some vs
        | _ => none := by
  unfold listAt? Cells.content?
  cases c.cells with
  | values cells => cases h : cells[slot]? <;> simp [h]
  | lists cells => cases h : cells[slot]? <;> simp [h]

namespace Table.Peers

variable {t u : Table} {key : ObjectKey} {col : ColumnKey} {v : Value}

/-- What a cell holds is the same at the two slots of an object. -/
theorem content?_eq {c d : Column} {i j : Nat} (hc : t.column? col = some c)
    (hd : u.column? col = some d) (hrow : t.rowAt i = u.rowAt j) :
    c.cells.content? i = d.cells.content? j := by
  have hcell := congrFun hrow col
  unfold rowAt at hcell
  rwa [hc, hd] at hcell

/-- Peers have the same values. -/
theorem valueOf_eq (h : t.Peers u) (key : ObjectKey) (col : ColumnKey) :
    t.valueOf key col = u.valueOf key col := by
  unfold valueOf
  refine h.frame.requireColumn_congr fun c d hc hd hspec => ?_
  rw [hspec]
  split
  next => rfl
  next =>
    refine h.requireSlot_congr fun i j hi hj hrow => ?_
    rw [Column.valueAt_eq, Column.valueAt_eq, content?_eq hc hd hrow]

/-- Peers have the same lists. -/
theorem listOf_eq (h : t.Peers u) (key : ObjectKey) (col : ColumnKey) :
    t.listOf key col = u.listOf key col := by
  unfold listOf
  refine h.frame.requireColumn_congr fun c d hc hd hspec => ?_
  refine h.requireSlot_congr fun i j hi hj hrow => ?_
  rw [Column.listAt?_eq, Column.listAt?_eq, content?_eq hc hd hrow, hspec]

/-- The same rows of peers match. -/
theorem matches_iff (h : t.Peers u) :
    t.Matches col v key ↔ u.Matches col v key := by
  unfold Matches
  rw [h.contains_eq, h.valueOf_eq]

/-- The same row of peers is the least that matches. -/
theorem leastMatch_iff (h : t.Peers u) {found : Option ObjectKey} :
    t.LeastMatch col v found ↔ u.LeastMatch col v found := by
  cases found with
  | none => exact forall_congr' fun a => not_congr h.matches_iff
  | some key =>
      exact and_congr h.matches_iff
        (forall_congr' fun a => imp_congr_left h.matches_iff)

/-- A search that has one right answer gives it on both sides. -/
theorem findFirst_eq (h : t.Peers u) (col : ColumnKey) (v : Value) :
    t.findFirst col v = u.findFirst col v := by
  rcases h.frame.column?_cases col with ⟨hc, hd⟩ | ⟨c, d, hc, hd, hspec⟩
  · rw [findFirst_unknown hc, findFirst_unknown hd, h.frame.name_eq]
  · cases hlist : c.spec.isList with
    | true =>
        rw [findFirst_list hc hlist, findFirst_list hd (hspec ▸ hlist), hspec]
    | false =>
        have hlist' : d.spec.isList = false := hspec ▸ hlist
        rw [findFirst_scalar hc hlist, findFirst_scalar hd hlist']
        have hleft := leastMatch_leastKey (v := v) h.left.slotted hc hlist
        have hright := leastMatch_leastKey (v := v) h.right.slotted hd hlist'
        rw [(h.leastMatch_iff.1 hleft).unique hright]

/-- Peers list the same objects. -/
theorem objectKeys_eq (h : t.Peers u) : t.objectKeys = u.objectKeys := by
  refine h.left.slotted.rows.sortedKeys_eq
    h.right.slotted.rows.ascending_sortedKeys fun key => ?_
  show key ∈ u.rows.sortedKeys ↔ _
  rw [h.right.slotted.rows.mem_sortedKeys, ← contains_iff, ← contains_iff,
    h.contains_eq]

theorem size_eq (h : t.Peers u) : t.size = u.size := by
  have hlength := congrArg List.length h.objectKeys_eq
  unfold objectKeys at hlength
  rwa [Rows.length_sortedKeys, Rows.length_sortedKeys] at hlength

/-- Equal maps are read alike. -/
theorem alike (h : t.Peers u) : t.Alike u where
  key_eq := h.key_eq
  name_eq := h.frame.name_eq
  size_eq := h.size_eq
  objectKeys_eq := h.objectKeys_eq
  columns_eq := h.frame.columns_eq
  nextColumnKey_eq := h.frame.nextColumnKey_eq
  nextObject_eq := h.frame.nextObject_eq
  valueOf_eq := h.valueOf_eq
  listOf_eq := h.listOf_eq
  findFirst_eq := h.findFirst_eq

end Table.Peers

namespace Table.Alike

variable {t u : Table}

theorem symm (h : t.Alike u) : u.Alike t where
  key_eq := h.key_eq.symm
  name_eq := h.name_eq.symm
  size_eq := h.size_eq.symm
  objectKeys_eq := h.objectKeys_eq.symm
  columns_eq := h.columns_eq.symm
  nextColumnKey_eq := h.nextColumnKey_eq.symm
  nextObject_eq := h.nextObject_eq.symm
  valueOf_eq key col := (h.valueOf_eq key col).symm
  listOf_eq key col := (h.listOf_eq key col).symm
  findFirst_eq col v := (h.findFirst_eq col v).symm

theorem nextColumn_eq (h : t.Alike u) : t.nextColumn = u.nextColumn := by
  have hraw : Int64.ofNat (t.key.raw.toNat * 0x100000000 + t.nextColumn.toNat)
      = Int64.ofNat (u.key.raw.toNat * 0x100000000 + u.nextColumn.toNat) :=
    congrArg ColumnKey.raw h.nextColumnKey_eq
  rw [h.key_eq] at hraw
  exact UInt32.toNat_inj.1 (Table.Aligned.columnKey_injective
    u.key.raw.toNat_lt t.nextColumn.toNat_lt u.nextColumn.toNat_lt hraw)

/-- Tables that are alike have the same rows. -/
theorem slot?_iff (h : t.Alike u) (ht : t.Sound) (hu : u.Sound)
    (key : ObjectKey) :
    (∃ i, t.rows.slot? key = some i) ↔ ∃ j, u.rows.slot? key = some j := by
  have hkeys : t.rows.sortedKeys = u.rows.sortedKeys := h.objectKeys_eq
  rw [← ht.slotted.rows.mem_sortedKeys, ← hu.slotted.rows.mem_sortedKeys, hkeys]

/-- What the maps of one side hold is read there, hence on the other side,
hence in the maps of the other side. -/
theorem cell?_of_cell? (h : t.Alike u) (ht : t.Sound) (hu : u.Sound)
    {key : ObjectKey} {col : ColumnKey} {x : CellContent}
    (hx : t.logical.cell? key col = some x) :
    u.logical.cell? key col = some x := by
  cases x with
  | value v =>
      rw [← valueOf_logical hu.slotted hu.formed, ← h.valueOf_eq]
      exact (valueOf_logical ht.slotted ht.formed).2 hx
  | list vs =>
      rw [← listOf_logical, ← h.listOf_eq]
      exact listOf_logical.2 hx

/-- What is read alike comes of equal maps. -/
theorem peers (h : t.Alike u) (ht : t.Sound) (hu : u.Sound) : t.Peers u where
  left := ht
  right := hu
  key_eq := h.key_eq
  logical_eq := by
    refine Logical.Table.ext h.name_eq h.columns_eq h.nextColumn_eq
      h.nextObject_eq (funext fun key => ?_)
    have hcell (col : ColumnKey) :
        t.logical.cell? key col = u.logical.cell? key col :=
      Option.ext fun x => ⟨h.cell?_of_cell? ht hu, h.symm.cell?_of_cell? hu ht⟩
    have hslot := h.slot?_iff ht hu key
    simp only [Logical.Table.cell?, rows_logical] at hcell ⊢
    cases hi : t.rows.slot? key with
    | none =>
        cases hj : u.rows.slot? key with
        | none => rfl
        | some j => simp [hi, hj] at hslot
    | some i =>
        cases hj : u.rows.slot? key with
        | none => simp [hi, hj] at hslot
        | some j =>
            rw [hi, hj] at hcell
            exact congrArg some (funext hcell)

end Table.Alike

-- ======================================================= two snapshots

namespace Snapshot

variable {s r : Snapshot} {is : List Instruction}

/-- A snapshot all of whose tables have rows and cells in step, each of the
right kind and under its own key. -/
structure Sound (s : Snapshot) : Prop where
  formed : s.Formed
  slotted : ∀ k t, s.table? k = some t → t.Slotted

/-- The tables of a sound snapshot are sound. -/
theorem Sound.table (h : s.Sound) {k : TableKey} {t : Table}
    (ht : s.table? k = some t) : t.Sound :=
  ⟨h.slotted k t ht, h.formed.table k t ht⟩

/-- What few enough instructions lead to is sound. -/
theorem Reached.sound (h : Reached is s)
    (hfew : ∀ k, objectsCreated k is ≤ 2 ^ 64) : s.Sound :=
  ⟨h.formed, fun k _ ht => h.slotted (hfew k) ht⟩

/-- Two snapshots with the same maps and the same index of names. -/
structure Peers (s r : Snapshot) : Prop where
  left : s.Sound
  right : r.Sound
  names_eq : ∀ name : String, s.names[name]? = r.names[name]?
  logical_eq : s.logical = r.logical

namespace Peers

theorem nextTable_eq (h : s.Peers r) : s.nextTable = r.nextTable :=
  congrArg Logical.Database.nextTable h.logical_eq

/-- A table that is there on one side is there on the other, with the same
maps. -/
theorem table?_cases (h : s.Peers r) (k : TableKey) :
    (s.table? k = none ∧ r.table? k = none)
      ∨ ∃ t u, s.table? k = some t ∧ r.table? k = some u ∧ t.Peers u := by
  have htable : (s.table? k).map Table.logical
      = (r.table? k).map Table.logical := by
    rw [← tables_logical, ← tables_logical, h.logical_eq]
  cases ht : s.table? k with
  | none =>
      rw [ht] at htable
      exact Or.inl ⟨rfl, Option.map_eq_none_iff.1 htable.symm⟩
  | some t =>
      rw [ht] at htable
      obtain ⟨u, hu, hlogical⟩ := Option.map_eq_some_iff.1 htable.symm
      have hkey : t.key = u.key :=
        (h.left.formed.key_eq k t ht).trans (h.right.formed.key_eq k u hu).symm
      exact Or.inr ⟨t, u, rfl, hu, h.left.table ht, h.right.table hu, hkey,
        hlogical.symm⟩

/-- So is a table that may not have been named. -/
theorem bind_table?_cases (h : s.Peers r) (k? : Option TableKey) :
    (k? >>= s.table? = none ∧ k? >>= r.table? = none)
      ∨ ∃ t u, k? >>= s.table? = some t ∧ k? >>= r.table? = some u
        ∧ t.Peers u := by
  cases k? with
  | none => exact Or.inl ⟨rfl, rfl⟩
  | some k => exact h.table?_cases k

theorem alike (h : s.Peers r) : s.Alike r where
  names_eq := (Std.TreeMap.Equiv.of_forall_constGet?_eq h.names_eq).toList_eq
  nextTable_eq := h.nextTable_eq
  keys_eq k := by
    rcases h.table?_cases k with ⟨ht, hu⟩ | ⟨t, u, ht, hu, -⟩
    · rw [ht, hu]
    · rw [ht, hu]
      rfl
  table k t u ht hu := by
    rcases h.table?_cases k with ⟨hno, -⟩ | ⟨t', u', ht', hu', hpeers⟩
    · rw [ht] at hno
      cases hno
    · cases ht.symm.trans ht'
      cases hu.symm.trans hu'
      exact hpeers.alike

end Peers

/-- Sound snapshots that are alike are peers. -/
theorem Alike.peers (h : s.Alike r) (hs : s.Sound) (hr : r.Sound) :
    s.Peers r where
  left := hs
  right := hr
  names_eq name :=
    (Std.TreeMap.equiv_iff_toList_eq.2 h.names_eq).getElem?_eq
  logical_eq := by
    refine Logical.Database.ext (funext fun k => ?_) h.nextTable_eq
    have hthere := h.keys_eq k
    rw [tables_logical, tables_logical]
    cases ht : s.table? k with
    | none =>
        rw [ht] at hthere
        cases hu : r.table? k with
        | none => rfl
        | some u =>
            rw [hu] at hthere
            cases hthere
    | some t =>
        rw [ht] at hthere
        cases hu : r.table? k with
        | none =>
            rw [hu] at hthere
            cases hthere
        | some u =>
            exact congrArg some ((h.table k t u ht hu).peers (hs.table ht)
              (hr.table hu)).logical_eq

end Snapshot

end Colonnade
