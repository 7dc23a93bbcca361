/-
What one instruction does to a snapshot, said once. `Applied` has one
constructor for each kind of instruction, with everything that the
instruction requires as its premises and the snapshot that it leaves as its
index. With room for everything an instruction succeeds exactly when
`Applied` allows it, and one that fails leaves the snapshot alone. Within
less room one that succeeds does the same, and the one kind that may change
something and fail is a creation: `BrokenOff` says when and what.

Every invariant of snapshots is proved over `Applied`, one case for each
constructor, and none of them opens an edit again. Five kinds of
instruction write to a cell; they share the shape of their result, which is
`Table.store` under `withTable`.

Chain: `Snapshot.Reached` iterates it.
-/
import Colonnade.Proofs.OrderedMap
import Colonnade.Proofs.Table
import Colonnade.Snapshot

namespace Colonnade.Snapshot

-- ============================================ the parts of an outcome

/-- The snapshot with one more table, still empty. -/
def withNewTable (s : Snapshot) (name : String) : Snapshot :=
  { s with
    tables := s.tables.insert s.nextTable { key := s.nextTable, name }
    names := s.names.insert name s.nextTable
    nextTable := ⟨s.nextTable.raw + 1⟩ }

/-- The snapshot without a table and its name. -/
def withoutTable (s : Snapshot) (key : TableKey) (name : String) :
    Snapshot :=
  { s with tables := s.tables.erase key, names := s.names.erase name }

/-- The snapshot with another table under a key. -/
def withTable (s : Snapshot) (key : TableKey) (t : Table) : Snapshot :=
  { s with tables := s.tables.insert key t }

/-- The snapshot without the links to an object. -/
def withoutLinks (s : Snapshot) (table : TableKey) (key : ObjectKey) :
    Snapshot :=
  { s with tables := s.tables.map fun _ u => u.unlink table key }

/-- Whether a value that is a link names a live object of the table that a
column links into. -/
def LinkLive (s : Snapshot) (c : Column) (v : Value) : Prop :=
  ∀ key, v = .link key →
    ∃ u target, c.spec.target = some u ∧ s.table? u = some target
      ∧ target.contains key = true

/-- What a successful instruction requires and what it leaves. -/
inductive Applied (limits : Limits) (s : Snapshot) :
    Instruction → Snapshot → Prop
  | addTable {name : String} (hname : name ≠ "")
      (hnew : s.names.contains name = false) :
      Applied limits s (.addTable s.nextTable name) (s.withNewTable name)
  | removeTable {key : TableKey} {t : Table} (ht : s.table? key = some t)
      (hfree : ∀ k u, s.table? k = some u → u.key ≠ key →
        u.linksInto key = false) :
      Applied limits s (.removeTable key) (s.withoutTable key t.name)
  | addColumn {table : TableKey} {t : Table} {spec : ColumnSpec}
      (ht : s.table? table = some t)
      (htarget : ∀ u, spec.target = some u → s.table? u ≠ none)
      (hvalid : spec.Valid) (hnew : t.columnKey? spec.name = none) :
      Applied limits s (.addColumn table t.nextColumnKey spec)
        (s.withTable table (t.withColumn t.nextColumnKey spec))
  | removeColumn {table : TableKey} {t : Table} {col : ColumnKey}
      {c : Column} (ht : s.table? table = some t)
      (hc : t.column? col = some c) :
      Applied limits s (.removeColumn table col)
        (s.withTable table (t.withoutColumn col))
  | createObject {table : TableKey} {t : Table}
      (ht : s.table? table = some t) :
      Applied limits s (.createObject table t.nextObject)
        (s.withTable table (t.withObject t.nextObject))
  | removeObject {table : TableKey} {t : Table} {key : ObjectKey}
      {slot : Nat} (ht : s.table? table = some t)
      (hslot : t.rows.slot? key = some slot) :
      Applied limits s (.removeObject table key)
        ((s.withTable table (t.withoutObject key slot)).withoutLinks table
          key)
  | set {table : TableKey} {t : Table} {key : ObjectKey} {col : ColumnKey}
      {c : Column} {slot : Nat} {v w : Value}
      (ht : s.table? table = some t)
      (hcell : t.CellAt key col c slot (.value w))
      (hlist : c.spec.isList = false) (hfits : c.spec.Accepts limits v)
      (hlink : s.LinkLive c v) :
      Applied limits s (.set table key col v)
        (s.withTable table (t.store col slot (.value v)))
  | listInsert {table : TableKey} {t : Table} {key : ObjectKey}
      {col : ColumnKey} {c : Column} {slot : Nat} {index : UInt64}
      {v : Value} {vs : List Value} (ht : s.table? table = some t)
      (hcell : t.CellAt key col c slot (.list vs))
      (hfits : Table.TakesElement c limits v) (hlink : s.LinkLive c v)
      (hindex : index.toNat ≤ vs.length) :
      Applied limits s (.listInsert table key col index v)
        (s.withTable table
          (t.store col slot (.list (vs.insertIdx index.toNat v))))
  | listSet {table : TableKey} {t : Table} {key : ObjectKey}
      {col : ColumnKey} {c : Column} {slot : Nat} {index : UInt64}
      {v : Value} {vs : List Value} (ht : s.table? table = some t)
      (hcell : t.CellAt key col c slot (.list vs))
      (hfits : Table.TakesElement c limits v) (hlink : s.LinkLive c v)
      (hindex : index.toNat < vs.length) :
      Applied limits s (.listSet table key col index v)
        (s.withTable table (t.store col slot (.list (vs.set index.toNat v))))
  | listRemove {table : TableKey} {t : Table} {key : ObjectKey}
      {col : ColumnKey} {c : Column} {slot : Nat} {index : UInt64}
      {vs : List Value} (ht : s.table? table = some t)
      (hcell : t.CellAt key col c slot (.list vs))
      (hindex : index.toNat < vs.length) :
      Applied limits s (.listRemove table key col index)
        (s.withTable table
          (t.store col slot (.list (vs.eraseIdx index.toNat))))
  | listClear {table : TableKey} {t : Table} {key : ObjectKey}
      {col : ColumnKey} {c : Column} {slot : Nat} {vs : List Value}
      (ht : s.table? table = some t)
      (hcell : t.CellAt key col c slot (.list vs)) :
      Applied limits s (.listClear table key col)
        (s.withTable table (t.store col slot (.list [])))

/-- How many requests for room an instruction makes that succeeds. -/
def requests (s : Snapshot) : Instruction → Nat
  | .addColumn table _ _ => (s.table? table).elim 0 (·.size + 1)
  | .createObject table _ => (s.table? table).elim 0 (·.columns.length + 1)
  | .listInsert _ _ _ _ _ => 1
  | _ => 0

/-- A new column asks for all of its cells, and then for each. -/
theorem requests_addColumn {s : Snapshot} {table : TableKey} {t : Table}
    (ht : s.table? table = some t) (col : ColumnKey) (spec : ColumnSpec) :
    s.requests (.addColumn table col spec) = t.size + 1 := by
  simp [requests, ht]

/-- A new object asks for its row, and then for a cell in each column. -/
theorem requests_createObject {s : Snapshot} {table : TableKey} {t : Table}
    (ht : s.table? table = some t) (key : ObjectKey) :
    s.requests (.createObject table key) = t.columns.length + 1 := by
  simp [requests, ht]

/-- No instruction numbers a snapshot anew. -/
theorem Applied.version_eq {limits : Limits} {s s' : Snapshot}
    {i : Instruction} (h : Applied limits s i s') : s'.version = s.version := by
  cases h <;> rfl

-- =================================================== checks that pass

@[simp]
theorem requireTable_eq_ok {s : Snapshot} {key : TableKey} {t : Table} :
    s.requireTable key = .ok t ↔ s.table? key = some t := by
  unfold requireTable
  cases s.table? key <;> simp

/-- The check of a link, where the column is there. -/
theorem checkLink_eq_ok {s : Snapshot} {t : Table} {col : ColumnKey}
    {c : Column} {v : Value} (hc : t.column? col = some c) :
    s.checkLink t col v = .ok () ↔ s.LinkLive c v := by
  cases v with
  | link key =>
      simp only [checkLink, LinkLive, Check.bind_eq_ok,
        Table.requireColumn_eq_ok, hc, Option.some.injEq, Value.link.injEq]
      constructor
      · rintro ⟨c, rfl, h⟩ _ rfl
        cases htarget : c.spec.target >>= s.table? with
        | none => simp [htarget] at h
        | some target =>
            obtain ⟨u, hu, ht⟩ := Option.bind_eq_some_iff.1 htarget
            exact ⟨u, target, hu, ht, by simpa [htarget] using h⟩
      · intro h
        obtain ⟨u, target, hu, ht, hlive⟩ := h key rfl
        refine ⟨c, rfl, ?_⟩
        have htarget : (c.spec.target >>= s.table?) = some target := by
          rw [hu]
          exact ht
        simp [htarget, hlive]
  | _ => simp [checkLink, LinkLive]

-- ============================================ applying, kind by kind

section Kinds

variable {room : Room} {limits : Limits} {s s' : Snapshot}
  {table : TableKey} {key : ObjectKey} {col : ColumnKey} {v : Value}

/-- What is done to a table is put back in its place. -/
theorem gives_onTable {e : Edit Table Unit} :
    Edit.Gives (onTable table e) s () s'
      ↔ ∃ t, s.table? table = some t ∧ ∃ t', Edit.Gives e t () t'
        ∧ s.withTable table t' = s' := by
  simp [onTable, withTable]

theorem gives_addTable {name : String} :
    Edit.Gives (addTable table name) s () s'
      ↔ Applied limits s (.addTable table name) s' := by
  simp only [addTable, Edit.gives_bind, Edit.gives_get, Edit.throw_bind,
    Edit.gives_guard, Edit.gives_set, Bool.not_eq_true]
  constructor
  · intro h
    rcases h with ⟨_, _, ⟨rfl, rfl⟩, hname, hnew, hkey, rfl⟩
    obtain rfl : table = s.nextTable := by simpa using hkey
    exact .addTable (by simpa using hname) hnew
  · intro h
    cases h with
    | addTable hname hnew =>
        exact ⟨s, s, ⟨rfl, rfl⟩, by simpa using hname, hnew, by simp, rfl⟩

theorem gives_removeTable :
    Edit.Gives (removeTable table) s () s'
      ↔ Applied limits s (.removeTable table) s' := by
  have hfree : (s.tableList.find? fun u => u.key != table
        && u.linksInto table) = none
      ↔ ∀ k u, s.table? k = some u → u.key ≠ table →
        u.linksInto table = false := by
    rw [List.find?_eq_none]
    constructor
    · intro h k u hu hne
      have := h u (OrderedMap.mem_values.2 ⟨k, hu⟩)
      simpa [hne] using this
    · intro h u hu
      obtain ⟨k, hk⟩ := OrderedMap.mem_values.1 hu
      by_cases hne : u.key = table
      · simp [hne]
      · simp [h k u hk hne]
  simp only [removeTable, Edit.gives_bind, Edit.gives_get, Edit.gives_lift,
    requireTable_eq_ok]
  constructor
  · intro h
    rcases h with ⟨_, _, ⟨rfl, rfl⟩, t, _, ⟨ht, rfl⟩, h⟩
    cases hfind : s.tableList.find? fun u => u.key != table
        && u.linksInto table with
    | some u =>
        rw [hfind] at h
        exact (Edit.gives_throw.1 h).elim
    | none =>
        rw [hfind] at h
        cases Edit.gives_set.1 h
        exact .removeTable ht (hfree.1 hfind)
  · intro h
    cases h with
    | removeTable ht hunlinked =>
        refine ⟨s, s, ⟨rfl, rfl⟩, _, s, ⟨ht, rfl⟩, ?_⟩
        rw [hfree.2 hunlinked]
        exact Edit.gives_set.2 rfl

/-- A column is added where the instruction applies, if all its cells get
room. -/
theorem gives_addColumn {spec : ColumnSpec} :
    Edit.Gives (addColumn room table col spec) s () s'
      ↔ Applied limits s (.addColumn table col spec) s'
        ∧ ∀ n < s.requests (.addColumn table col spec),
          room.grants n = true := by
  -- behind the check of the target, which is made only if there is one
  have hrest : Edit.Gives (do
        let t ← liftM (s.requireTable table)
        liftM (t.checkNewColumn spec)
        onTable table (Table.insertColumn room col spec)) s () s'
      ↔ ∃ t, s.table? table = some t
        ∧ (spec.Valid ∧ t.columnKey? spec.name = none)
        ∧ col = t.nextColumnKey
        ∧ (∀ n < t.size + 1, room.grants n = true)
        ∧ s.withTable table (t.withColumn col spec) = s' := by
    simp only [Edit.gives_bind, Edit.gives_lift, requireTable_eq_ok,
      exists_unit, Table.checkNewColumn_eq_ok, gives_onTable,
      Table.gives_insertColumn]
    constructor
    · intro h
      rcases h with ⟨t, _, ⟨ht, rfl⟩, _, ⟨hok, rfl⟩, t', ht', _, ⟨-, hcol,
        hroom, rfl⟩, rfl⟩
      obtain rfl : t = t' := Option.some.inj (ht.symm.trans ht')
      exact ⟨t, ht, hok, hcol, hroom, rfl⟩
    · intro h
      rcases h with ⟨t, ht, hok, hcol, hroom, rfl⟩
      exact ⟨t, s, ⟨ht, rfl⟩, s, ⟨hok, rfl⟩, t, ht, _, ⟨hok, hcol, hroom,
        rfl⟩, rfl⟩
  have happlied : (Applied limits s (.addColumn table col spec) s'
        ∧ ∀ n < s.requests (.addColumn table col spec),
          room.grants n = true)
      ↔ (∀ u, spec.target = some u → s.table? u ≠ none)
        ∧ ∃ t, s.table? table = some t
        ∧ (spec.Valid ∧ t.columnKey? spec.name = none)
        ∧ col = t.nextColumnKey
        ∧ (∀ n < t.size + 1, room.grants n = true)
        ∧ s.withTable table (t.withColumn col spec) = s' := by
    constructor
    · rintro ⟨h, hroom⟩
      cases h with
      | addColumn ht htarget hvalid hnew =>
          rw [requests_addColumn ht] at hroom
          exact ⟨htarget, _, ht, ⟨hvalid, hnew⟩, rfl, hroom, rfl⟩
    · intro h
      rcases h with ⟨htarget, t, ht, ⟨hvalid, hnew⟩, rfl, hroom, rfl⟩
      rw [requests_addColumn ht]
      exact ⟨.addColumn ht htarget hvalid hnew, hroom⟩
  rw [happlied, ← hrest]
  unfold addColumn
  cases htarget : spec.target with
  | none => simp
  | some u =>
      cases hu : s.table? u with
      | none => simp [hu]
      | some target => simp [hu]

theorem gives_removeColumn :
    Edit.Gives (applyWithin room limits (.removeColumn table col)) s () s'
      ↔ Applied limits s (.removeColumn table col) s' := by
  simp only [applyWithin, Edit.gives_bind, Edit.gives_get, Edit.gives_lift,
    requireTable_eq_ok, Table.requireColumn_eq_ok, gives_onTable,
    Table.gives_removeColumn]
  constructor
  · intro h
    rcases h with ⟨_, _, ⟨rfl, rfl⟩, t, _, ⟨ht, rfl⟩, c, _, ⟨hc, rfl⟩, t',
      ht', _, ⟨-, rfl⟩, rfl⟩
    obtain rfl : t = t' := Option.some.inj (ht.symm.trans ht')
    exact .removeColumn ht hc
  · intro h
    cases h with
    | removeColumn ht hc =>
        exact ⟨s, s, ⟨rfl, rfl⟩, _, s, ⟨ht, rfl⟩, _, s, ⟨hc, rfl⟩, _, ht,
          _, ⟨⟨_, hc⟩, rfl⟩, rfl⟩

/-- An object is created where the instruction applies, if it and all its
cells get room. -/
theorem gives_createObject :
    Edit.Gives (applyWithin room limits (.createObject table key)) s () s'
      ↔ Applied limits s (.createObject table key) s'
        ∧ ∀ n < s.requests (.createObject table key),
          room.grants n = true := by
  simp only [applyWithin, Edit.gives_bind, Edit.gives_get, Edit.gives_lift,
    requireTable_eq_ok, gives_onTable, Table.gives_insertObject]
  constructor
  · intro h
    rcases h with ⟨_, _, ⟨rfl, rfl⟩, -, _, ⟨-, rfl⟩, t, ht, _, ⟨rfl, hroom,
      rfl⟩, rfl⟩
    rw [requests_createObject ht]
    exact ⟨.createObject ht, hroom⟩
  · rintro ⟨h, hroom⟩
    cases h with
    | createObject ht =>
        rw [requests_createObject ht] at hroom
        exact ⟨s, s, ⟨rfl, rfl⟩, _, s, ⟨ht, rfl⟩, _, ht, _, ⟨rfl, hroom,
          rfl⟩, rfl⟩

theorem gives_removeObject :
    Edit.Gives (removeObject table key) s () s'
      ↔ Applied limits s (.removeObject table key) s' := by
  have hlive (t : Table) : ¬ (!t.contains key) = true
      ↔ ∃ slot, t.rows.slot? key = some slot := by
    simpa using Table.contains_iff
  simp only [removeObject, Edit.gives_bind, Edit.gives_get, Edit.gives_lift,
    requireTable_eq_ok, Edit.throw_bind, Edit.gives_guard, hlive,
    exists_unit, gives_onTable, Table.gives_removeObject, Edit.gives_modify]
  constructor
  · intro h
    rcases h with ⟨_, _, ⟨rfl, rfl⟩, t, _, ⟨ht, rfl⟩, -, _, ⟨t', ht', _,
      ⟨slot, hslot, rfl⟩, rfl⟩, rfl⟩
    exact .removeObject ht' hslot
  · intro h
    cases h with
    | removeObject ht hslot =>
        exact ⟨s, s, ⟨rfl, rfl⟩, _, s, ⟨ht, rfl⟩, ⟨_, hslot⟩, _, ⟨_, ht, _,
          ⟨_, hslot, rfl⟩, rfl⟩, rfl⟩

theorem gives_setValue :
    Edit.Gives (setValue limits table key col v) s () s'
      ↔ Applied limits s (.set table key col v) s' := by
  simp only [setValue, Edit.gives_bind, Edit.gives_get, Edit.gives_lift,
    exists_unit, requireTable_eq_ok, Table.checkSet_eq_ok, gives_onTable,
    Table.gives_setValue]
  constructor
  · intro h
    rcases h with ⟨_, _, ⟨rfl, rfl⟩, t, _, ⟨ht, rfl⟩, _, ⟨-, rfl⟩, _,
      ⟨hlink, rfl⟩, t', ht', _, ⟨c, slot, w, hcell, hfits, rfl⟩, rfl⟩
    obtain rfl : t = t' := Option.some.inj (ht.symm.trans ht')
    exact .set ht hcell hfits.1 hfits.2 ((checkLink_eq_ok hcell.1).1 hlink)
  · intro h
    cases h with
    | set ht hcell hlist hfits hlink =>
        exact ⟨s, s, ⟨rfl, rfl⟩, _, s, ⟨ht, rfl⟩, s,
          ⟨⟨_, hcell.1, ⟨_, hcell.2⟩, hlist, hfits⟩, rfl⟩, s,
          ⟨(checkLink_eq_ok hcell.1).2 hlink, rfl⟩, _, ht, _,
          ⟨_, _, _, hcell, ⟨hlist, hfits⟩, rfl⟩, rfl⟩

/-- Writing a value into a list, where the write itself needs the list and
the check of the value. -/
theorem gives_writeElement {write : Edit Table Unit}
    {fits : List Value → Prop} {change : List Value → List Value}
    (hwrite : ∀ t t', Edit.Gives write t () t'
      ↔ ∃ c slot vs, t.CellAt key col c slot (.list vs)
        ∧ Table.TakesElement c limits v ∧ fits vs
        ∧ t.store col slot (.list (change vs)) = t') :
    Edit.Gives (writeElement limits table key col v write) s () s'
      ↔ ∃ t c slot vs, s.table? table = some t
        ∧ t.CellAt key col c slot (.list vs)
        ∧ Table.TakesElement c limits v ∧ s.LinkLive c v ∧ fits vs
        ∧ s.withTable table (t.store col slot (.list (change vs))) = s' := by
  simp only [writeElement, Edit.gives_bind, Edit.gives_get, Edit.gives_lift,
    exists_unit, requireTable_eq_ok, gives_onTable, hwrite]
  constructor
  · intro h
    rcases h with ⟨_, _, ⟨rfl, rfl⟩, t, _, ⟨ht, rfl⟩, _, ⟨-, rfl⟩, _,
      ⟨hlink, rfl⟩, t', ht', _, ⟨c, slot, vs, hcell, hfits, hvs, rfl⟩,
      rfl⟩
    obtain rfl : t = t' := Option.some.inj (ht.symm.trans ht')
    exact ⟨t, c, slot, vs, ht, hcell, hfits,
      (checkLink_eq_ok hcell.1).1 hlink, hvs, rfl⟩
  · intro h
    rcases h with ⟨t, c, slot, vs, ht, hcell, hfits, hlink, hvs, rfl⟩
    exact ⟨s, s, ⟨rfl, rfl⟩, t, s, ⟨ht, rfl⟩, s,
      ⟨(Table.checkElement_eq_ok hcell).2 hfits, rfl⟩, s,
      ⟨(checkLink_eq_ok hcell.1).2 hlink, rfl⟩, t, ht, _,
      ⟨c, slot, vs, hcell, hfits, hvs, rfl⟩, rfl⟩

/-- Taking elements out of a list, where the edit itself needs the list. -/
theorem gives_shrinkList {shrink : Edit Table Unit}
    {fits : List Value → Prop} {change : List Value → List Value}
    (hshrink : ∀ t t', Edit.Gives shrink t () t'
      ↔ ∃ c slot vs, t.CellAt key col c slot (.list vs) ∧ fits vs
        ∧ t.store col slot (.list (change vs)) = t') :
    Edit.Gives (shrinkList table key col shrink) s () s'
      ↔ ∃ t c slot vs, s.table? table = some t
        ∧ t.CellAt key col c slot (.list vs) ∧ fits vs
        ∧ s.withTable table (t.store col slot (.list (change vs))) = s' := by
  simp only [shrinkList, Edit.gives_bind, Edit.gives_get, Edit.gives_lift,
    requireTable_eq_ok, Table.listOf_eq_ok, gives_onTable, hshrink]
  constructor
  · intro h
    rcases h with ⟨_, _, ⟨rfl, rfl⟩, -, _, ⟨-, rfl⟩, -, _, ⟨-, rfl⟩, t, ht,
      _, ⟨c, slot, vs, hcell, hvs, rfl⟩, rfl⟩
    exact ⟨t, c, slot, vs, ht, hcell, hvs, rfl⟩
  · intro h
    rcases h with ⟨t, c, slot, vs, ht, hcell, hvs, rfl⟩
    exact ⟨s, s, ⟨rfl, rfl⟩, t, s, ⟨ht, rfl⟩, vs, s,
      ⟨⟨c, slot, hcell⟩, rfl⟩, t, ht, _, ⟨c, slot, vs, hcell, hvs, rfl⟩,
      rfl⟩

/-- An element is inserted where the instruction applies, if it gets room. -/
theorem gives_listInsert {index : UInt64} :
    Edit.Gives (applyWithin room limits (.listInsert table key col index v))
        s () s'
      ↔ Applied limits s (.listInsert table key col index v) s'
        ∧ ∀ n < s.requests (.listInsert table key col index v),
          room.grants n = true := by
  have hrequest : (∀ n < s.requests (.listInsert table key col index v),
      room.grants n = true) ↔ room.grants 0 = true := by
    simp [requests]
  have hinsert (t t' : Table) :
      Edit.Gives (Table.listInsert room limits key col index.toNat v) t () t'
        ↔ ∃ c slot vs, t.CellAt key col c slot (.list vs)
          ∧ Table.TakesElement c limits v
          ∧ (room.grants 0 = true ∧ index.toNat ≤ vs.length)
          ∧ t.store col slot (.list (vs.insertIdx index.toNat v)) = t' := by
    rw [Table.gives_listInsert]
    constructor
    · rintro ⟨hroom, c, slot, vs, hcell, hfits, hindex, rfl⟩
      exact ⟨c, slot, vs, hcell, hfits, ⟨hroom, hindex⟩, rfl⟩
    · rintro ⟨c, slot, vs, hcell, hfits, ⟨hroom, hindex⟩, rfl⟩
      exact ⟨hroom, c, slot, vs, hcell, hfits, hindex, rfl⟩
  rw [hrequest]
  refine (gives_writeElement hinsert).trans ?_
  constructor
  · intro h
    rcases h with ⟨t, c, slot, vs, ht, hcell, hfits, hlink, ⟨hroom, hindex⟩,
      rfl⟩
    exact ⟨.listInsert ht hcell hfits hlink hindex, hroom⟩
  · rintro ⟨h, hroom⟩
    cases h with
    | listInsert ht hcell hfits hlink hindex =>
        exact ⟨_, _, _, _, ht, hcell, hfits, hlink, ⟨hroom, hindex⟩, rfl⟩

theorem gives_listSet {index : UInt64} :
    Edit.Gives (applyWithin room limits (.listSet table key col index v))
        s () s'
      ↔ Applied limits s (.listSet table key col index v) s' := by
  refine (gives_writeElement fun _ _ => Table.gives_listSet).trans ?_
  constructor
  · intro h
    rcases h with ⟨t, c, slot, vs, ht, hcell, hfits, hlink, hindex, rfl⟩
    exact .listSet ht hcell hfits hlink hindex
  · intro h
    cases h with
    | listSet ht hcell hfits hlink hindex =>
        exact ⟨_, _, _, _, ht, hcell, hfits, hlink, hindex, rfl⟩

theorem gives_listRemove {index : UInt64} :
    Edit.Gives (applyWithin room limits (.listRemove table key col index))
        s () s'
      ↔ Applied limits s (.listRemove table key col index) s' := by
  refine (gives_shrinkList fun _ _ => Table.gives_listRemove).trans ?_
  constructor
  · intro h
    rcases h with ⟨t, c, slot, vs, ht, hcell, hindex, rfl⟩
    exact .listRemove ht hcell hindex
  · intro h
    cases h with
    | listRemove ht hcell hindex =>
        exact ⟨_, _, _, _, ht, hcell, hindex, rfl⟩

theorem gives_listClear :
    Edit.Gives (applyWithin room limits (.listClear table key col)) s () s'
      ↔ Applied limits s (.listClear table key col) s' := by
  have hclear (t t' : Table) :
      Edit.Gives (Table.listClear key col) t () t'
        ↔ ∃ c slot vs, t.CellAt key col c slot (.list vs) ∧ True
          ∧ t.store col slot (.list []) = t' := by
    simpa using Table.gives_listClear
  refine (gives_shrinkList hclear).trans ?_
  constructor
  · intro h
    rcases h with ⟨t, c, slot, vs, ht, hcell, -, rfl⟩
    exact .listClear ht hcell
  · intro h
    cases h with
    | listClear ht hcell => exact ⟨_, _, _, _, ht, hcell, trivial, rfl⟩

end Kinds

/-- An instruction succeeds exactly as `Applied` says, where it is granted
the room that it asks for. -/
theorem applyWithin_gives_iff {room : Room} {limits : Limits}
    {s s' : Snapshot} {i : Instruction} :
    Edit.Gives (applyWithin room limits i) s () s'
      ↔ Applied limits s i s' ∧ ∀ n < s.requests i, room.grants n = true := by
  -- most kinds ask for no room
  have hnone {P : Prop} : P ↔ P ∧ ∀ n < 0, room.grants n = true :=
    (and_iff_left nofun).symm
  cases i with
  | addTable key name => exact gives_addTable.trans hnone
  | removeTable key => exact gives_removeTable.trans hnone
  | addColumn table col spec => exact gives_addColumn
  | removeColumn table col => exact gives_removeColumn.trans hnone
  | createObject table key => exact gives_createObject
  | removeObject table key => exact gives_removeObject.trans hnone
  | set table key col v => exact gives_setValue.trans hnone
  | listInsert table key col index v => exact gives_listInsert
  | listSet table key col index v => exact gives_listSet.trans hnone
  | listRemove table key col index => exact gives_listRemove.trans hnone
  | listClear table key col => exact gives_listClear.trans hnone

/-- With room for everything an instruction succeeds exactly as `Applied`
says. -/
theorem apply_gives_iff {limits : Limits} {s s' : Snapshot}
    {i : Instruction} :
    Edit.Gives (apply limits i) s () s' ↔ Applied limits s i s' :=
  applyWithin_gives_iff.trans (and_iff_left fun _ _ => rfl)

-- ============================================ failing leaves all alone

section Atomic

/-- A table that an edit leaves alone is put back where it was. -/
theorem atomic_onTable {table : TableKey} {e : Edit Table Unit}
    (he : Edit.Atomic e) : Edit.Atomic (onTable table e) := by
  refine Edit.Atomic.get_bind fun s err s' h => ?_
  unfold requireTable at h
  cases ht : s.table? table with
  | none =>
      rw [ht] at h
      exact Edit.Atomic.throw _ _ _ _ h
  | some t =>
      rw [ht] at h
      obtain ⟨t', hrun, rfl⟩ := Edit.focus_error h
      obtain rfl := he t err t' hrun
      exact congrArg (fun tables => { s with tables })
        (OrderedMap.insert_self ht)

theorem atomic_addTable (table : TableKey) (name : String) :
    Edit.Atomic (addTable table name) :=
  .of_get_bind fun _ => .guard (.guard (.guard (.set _)))

/-- Removing a table is atomic, since all is looked at first. -/
theorem atomic_removeTable (table : TableKey) :
    Edit.Atomic (removeTable table) := by
  refine .of_get_bind fun s => .lift_bind fun t => ?_
  cases s.tableList.find? fun u => u.key != table && u.linksInto table with
  | none => exact .set _
  | some u => exact .throw _

/-- Adding a column is atomic. -/
theorem atomic_addColumn (room : Room) (table : TableKey) (col : ColumnKey)
    (spec : ColumnSpec) : Edit.Atomic (addColumn room table col spec) := by
  refine .of_get_bind fun s => ?_
  have hrest : Edit.Atomic (do
      let t ← liftM (s.requireTable table)
      liftM (t.checkNewColumn spec)
      onTable table (Table.insertColumn room col spec)) :=
    .lift_bind fun _ => .lift_bind fun _ =>
      atomic_onTable (Table.atomic_insertColumn room col spec)
  cases spec.target with
  | none => exact hrest
  | some u => exact .guard hrest

theorem atomic_removeObject (table : TableKey) (key : ObjectKey) :
    Edit.Atomic (removeObject table key) :=
  .of_get_bind fun _ => .lift_bind fun _ => .guard
    (.bind_total (atomic_onTable (Table.atomic_removeObject key))
      fun _ _ => ⟨_, _, rfl⟩)

/-- Writing an element is atomic if the write is. -/
theorem atomic_writeElement {write : Edit Table Unit}
    (hwrite : Edit.Atomic write) (limits : Limits) (table : TableKey)
    (key : ObjectKey) (col : ColumnKey) (v : Value) :
    Edit.Atomic (writeElement limits table key col v write) :=
  .of_get_bind fun _ => .lift_bind fun _ => .lift_bind fun _ =>
    .lift_bind fun _ => atomic_onTable hwrite

/-- Shrinking a list is atomic if the shrinking is. -/
theorem atomic_shrinkList {shrink : Edit Table Unit}
    (hshrink : Edit.Atomic shrink) (table : TableKey) (key : ObjectKey)
    (col : ColumnKey) : Edit.Atomic (shrinkList table key col shrink) :=
  .of_get_bind fun _ => .lift_bind fun _ => .lift_bind fun _ =>
    atomic_onTable hshrink

/-- An instruction that creates no object leaves the snapshot as it was if it
fails, whatever room there is. -/
theorem atomic_applyWithin (room : Room) (limits : Limits) {i : Instruction}
    (hi : ∀ table key, i ≠ .createObject table key) :
    Edit.Atomic (applyWithin room limits i) := by
  cases i with
  | addTable key name => exact atomic_addTable key name
  | removeTable key => exact atomic_removeTable key
  | addColumn table col spec => exact atomic_addColumn room table col spec
  | removeColumn table col =>
      exact .of_get_bind fun _ => .lift_bind fun _ => .lift_bind fun _ =>
        atomic_onTable (Table.atomic_removeColumn col)
  | createObject table key => exact absurd rfl (hi table key)
  | removeObject table key => exact atomic_removeObject table key
  | set table key col v =>
      exact .of_get_bind fun _ => .lift_bind fun _ => .lift_bind fun _ =>
        .lift_bind fun _ => atomic_onTable (Table.atomic_setValue _ _ _ _)
  | listInsert table key col index v =>
      exact atomic_writeElement (Table.atomic_listInsert _ _ _ _ _ _) _ _ _ _
        _
  | listSet table key col index v =>
      exact atomic_writeElement (Table.atomic_listSet _ _ _ _ _) _ _ _ _ _
  | listRemove table key col index =>
      exact atomic_shrinkList (Table.atomic_listRemove _ _ _) _ _ _
  | listClear table key col =>
      exact atomic_shrinkList (Table.atomic_listClear _ _) _ _ _

end Atomic

-- ======================================== instructions that break off

section Breaking

variable {room : Room} {limits : Limits} {s s' : Snapshot} {err : Error}
  {i : Instruction}

/-- What an instruction leaves that breaks off: one of the tables is as a
creation left it that did. -/
inductive BrokenOff (room : Room) (s : Snapshot) :
    Instruction → Error → Snapshot → Prop
  | createObject {table : TableKey} {key : ObjectKey} {t t' : Table}
      {err : Error} (ht : s.table? table = some t)
      (hbroken : t.BrokenOff room key err t') :
      BrokenOff room s (.createObject table key) err (s.withTable table t')

/-- With room for everything nothing breaks off. -/
theorem not_brokenOff_ample : ¬ s.BrokenOff .ample i err s' := by
  rintro ⟨-, ⟨-, -, hstops⟩⟩
  exact Room.not_stops_ample hstops

/-- An edit of a table that is there, put back as it comes out. -/
theorem run_onTable {table : TableKey} {t : Table} {e : Edit Table Unit}
    (ht : s.table? table = some t) :
    (onTable table e).run s
      = match e.run t with
        | .ok _ t' => .ok () (s.withTable table t')
        | .error err t' => .error err (s.withTable table t') := by
  have hthere : (liftM (s.requireTable table) : Edit Snapshot Table).run s
      = .ok t s := by
    rw [requireTable_eq_ok.2 ht]
    rfl
  simp only [onTable, EStateM.run_bind, EStateM.run_get, hthere]
  unfold Edit.focus
  dsimp only [EStateM.run]
  cases e t <;> rfl

/-- A table is only put back as it was if it is as it was. -/
theorem withTable_eq_self_iff {table : TableKey} {t t' : Table}
    (ht : s.table? table = some t) : s.withTable table t' = s ↔ t' = t := by
  constructor
  · intro h
    have hthere : (s.withTable table t').table? table = some t' :=
      Std.TreeMap.getElem?_insert_self
    rw [h, ht] at hthere
    exact (Option.some.inj hthere).symm
  · rintro rfl
    exact congrArg (fun tables => { s with tables })
      (OrderedMap.insert_self ht)

/-- A creation that fails changes the snapshot exactly if it breaks off. -/
theorem createObject_changes_iff {table : TableKey} {key : ObjectKey} :
    ((applyWithin room limits (.createObject table key)).run s
          = .error err s'
        ∧ s' ≠ s)
      ↔ s.BrokenOff room (.createObject table key) err s' := by
  have happly {t : Table} (ht : s.table? table = some t) :
      (applyWithin room limits (.createObject table key)).run s
        = (onTable table (Table.insertObject room key)).run s := by
    have hthere : (liftM (s.requireTable table) : Edit Snapshot Table).run s
        = .ok t s := by
      rw [requireTable_eq_ok.2 ht]
      rfl
    simp only [applyWithin, EStateM.run_bind, EStateM.run_get, hthere]
  constructor
  · rintro ⟨hrun, hne⟩
    cases ht : s.table? table with
    | none =>
        have hgone : (liftM (s.requireTable table) : Edit Snapshot Table).run s
            = .error (.illegalArgument (.unknownTable table)) s := by
          unfold requireTable
          rw [ht]
          rfl
        simp only [applyWithin, EStateM.run_bind, EStateM.run_get, hgone]
          at hrun
        cases hrun
        exact absurd rfl hne
    | some t =>
        rw [happly ht, run_onTable ht] at hrun
        cases hinsert : (Table.insertObject room key).run t with
        | ok _ t' =>
            rw [hinsert] at hrun
            cases hrun
        | error err' t' =>
            rw [hinsert] at hrun
            cases hrun
            -- the table is put back either way, so it shows in the snapshot
            have hne' : t' ≠ t := fun h =>
              hne ((withTable_eq_self_iff ht).2 h)
            exact .createObject ht
              (Table.insertObject_changes_iff.1 ⟨hinsert, hne'⟩)
  · rintro ⟨ht, hbroken⟩
    obtain ⟨hinsert, hne⟩ := Table.insertObject_changes_iff.2 hbroken
    refine ⟨?_, fun h => hne ((withTable_eq_self_iff ht).1 h)⟩
    rw [happly ht, run_onTable ht, hinsert]

/-- Whatever room there is, an instruction that fails changes the snapshot
exactly if it breaks off. -/
theorem applyWithin_changes_iff :
    ((applyWithin room limits i).run s = .error err s' ∧ s' ≠ s)
      ↔ s.BrokenOff room i err s' := by
  by_cases hi : ∃ table key, i = .createObject table key
  · obtain ⟨table, key, rfl⟩ := hi
    exact createObject_changes_iff
  · have hatomic : Edit.Atomic (applyWithin room limits i) :=
      atomic_applyWithin room limits fun table key h => hi ⟨table, key, h⟩
    constructor
    · rintro ⟨hrun, hne⟩
      exact absurd (hatomic s err s' hrun) hne
    · rintro ⟨-, -⟩
      exact absurd ⟨_, _, rfl⟩ hi

/-- With room for everything, an instruction that fails leaves the snapshot
as it was. -/
theorem atomic_apply (limits : Limits) (i : Instruction) :
    Edit.Atomic (apply limits i) := by
  intro s err s' hrun
  by_contra hne
  exact not_brokenOff_ample (applyWithin_changes_iff.1 ⟨hrun, hne⟩)

end Breaking

end Colonnade.Snapshot
