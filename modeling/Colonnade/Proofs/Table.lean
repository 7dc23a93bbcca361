/-
What each edit of a table does when it succeeds, and that it does nothing
when it fails. The edits of cells all come down to one change, `store`: the
first column of a key gets other content at one slot.

One edit does something when it fails. A new object takes its cells one
column after the other, and `BrokenOff` says what is left where a column gets
no room. With room for everything no edit does.

Nothing is assumed of the table here. A table whose arrays are out of step
still has an outcome for each edit, and failing still leaves it alone.

Chain: `Snapshot.Applied` collects these outcomes into one relation.
-/
import Colonnade.Proofs.Column
import Colonnade.Table

namespace Colonnade.Table

-- =================================================== checks that pass

@[simp]
theorem requireColumn_eq_ok {t : Table} {col : ColumnKey} {c : Column} :
    t.requireColumn col = .ok c ↔ t.column? col = some c := by
  unfold requireColumn
  cases t.column? col <;> simp

@[simp]
theorem requireSlot_eq_ok {t : Table} {key : ObjectKey} {slot : Nat} :
    t.requireSlot key = .ok slot ↔ t.rows.slot? key = some slot := by
  unfold requireSlot
  cases t.rows.slot? key <;> simp

/-- An object lives in a table if it has a slot there. -/
theorem contains_iff {t : Table} {key : ObjectKey} :
    t.contains key = true ↔ ∃ slot, t.rows.slot? key = some slot := by
  unfold contains Rows.contains Rows.slot?
  rw [← Option.isSome_iff_exists, Std.TreeMap.isSome_getElem?_eq_contains]

/-- A new column is taken if it is valid and its name is new. -/
theorem checkNewColumn_eq_ok {t : Table} {spec : ColumnSpec} :
    t.checkNewColumn spec = .ok ()
      ↔ spec.Valid ∧ t.columnKey? spec.name = none := by
  simp [checkNewColumn, ColumnSpec.check_eq_ok]

/-- A value can be set where there is a cell for it that accepts it. -/
theorem checkSet_eq_ok {t : Table} {limits : Limits} {key : ObjectKey}
    {col : ColumnKey} {v : Value} :
    t.checkSet limits key col v = .ok ()
      ↔ ∃ c, t.column? col = some c ∧ (∃ slot, t.rows.slot? key = some slot)
        ∧ c.spec.isList = false ∧ c.spec.Accepts limits v := by
  simp [checkSet, Column.checkValue_eq_ok]

-- ================================================ replacing a column

section Replace

variable {cs : List Column} {col : ColumnKey} {c d : Column}

theorem mem_replaceColumn (h : d ∈ replaceColumn cs col c) :
    d = c ∨ d ∈ cs := by
  induction cs with
  | nil => cases h
  | cons e es ih =>
      unfold replaceColumn at h
      split at h
      · rcases List.mem_cons.1 h with rfl | h
        · exact Or.inl rfl
        · exact Or.inr (List.mem_cons_of_mem _ h)
      · rcases List.mem_cons.1 h with rfl | h
        · exact Or.inr (List.mem_cons_self ..)
        · exact (ih h).imp_right (List.mem_cons_of_mem _)

/-- Putting back the column that was found changes nothing. -/
theorem replaceColumn_self (h : cs.find? (·.key == col) = some c) :
    replaceColumn cs col c = cs := by
  induction cs with
  | nil => rfl
  | cons e es ih =>
      unfold replaceColumn
      rw [List.find?_cons] at h
      split at h
      next hk =>
        cases h
        rw [if_pos hk]
      next hk =>
        rw [if_neg (by simp [hk]), ih h]

/-- A column that agrees with the one it replaces leaves whatever they agree
on as it was, column by column. -/
theorem map_replaceColumn {β : Type} {f : Column → β}
    (h : cs.find? (·.key == col) = some d) (hf : f c = f d) :
    (replaceColumn cs col c).map f = cs.map f := by
  induction cs with
  | nil => rfl
  | cons e es ih =>
      unfold replaceColumn
      rw [List.find?_cons] at h
      split at h
      next hk =>
        cases h
        rw [if_pos hk, List.map_cons, List.map_cons, hf]
      next hk =>
        rw [if_neg (by simp [hk]), List.map_cons, List.map_cons, ih h]

/-- The replaced column is found under its key, and every other key finds
what it found. -/
theorem find?_replaceColumn (h : cs.find? (·.key == col) = some d)
    (hk : c.key = d.key) (k : ColumnKey) :
    (replaceColumn cs col c).find? (·.key == k)
      = if k = col then some c else cs.find? (·.key == k) := by
  have hd : d.key = col := by simpa using List.find?_some h
  induction cs with
  | nil => cases h
  | cons e es ih =>
      rw [List.find?_cons] at h
      unfold replaceColumn
      by_cases he : e.key = col
      · rw [if_pos (by simpa using he), List.find?_cons, List.find?_cons, hk,
          hd, he]
        by_cases hkc : k = col
        · subst hkc
          simp
        · rw [if_neg hkc, show (col == k) = false by simpa using Ne.symm hkc]
      · have hbeq : (e.key == col) = false := by simpa using he
        rw [hbeq] at h
        rw [if_neg (by simpa using he), List.find?_cons, List.find?_cons, ih h]
        by_cases hkc : k = col
        · subst hkc
          rw [hbeq, if_pos rfl]
        · rw [if_neg hkc, if_neg hkc]

end Replace

-- ============================================== the outcome of an edit

/-- The table with one more column. -/
def withColumn (t : Table) (col : ColumnKey) (spec : ColumnSpec) : Table :=
  { t with
    columns := t.columns ++ [Column.blank col spec t.size]
    nextColumn := t.nextColumn + 1 }

/-- The table without the columns of a key. -/
def withoutColumn (t : Table) (col : ColumnKey) : Table :=
  { t with columns := t.columns.filter (·.key != col) }

/-- The table with one more object. -/
def withObject (t : Table) (key : ObjectKey) : Table :=
  { t with
    columns := t.columns.map Column.grow
    rows := t.rows.push key
    nextObject := ⟨t.nextObject.raw + 1⟩ }

/-- The table with a cell for one more row in so many of its first columns,
and no row. -/
def withCells (t : Table) (k : Nat) : Table :=
  { t with columns := Column.growFirst k t.columns }

/-- The table without the object at a slot. -/
def withoutObject (t : Table) (key : ObjectKey) (slot : Nat) : Table :=
  { t with
    columns := t.columns.map (Column.vacate · slot)
    rows := t.rows.remove key slot }

/-- The table with other content in a cell of the first column of a key. -/
def store (t : Table) (col : ColumnKey) (slot : Nat) (x : CellContent) :
    Table :=
  match t.column? col with
  | some c =>
    { t with
      columns := replaceColumn t.columns col
        { c with cells := c.cells.store slot x } }
  | none => t

/-- Where a cell is: its column, its slot, and what it holds. -/
structure CellAt (t : Table) (key : ObjectKey) (col : ColumnKey)
    (c : Column) (slot : Nat) (x : CellContent) : Prop where
  column_eq : t.column? col = some c
  slot_eq : t.rows.slot? key = some slot
  content_eq : c.cells.content? slot = some x

variable {t t' : Table} {limits : Limits} {key : ObjectKey}
  {col : ColumnKey} {v : Value} {index : Nat} {room : Room}

/-- A column is inserted if it is valid, new and under the next key, and if
the cells get room. -/
theorem gives_insertColumn {spec : ColumnSpec} :
    Edit.Gives (insertColumn room col spec) t () t'
      ↔ (spec.Valid ∧ t.columnKey? spec.name = none)
        ∧ col = t.nextColumnKey
        ∧ (∀ i < t.size + 1, room.grants i = true)
        ∧ t.withColumn col spec = t' := by
  simp [insertColumn, withColumn, checkNewColumn_eq_ok, Column.make_eq_ok,
    and_assoc]

/-- A column is removed if it is there. -/
theorem gives_removeColumn :
    Edit.Gives (removeColumn col) t () t'
      ↔ (∃ c, t.column? col = some c) ∧ t.withoutColumn col = t' := by
  simp [removeColumn, withoutColumn]

/-- A row is inserted under the next key, if it and a cell of every column get
room. -/
theorem gives_insertObject :
    Edit.Gives (insertObject room key) t () t'
      ↔ key = t.nextObject
        ∧ (∀ i < t.columns.length + 1, room.grants i = true)
        ∧ t.withObject key = t' := by
  rw [Nat.forall_lt_succ_left]
  simp [insertObject, withObject, Nat.add_comm 1, and_assoc]

/-- A row is removed if it is there. -/
theorem gives_removeObject :
    Edit.Gives (removeObject key) t () t'
      ↔ ∃ slot, t.rows.slot? key = some slot
        ∧ t.withoutObject key slot = t' := by
  simp [removeObject, withoutObject]

/-- What is done to a column is put back in its place. -/
theorem gives_onColumn {missing : Error} {e : Edit Column Unit} :
    Edit.Gives (onColumn col missing e) t () t'
      ↔ ∃ c, t.column? col = some c ∧ ∃ c', Edit.Gives e c () c'
        ∧ { t with columns := replaceColumn t.columns col c' } = t' := by
  cases hc : t.column? col <;> simp [onColumn, hc]

theorem store_eq {c : Column} {slot : Nat} {x : CellContent}
    (h : t.column? col = some c) :
    t.store col slot x
      = { t with
          columns := replaceColumn t.columns col
            { c with cells := c.cells.store slot x } } := by
  unfold store
  rw [h]

/-- A value that a column of single cells accepts is one that it can
hold. -/
theorem canHold_of_accepts {c : Column} (hlist : c.spec.isList = false)
    (h : c.spec.Accepts limits v) : c.canHold v = true := by
  cases v <;>
    simp_all [ColumnSpec.Accepts, Column.canHold, Value.isNull,
      Value.columnType?]

/-- Writing a value needs a cell that holds a value, and a value that the
column accepts. -/
theorem gives_setValue :
    Edit.Gives (setValue limits key col v) t () t'
      ↔ ∃ c slot w, t.CellAt key col c slot (.value w)
        ∧ (c.spec.isList = false ∧ c.spec.Accepts limits v)
        ∧ t.store col slot (.value v) = t' := by
  simp only [setValue, Edit.gives_bind, Edit.gives_get, Edit.gives_lift,
    exists_unit, checkSet_eq_ok, requireSlot_eq_ok, gives_onColumn,
    Column.gives_put]
  constructor
  · intro h
    rcases h with ⟨_, _, ⟨rfl, rfl⟩, _, ⟨⟨c, hc, -, hfits⟩, rfl⟩, slot, _,
      ⟨hslot, rfl⟩, d, hd, d', ⟨⟨w, hw⟩, -, rfl⟩, rfl⟩
    obtain rfl : c = d := Option.some.inj (hc.symm.trans hd)
    exact ⟨c, slot, w, ⟨hc, hslot, hw⟩, hfits, store_eq hc⟩
  · intro h
    rcases h with ⟨c, slot, w, ⟨hc, hslot, hw⟩, hfits, rfl⟩
    exact ⟨t, t, ⟨rfl, rfl⟩, t, ⟨⟨c, hc, ⟨slot, hslot⟩, hfits⟩, rfl⟩, slot, t,
      ⟨hslot, rfl⟩, c, hc, _,
      ⟨⟨w, hw⟩, canHold_of_accepts hfits.1 hfits.2, rfl⟩, (store_eq hc).symm⟩

/-- A key and a column lead to one cell. -/
theorem CellAt.unique {c d : Column} {i j : Nat} {x y : CellContent}
    (h₁ : t.CellAt key col c i x) (h₂ : t.CellAt key col d j y) :
    c = d ∧ i = j ∧ x = y := by
  obtain rfl : c = d := Option.some.inj (h₁.1.symm.trans h₂.1)
  obtain rfl : i = j := Option.some.inj (h₁.2.symm.trans h₂.2)
  exact ⟨rfl, rfl, Option.some.inj (h₁.3.symm.trans h₂.3)⟩

/-- A list is read in the cell that holds it. -/
theorem listOf_eq_ok {vs : List Value} :
    t.listOf key col = .ok vs
      ↔ ∃ c slot, t.CellAt key col c slot (.list vs) := by
  simp only [listOf, Check.bind_eq_ok, requireColumn_eq_ok,
    requireSlot_eq_ok]
  constructor
  · intro h
    rcases h with ⟨c, hc, slot, hslot, h⟩
    cases hvs : c.listAt? slot with
    | none =>
        rw [hvs] at h
        cases h
    | some ws =>
        rw [hvs] at h
        cases h
        exact ⟨c, slot, hc, hslot, Column.listAt?_eq_some.1 hvs⟩
  · intro h
    rcases h with ⟨c, slot, h⟩
    refine ⟨c, h.1, slot, h.2, ?_⟩
    rw [Column.listAt?_eq_some.2 h.3]
    rfl

/-- A list is changed in the cell that holds it. -/
theorem gives_editList {f : List Value → List Value} {c : Column}
    {slot : Nat} {vs : List Value} (h : t.CellAt key col c slot (.list vs)) :
    Edit.Gives (editList key col f) t () t'
      ↔ t.store col slot (.list (f vs)) = t' := by
  simp only [editList, Edit.gives_bind, Edit.gives_get, Edit.gives_lift,
    requireSlot_eq_ok, gives_onColumn, Column.gives_editList]
  constructor
  · intro h
    rcases h with ⟨_, _, ⟨rfl, rfl⟩, j, _, ⟨hslot, rfl⟩, d, hd, d', ⟨ws,
      hws, rfl⟩, rfl⟩
    obtain ⟨rfl, rfl, hlist⟩ := h.unique ⟨hd, hslot, hws⟩
    cases hlist
    exact store_eq hd
  · intro heq
    subst heq
    exact ⟨t, t, ⟨rfl, rfl⟩, slot, t, ⟨h.2, rfl⟩, c, h.1, _, ⟨vs, h.3, rfl⟩,
      (store_eq h.1).symm⟩

/-- Whether a column of lists takes a value as an element. -/
structure TakesElement (c : Column) (limits : Limits) (v : Value) : Prop where
  isList : c.spec.isList = true
  present : ¬ (v = .null ∧ c.spec.type = .linkList)
  accepts : c.spec.Accepts limits v

/-- The check of an element, where there is a list to put it into. -/
theorem checkElement_eq_ok {c : Column} {slot : Nat} {vs : List Value}
    (h : t.CellAt key col c slot (.list vs)) :
    t.checkElement limits key col v = .ok ()
      ↔ TakesElement c limits v := by
  simp only [checkElement, Check.bind_eq_ok, requireColumn_eq_ok,
    requireSlot_eq_ok, Column.checkElement_eq_ok]
  constructor
  · intro h
    rcases h with ⟨d, hd, -, -, hlist, hnull, hfits⟩
    obtain rfl : c = d := Option.some.inj (h.1.symm.trans hd)
    exact ⟨hlist, hnull, hfits⟩
  · intro h
    rcases h with ⟨hlist, hnull, hfits⟩
    exact ⟨c, h.1, slot, h.2, hlist, hnull, hfits⟩

/-- An element is inserted up to the end of a list that takes it. -/
theorem gives_listInsert :
    Edit.Gives (listInsert room limits key col index v) t () t'
      ↔ room.grants 0 = true ∧ ∃ c slot vs, t.CellAt key col c slot (.list vs)
        ∧ TakesElement c limits v ∧ index ≤ vs.length
        ∧ t.store col slot (.list (vs.insertIdx index v)) = t' := by
  simp only [listInsert, Edit.gives_bind, Edit.gives_get, Edit.gives_lift,
    exists_unit, listOf_eq_ok, Edit.throw_bind, Edit.gives_guard,
    Nat.not_lt, Room.ask_eq_ok]
  constructor
  · intro h
    rcases h with ⟨_, _, ⟨rfl, rfl⟩, _, ⟨hv, rfl⟩, vs, _, ⟨⟨c, slot, h⟩,
      rfl⟩, hindex, _, ⟨hroom, rfl⟩, hedit⟩
    exact ⟨hroom, c, slot, vs, h, (checkElement_eq_ok h).1 hv, hindex,
      (gives_editList h).1 hedit⟩
  · intro h
    rcases h with ⟨hroom, c, slot, vs, h, hv, hindex, hstore⟩
    exact ⟨t, t, ⟨rfl, rfl⟩, t, ⟨(checkElement_eq_ok h).2 hv, rfl⟩, vs, t,
      ⟨⟨c, slot, h⟩, rfl⟩, hindex, t, ⟨hroom, rfl⟩,
      (gives_editList h).2 hstore⟩

/-- An element is set where there is one. -/
theorem gives_listSet :
    Edit.Gives (listSet limits key col index v) t () t'
      ↔ ∃ c slot vs, t.CellAt key col c slot (.list vs)
        ∧ TakesElement c limits v ∧ index < vs.length
        ∧ t.store col slot (.list (vs.set index v)) = t' := by
  simp only [listSet, Edit.gives_bind, Edit.gives_get, Edit.gives_lift,
    exists_unit, listOf_eq_ok, Edit.throw_bind, Edit.gives_guard,
    Nat.not_le]
  constructor
  · intro h
    rcases h with ⟨_, _, ⟨rfl, rfl⟩, _, ⟨hv, rfl⟩, vs, _, ⟨⟨c, slot, h⟩,
      rfl⟩, hindex, hedit⟩
    exact ⟨c, slot, vs, h, (checkElement_eq_ok h).1 hv, hindex,
      (gives_editList h).1 hedit⟩
  · intro h
    rcases h with ⟨c, slot, vs, h, hv, hindex, hstore⟩
    exact ⟨t, t, ⟨rfl, rfl⟩, t, ⟨(checkElement_eq_ok h).2 hv, rfl⟩, vs, t,
      ⟨⟨c, slot, h⟩, rfl⟩, hindex, (gives_editList h).2 hstore⟩

/-- An element is removed where there is one. -/
theorem gives_listRemove :
    Edit.Gives (listRemove key col index) t () t'
      ↔ ∃ c slot vs, t.CellAt key col c slot (.list vs)
        ∧ index < vs.length
        ∧ t.store col slot (.list (vs.eraseIdx index)) = t' := by
  simp only [listRemove, Edit.gives_bind, Edit.gives_get, Edit.gives_lift,
    listOf_eq_ok, Edit.throw_bind, Edit.gives_guard, Nat.not_le]
  constructor
  · intro h
    rcases h with ⟨_, _, ⟨rfl, rfl⟩, vs, _, ⟨⟨c, slot, h⟩, rfl⟩, hindex,
      hedit⟩
    exact ⟨c, slot, vs, h, hindex, (gives_editList h).1 hedit⟩
  · intro h
    rcases h with ⟨c, slot, vs, h, hindex, hstore⟩
    exact ⟨t, t, ⟨rfl, rfl⟩, vs, t, ⟨⟨c, slot, h⟩, rfl⟩, hindex,
      (gives_editList h).2 hstore⟩

theorem gives_listClear :
    Edit.Gives (listClear key col) t () t'
      ↔ ∃ c slot vs, t.CellAt key col c slot (.list vs)
        ∧ t.store col slot (.list []) = t' := by
  simp only [listClear, Edit.gives_bind, Edit.gives_get, Edit.gives_lift,
    listOf_eq_ok]
  constructor
  · intro h
    rcases h with ⟨_, _, ⟨rfl, rfl⟩, vs, _, ⟨⟨c, slot, h⟩, rfl⟩, hedit⟩
    exact ⟨c, slot, vs, h, (gives_editList h).1 hedit⟩
  · intro h
    rcases h with ⟨c, slot, vs, h, hstore⟩
    exact ⟨t, t, ⟨rfl, rfl⟩, vs, t, ⟨⟨c, slot, h⟩, rfl⟩,
      (gives_editList h).2 hstore⟩

-- ============================================ failing leaves all alone

/-- Inserting a column is atomic, since it is filled before it is put in
place. -/
theorem atomic_insertColumn (room : Room) (col : ColumnKey)
    (spec : ColumnSpec) : Edit.Atomic (insertColumn room col spec) :=
  .of_get_bind fun _ => .lift_bind fun _ => .guard (.lift_bind fun _ =>
    .set _)

theorem atomic_removeColumn (col : ColumnKey) :
    Edit.Atomic (removeColumn col) :=
  .of_get_bind fun _ => .lift_bind fun _ => .set _

/-- Removing a row is atomic, since only looking for it can fail. -/
theorem atomic_removeObject (key : ObjectKey) :
    Edit.Atomic (removeObject key) :=
  .of_get_bind fun _ => .lift_bind fun _ => .set _

/-- An edit of a column is put back also when it fails; what is put back is
the column that was there. -/
theorem atomic_onColumn {missing : Error} {e : Edit Column Unit}
    (he : Edit.Atomic e) : Edit.Atomic (onColumn col missing e) := by
  refine Edit.Atomic.get_bind fun t err t' h => ?_
  cases hc : t.column? col with
  | none =>
      rw [hc] at h
      exact Edit.Atomic.throw _ _ _ _ h
  | some c =>
      rw [hc] at h
      obtain ⟨c', hrun, rfl⟩ := Edit.focus_error h
      obtain rfl := he c err c' hrun
      rw [replaceColumn_self hc]

theorem atomic_setValue (limits : Limits) (key : ObjectKey)
    (col : ColumnKey) (v : Value) :
    Edit.Atomic (setValue limits key col v) :=
  .of_get_bind fun _ => .lift_bind fun _ => .lift_bind fun _ =>
    atomic_onColumn (Column.atomic_put _ _)

theorem atomic_editList (key : ObjectKey) (col : ColumnKey)
    (f : List Value → List Value) : Edit.Atomic (editList key col f) :=
  .of_get_bind fun _ => .lift_bind fun _ =>
    atomic_onColumn (Column.atomic_editList _ _)

/-- Inserting into a list is atomic, since room is asked for first. -/
theorem atomic_listInsert (room : Room) (limits : Limits) (key : ObjectKey)
    (col : ColumnKey) (index : Nat) (v : Value) :
    Edit.Atomic (listInsert room limits key col index v) :=
  .of_get_bind fun _ => .lift_bind fun _ => .lift_bind fun _ =>
    .guard (.lift_bind fun _ => atomic_editList _ _ _)

theorem atomic_listSet (limits : Limits) (key : ObjectKey)
    (col : ColumnKey) (index : Nat) (v : Value) :
    Edit.Atomic (listSet limits key col index v) :=
  .of_get_bind fun _ => .lift_bind fun _ => .lift_bind fun _ =>
    .guard (atomic_editList _ _ _)

theorem atomic_listRemove (key : ObjectKey) (col : ColumnKey)
    (index : Nat) : Edit.Atomic (listRemove key col index) :=
  .of_get_bind fun _ => .lift_bind fun _ => .guard (atomic_editList _ _ _)

theorem atomic_listClear (key : ObjectKey) (col : ColumnKey) :
    Edit.Atomic (listClear key col) :=
  .of_get_bind fun _ => .lift_bind fun _ => atomic_editList _ _ _

-- ============================================= objects that break off

/-- What a creation leaves that breaks off: the row and the columns in front
got room, one of them at least, and the next column gets none. -/
inductive BrokenOff (room : Room) (t : Table) :
    ObjectKey → Error → Table → Prop
  | column {k : Nat} {c : Column} (hfront : 0 < k)
      (hc : t.columns[k]? = some c) (hstops : room.Stops 0 (k + 1)) :
      BrokenOff room t t.nextObject
        (.outOfMemory s!"column '{c.spec.name}'" 1) (t.withCells k)

/-- A table with a cell too many is another table. -/
theorem withCells_ne {k : Nat} {c : Column} (hfront : 0 < k)
    (hc : t.columns[k]? = some c) : t.withCells k ≠ t := by
  intro h
  have hcolumns : Column.growFirst k t.columns = t.columns :=
    congrArg Table.columns h
  cases hcs : t.columns with
  | nil =>
      rw [hcs] at hc
      cases hc
  | cons d ds =>
      obtain ⟨k, rfl⟩ := Nat.exists_eq_add_of_lt hfront
      rw [hcs] at hcolumns
      have hgrown : d.grow = d := (List.cons.inj hcolumns).1
      have hsize := Column.size_grow d
      rw [hgrown] at hsize
      omega

/-- Before a row gets room nothing is changed. -/
theorem insertObject_error_of_no_row {err : Error}
    (hno : key ≠ t.nextObject ∨ room.grants 0 = false)
    (hrun : (insertObject room key).run t = .error err t') : t' = t := by
  have hrefused (err : Error) :
      (liftM (throw err : Except Error Unit) : Edit Table Unit).run t
        = .error err t := rfl
  by_cases hkey : key = t.nextObject
  · have hrow := hno.resolve_left (not_not.2 hkey)
    simp [insertObject, hkey, Room.ask, hrow, hrefused] at hrun
    exact hrun.2.symm
  · simp [insertObject, hkey] at hrun
    exact hrun.2.symm

/-- Under the next key, a creation whose row gets room grows the columns and
fails where they do. -/
theorem run_insertObject_of_row (hrow : room.grants 0 = true) :
    (insertObject room t.nextObject).run t
      = match Column.growEach room 1 t.columns with
        | .ok _ cs => .ok () { t with
            columns := cs
            rows := t.rows.push t.nextObject
            nextObject := ⟨t.nextObject.raw + 1⟩ }
        | .error err cs => .error err { t with columns := cs } := by
  have hpasses : (liftM (pure () : Except Error Unit) : Edit Table Unit).run t
      = .ok () t := rfl
  simp only [insertObject, EStateM.run_bind, EStateM.run_get, ne_eq,
    not_true_eq_false, if_false, Room.ask, hrow, if_true, hpasses]
  unfold Edit.focus Column.growAll
  dsimp only [EStateM.run]
  cases Column.growEach room 1 t.columns <;> rfl

/-- A creation that fails changes the table exactly if it breaks off. -/
theorem insertObject_changes_iff {err : Error} :
    ((insertObject room key).run t = .error err t' ∧ t' ≠ t)
      ↔ t.BrokenOff room key err t' := by
  constructor
  · rintro ⟨hrun, hne⟩
    obtain rfl : key = t.nextObject := by
      by_contra hkey
      exact hne (insertObject_error_of_no_row (.inl hkey) hrun)
    cases hrow : room.grants 0 with
    | false => exact absurd (insertObject_error_of_no_row (.inr hrow) hrun) hne
    | true =>
        rw [run_insertObject_of_row hrow] at hrun
        rcases Column.growEach_ends room 1 t.columns with
          ⟨-, hgrow⟩ | ⟨k, c, hstops, hc, hgrow⟩
        · rw [hgrow] at hrun
          cases hrun
        · rw [hgrow] at hrun
          cases hrun
          cases k with
          | zero => exact absurd rfl hne
          | succ k =>
              exact .column (Nat.succ_pos k) hc
                (Room.stops_succ_iff.2 ⟨hrow, hstops⟩)
  · rintro ⟨hfront, hc, hstops⟩
    obtain ⟨hrow, hstops⟩ := Room.stops_succ_iff.1 hstops
    refine ⟨?_, withCells_ne hfront hc⟩
    rw [run_insertObject_of_row hrow, Column.growEach_of_stops hstops hc]
    rfl

-- ================================================ room for everything

/-- A column, with room for everything. -/
theorem insertColumn_ample (col : ColumnKey) (spec : ColumnSpec) :
    insertColumn .ample col spec = (do
      let t ← get
      t.checkNewColumn spec
      if col ≠ t.nextColumnKey then
        throw (.fatal (.columnKeyMismatch col t.nextColumnKey t.name))
      set (t.withColumn col spec)) := by
  unfold insertColumn
  simp only [Column.make_ample]
  rfl

/-- An object, with room for everything. -/
theorem insertObject_ample (key : ObjectKey) :
    insertObject .ample key = (do
      let t ← get
      if key ≠ t.nextObject then
        throw (.fatal (.objectKeyMismatch key t.nextObject t.name))
      set (t.withObject key)) := by
  funext t
  show (insertObject .ample key).run t = EStateM.run _ t
  by_cases hkey : key = t.nextObject
  · subst hkey
    have hrun := run_insertObject_of_row (t := t) (Room.grants_ample 0)
    rw [Column.growEach_ample] at hrun
    rw [hrun, EStateM.run_bind, EStateM.run_get]
    dsimp only
    rw [if_neg (not_not.2 rfl)]
    rfl
  · rw [insertObject, EStateM.run_bind, EStateM.run_bind, EStateM.run_get]
    dsimp only
    rw [if_pos hkey, if_pos hkey]
    rfl

/-- An element, with room for everything. -/
theorem listInsert_ample (limits : Limits) (key : ObjectKey)
    (col : ColumnKey) (index : Nat) (v : Value) :
    listInsert .ample limits key col index v = (do
      let t ← get
      t.checkElement limits key col v
      let vs ← t.listOf key col
      if vs.length < index then
        throw (.indexOutOfBounds "list insert" index vs.length)
      editList key col (·.insertIdx index v)) := rfl

end Colonnade.Table
