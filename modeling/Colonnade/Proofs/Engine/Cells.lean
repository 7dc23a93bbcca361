/-
Writing a cell through a handle to its object, exactly. Where the handle
`Reaches` a table, a write succeeds if the transaction writes, the table
calls for an instruction and the instruction can be carried out on the
snapshot of the transaction; what it leaves is the engine with that
instruction `written`. If any of this is missing the engine is left as it
was, in every part.

Whether a cell takes null is asked in two ways. Making a value absent asks
the table first, which lets every link through and no list and goes by the
declaration otherwise; writing null as a value leaves it to the column, which
goes by the declaration alone. Declarations in a reached snapshot are valid,
and a link is declared single and nullable, so the two always agree.

Chain: `Boundary.Nulling` and `Boundary.Linking` write through sessions.
-/
import Colonnade.Proofs.Engine.Uses
import Colonnade.Proofs.Engine.Wrought
import Colonnade.Proofs.Snapshot.Searched
import Colonnade.Proofs.Snapshot.Seated

namespace Colonnade

open Snapshot (Applied LinkLive)

-- ============================================================== columns

namespace Table

variable {t : Table} {limits : Limits} {key : ObjectKey} {col : ColumnKey}
  {c : Column} {slot : Nat} {v : Value}

theorem checkType_eq_ok {type : ColumnType} :
    t.checkType col type = .ok ()
      ↔ ∃ c, t.column? col = some c ∧ c.spec.type = type := by
  simp [checkType]

theorem checkNullable_eq_ok :
    t.checkNullable col = .ok ()
      ↔ ∃ c, t.column? col = some c
        ∧ (c.spec.type = .link
          ∨ c.spec.isList = false ∧ c.spec.nullable = true) := by
  unfold checkNullable
  simp only [Check.bind_eq_ok, requireColumn_eq_ok]
  refine exists_congr fun c => and_congr_right' ?_
  by_cases hlink : c.spec.type = .link
  · simp [hlink]
  · simp [hlink]

/-- In a valid declaration the two ways to ask for null agree. -/
theorem checkNullable_iff (hf : t.Formed) :
    t.checkNullable col = .ok ()
      ↔ ∃ c, t.column? col = some c ∧ c.spec.isList = false
        ∧ c.spec.Accepts limits .null := by
  rw [checkNullable_eq_ok]
  refine exists_congr fun c => and_congr_right fun hc => ?_
  have hvalid := (hf c (mem_of_column? hc)).valid
  constructor
  · rintro (hlink | htakes)
    · exact hvalid.link_single hlink
    · exact htakes
  · exact .inr

/-- A single cell holds a value, wherever the object and the column are. -/
theorem Seated.cellAt_value (h : t.Seated) (hf : t.Formed)
    (hc : t.column? col = some c) (hlist : c.spec.isList = false)
    (hslot : t.rows.slot? key = some slot) :
    ∃ w, t.CellAt key col c slot (.value w) := by
  have hsuits := (hf c (mem_of_column? hc)).suits
  have hlt := h.slot_lt hc hslot
  obtain ⟨x, hx⟩ := Option.isSome_iff_exists.1 (Cells.content?_isSome.2 hlt)
  cases hcells : c.cells with
  | values cells =>
      have hvalue : (Cells.values cells).content? slot = some x := hcells ▸ hx
      obtain ⟨w, -, rfl⟩ := Option.map_eq_some_iff.1 hvalue
      exact ⟨w, hc, hslot, hx⟩
  | lists cells =>
      rw [hcells] at hsuits
      have hlists : c.spec.isList = true := hsuits
      rw [hlist] at hlists
      cases hlists

/-- What is stored in a single cell is read there. -/
theorem valueOf_store {w : Value}
    (hcell : t.CellAt key col c slot (.value w))
    (hlist : c.spec.isList = false) :
    (t.store col slot (.value v)).valueOf key col = .ok v := by
  let stored : Column :=
    { c with cells := c.cells.store slot (.value v) }
  have hcolumn : (t.store col slot (.value v)).column? col = some stored := by
    have hfound := find?_replaceColumn (c := stored) hcell.column_eq rfl col
    rw [if_pos rfl] at hfound
    rw [store_eq hcell.column_eq]
    exact hfound
  refine (valueOf_eq_ok hcolumn hlist).2 ⟨slot, ?_, ?_⟩
  · rw [rows_store]
    exact hcell.slot_eq
  · have hcontent := Cells.content?_store hcell.content_eq
      (.inl ⟨w, v, rfl, rfl⟩) slot
    rw [if_pos rfl] at hcontent
    unfold Column.valueAt
    dsimp only [stored]
    cases hcells : c.cells.store slot (.value v) with
    | values cells =>
        rw [hcells] at hcontent
        obtain ⟨x, hx, hxv⟩ := Option.map_eq_some_iff.1 hcontent
        cases hxv
        simp [hx]
    | lists cells =>
        rw [hcells] at hcontent
        obtain ⟨x, -, hxv⟩ := Option.map_eq_some_iff.1 hcontent
        cases hxv

end Table

-- ============================================================== engines

namespace Engine

variable {e : Engine} {id : TransactionId} {t : Transaction}

/-- The engine with an instruction carried out and recorded in the view of a
transaction. -/
def written (e : Engine) (id : TransactionId) (t : Transaction)
    (i : Instruction) (s : Snapshot) : Engine :=
  e.withTransaction id { t with
    view := { t.view with snapshot := s, changes := t.view.changes.push i } }

/-- Putting a transaction back where it is changes nothing. -/
theorem withTransaction_self (ht : e.transaction? id = some t) :
    e.withTransaction id t = e :=
  congrArg (fun transactions => { e with transactions })
    (OrderedMap.insert_self ht)

end Engine

open Engine

-- ======================================================= object handles

namespace ObjectHandle

/-- What a handle reaches: the transaction is there and admits it, and the
object is in the table that its snapshot has. -/
structure Reaches (o : ObjectHandle) (e : Engine) (t : Transaction)
    (table : Table) : Prop where
  transaction_eq : e.transaction? o.anchor.transaction = some t
  admits : t.view.admits o.anchor.generation = true
  table_eq : t.view.snapshot.table? o.table = some table
  live : table.contains o.key = true

/-- The column with a key, as the transaction of the handle is shown it. -/
def column? (o : ObjectHandle) (e : Engine) (col : ColumnKey) :
    Option Column := do
  let t ← e.transaction? o.anchor.transaction
  let table ← t.view.snapshot.table? o.table
  table.column? col

variable {o : ObjectHandle} {e e' : Engine} {t : Transaction}
  {table : Table} {col : ColumnKey} {v : Value}

/-- A handle is valid if it reaches something. -/
theorem isValid_iff_reaches :
    o.isValid e = true ↔ ∃ t table, o.Reaches e t table := by
  refine (Handle.isValid_iff (h := .object o)).trans
    (exists_congr fun t => ?_)
  constructor
  · rintro ⟨ht, hadmits, table, htable, hlive⟩
    exact ⟨table, ht, hadmits, htable, hlive⟩
  · rintro ⟨table, ht, hadmits, htable, hlive⟩
    exact ⟨ht, hadmits, table, htable, hlive⟩

theorem Reaches.unique {t' : Transaction} {table' : Table}
    (h : o.Reaches e t table) (h' : o.Reaches e t' table') :
    t = t' ∧ table = table' := by
  obtain rfl : t = t' :=
    Option.some.inj (h.transaction_eq.symm.trans h'.transaction_eq)
  exact ⟨rfl, Option.some.inj (h.table_eq.symm.trans h'.table_eq)⟩

theorem Reaches.column?_eq (h : o.Reaches e t table) :
    o.column? e col = table.column? col := by
  unfold column?
  rw [h.transaction_eq]
  show (t.view.snapshot.table? o.table).bind _ = _
  rw [h.table_eq]
  rfl

theorem Reaches.resolve_eq (h : o.Reaches e t table) :
    o.resolve t.view.snapshot = .ok table :=
  Handle.resolve_object_eq_ok.2 ⟨h.table_eq, h.live⟩

/-- Asking the table of an object is asking the table that is reached. -/
theorem Reaches.run_readTable (h : o.Reaches e t table) {α : Type}
    (f : Table → Except Error α) :
    (o.tableHandle.read f).run e = (liftM (f table) : Edit Engine α).run e :=
  Handle.run_read (h := .table o.tableHandle) h.transaction_eq h.admits
    (Handle.resolve_table_eq_ok.2 h.table_eq)

section Write

variable {build : Table → Except Error Instruction}

/-- A write succeeds if something is reached, the transaction writes, and
the instruction that is called for can be carried out. -/
theorem gives_write_iff :
    Edit.Gives (o.write build) e () e'
      ↔ ∃ t table i s, o.Reaches e t table ∧ t.view.mode = .writing
        ∧ build table = .ok i ∧ Applied e.limits t.view.snapshot i s
        ∧ e' = e.written o.anchor.transaction t i s := by
  have hwrite : Edit.Gives (o.write build) e () e'
      ↔ ∃ i, Edit.Gives ((Handle.object o).write build) e i e' := by
    refine Edit.gives_bind.trans (exists_congr fun i => ?_)
    constructor
    · rintro ⟨made, hgives, hdone⟩
      exact (Edit.gives_pure.1 hdone).2 ▸ hgives
    · exact fun hgives => ⟨e', hgives, Edit.gives_pure.2 ⟨rfl, rfl⟩⟩
  rw [hwrite]
  constructor
  · rintro ⟨i, hgives⟩
    obtain ⟨t, view, ht, hwritten, rfl⟩ := Handle.gives_write hgives
    rcases View.write_cases hwritten with ⟨j, hj, hwrote⟩ | ⟨-, hno⟩
    · cases hj
      obtain ⟨table, hresolve, hbuild⟩ := Check.bind_eq_ok.1 hwrote.built
      obtain ⟨htable, hlive⟩ := Handle.resolve_object_eq_ok.1 hresolve
      refine ⟨t, table, i, view.snapshot,
        ⟨ht, View.admits_of_write hwritten, htable, hlive⟩, hwrote.writing,
        hbuild, hwrote.applied, ?_⟩
      obtain ⟨generation, mode, snapshot, changes⟩ := view
      obtain ⟨-, -, -, rfl, rfl, rfl⟩ := hwrote
      rfl
    · exact absurd rfl (hno i)
  · rintro ⟨t, table, i, s, hreaches, hmode, hbuild, happ, rfl⟩
    have hbuilt : (do build (← o.resolve t.view.snapshot) :
        Except Error Instruction) = .ok i := by
      rw [hreaches.resolve_eq]
      exact hbuild
    exact ⟨i, Anchor.gives_write hreaches.transaction_eq hreaches.admits hmode
      (View.record_gives hbuilt (Snapshot.apply_gives_iff.2 happ))⟩

/-- A write that reaches its table and fails changes nothing at all. -/
theorem Reaches.run_write_error (h : o.Reaches e t table) {err : Error}
    (hrun : (o.write build).run e = .error err e') : e' = e := by
  cases hwrite : t.view.write e.limits o.anchor.generation
      (fun s => do build (← o.resolve s)) with
  | mk result view =>
      have hanchor : (o.anchor.write .objectDetached _).run e = _ :=
        Anchor.run_write h.transaction_eq hwrite
      have hview : (∀ i, result ≠ some (.ok i)) → view = t.view := by
        intro hno
        rcases View.write_cases hwrite with ⟨i, hi, -⟩ | ⟨heq, -⟩
        · exact absurd hi (hno i)
        · exact heq
      unfold write at hrun
      rw [EStateM.run_bind, hanchor] at hrun
      rcases result with _ | ⟨err' | i⟩
      · have hadmits := h.admits
        unfold View.write View.writeWithin at hwrite
        rw [if_pos hadmits] at hwrite
        split at hwrite
        · cases hwrite
        · split at hwrite <;> cases hwrite
      · obtain rfl := hview nofun
        cases hrun
        exact withTransaction_self h.transaction_eq
      · cases hrun

end Write

/-- Writing a value succeeds if its instruction can be carried out. -/
theorem gives_set_iff :
    Edit.Gives (o.set col v) e () e'
      ↔ ∃ t table s, o.Reaches e t table ∧ t.view.mode = .writing
        ∧ Applied e.limits t.view.snapshot (.set o.table o.key col v) s
        ∧ e' = e.written o.anchor.transaction t (.set o.table o.key col v)
          s := by
  refine gives_write_iff.trans (exists_congr fun t => exists_congr fun u => ?_)
  constructor
  · rintro ⟨i, s, hreaches, hmode, hbuild, happ, heq⟩
    cases hbuild
    exact ⟨s, hreaches, hmode, happ, heq⟩
  · rintro ⟨s, hreaches, hmode, happ, heq⟩
    exact ⟨_, s, hreaches, hmode, rfl, happ, heq⟩

/-- So does making it absent, if the table lets it be. -/
theorem gives_setNull_iff :
    Edit.Gives (o.setNull col) e () e'
      ↔ ∃ t table s, o.Reaches e t table ∧ t.view.mode = .writing
        ∧ table.checkNullable col = .ok ()
        ∧ Applied e.limits t.view.snapshot (.set o.table o.key col .null) s
        ∧ e' = e.written o.anchor.transaction t
          (.set o.table o.key col .null) s := by
  refine gives_write_iff.trans (exists_congr fun t => exists_congr fun u => ?_)
  constructor
  · rintro ⟨i, s, hreaches, hmode, hbuild, happ, heq⟩
    obtain ⟨⟨⟩, hnullable, hi⟩ := Check.bind_eq_ok.1 hbuild
    cases hi
    exact ⟨s, hreaches, hmode, hnullable, happ, heq⟩
  · rintro ⟨s, hreaches, hmode, hnullable, happ, heq⟩
    exact ⟨_, s, hreaches, hmode, Check.bind_eq_ok.2 ⟨(), hnullable, rfl⟩,
      happ, heq⟩

/-- What it is to write null: the transaction writes, the cell is single and
declared nullable, it holds null afterwards, and the one instruction that
says so is recorded. -/
inductive WritesNull (o : ObjectHandle) (col : ColumnKey) (e : Engine) :
    Engine → Prop
  | mk {t : Transaction} {table : Table} {c : Column} {slot : Nat}
      {w : Value} (hreaches : o.Reaches e t table)
      (hmode : t.view.mode = .writing)
      (hcell : table.CellAt o.key col c slot (.value w))
      (hlist : c.spec.isList = false) (hnullable : c.spec.nullable = true) :
      WritesNull o col e (e.written o.anchor.transaction t
        (.set o.table o.key col .null)
        (t.view.snapshot.withTable o.table
          (table.store col slot (.value .null))))

theorem gives_set_null_iff :
    Edit.Gives (o.set col .null) e () e' ↔ o.WritesNull col e e' := by
  rw [gives_set_iff]
  constructor
  · rintro ⟨t, table, s, hreaches, hmode, happ, rfl⟩
    cases happ with
    | set htable hcell hlist hfits hlink =>
        cases hreaches.table_eq.symm.trans htable
        exact .mk hreaches hmode hcell hlist hfits
  · rintro ⟨hreaches, hmode, hcell, hlist, hnullable⟩
    exact ⟨_, _, _, hreaches, hmode,
      .set hreaches.table_eq hcell hlist hnullable nofun, rfl⟩

section Wrought

variable (hwrought : e.Wrought)

include hwrought

/-- Both the tables that are reached and their columns are well formed. -/
theorem Reaches.formed (h : o.Reaches e t table) :
    table.Formed ∧ table.Seated := by
  obtain ⟨is, his⟩ := hwrought.shown _ t h.transaction_eq
  exact ⟨his.formed.table _ _ h.table_eq, his.seated _ _ h.table_eq⟩

/-- Where null can be written, the table lets it be. -/
theorem Reaches.checkNullable (h : o.Reaches e t table) {s : Snapshot}
    (happ : Applied e.limits t.view.snapshot (.set o.table o.key col .null)
      s) : table.checkNullable col = .ok () := by
  cases happ with
  | @set _ u _ _ c slot _ w htable hcell hlist hfits hlink =>
      obtain rfl : table = u := Option.some.inj (h.table_eq.symm.trans htable)
      exact (Table.checkNullable_iff (h.formed hwrought).1).2
        ⟨c, hcell.column_eq, hlist, hfits⟩

/-- Making a value absent and writing null as a value are the same. -/
theorem gives_setNull_iff_set :
    Edit.Gives (o.setNull col) e () e'
      ↔ Edit.Gives (o.set col .null) e () e' := by
  rw [gives_setNull_iff, gives_set_iff]
  refine exists_congr fun t => exists_congr fun table =>
    exists_congr fun s => ?_
  constructor
  · rintro ⟨hreaches, hmode, -, happ, heq⟩
    exact ⟨hreaches, hmode, happ, heq⟩
  · rintro ⟨hreaches, hmode, happ, heq⟩
    exact ⟨hreaches, hmode, hreaches.checkNullable hwrought happ, happ, heq⟩

/-- A value that a single cell accepts is written there, unless it is a link
to nothing that lives. -/
theorem Reaches.applied_set (h : o.Reaches e t table) {c : Column}
    (hc : table.column? col = some c) (hlist : c.spec.isList = false)
    (hfits : c.spec.Accepts e.limits v)
    (hlink : t.view.snapshot.LinkLive c v) :
    ∃ s table', Applied e.limits t.view.snapshot
        (.set o.table o.key col v) s
      ∧ s.table? o.table = some table' ∧ table'.valueOf o.key col = .ok v := by
  obtain ⟨hf, hseated⟩ := h.formed hwrought
  obtain ⟨slot, hslot⟩ := Table.contains_iff.1 h.live
  obtain ⟨w, hcell⟩ := hseated.cellAt_value hf hc hlist hslot
  refine ⟨_, table.store col slot (.value v),
    .set h.table_eq hcell hlist hfits hlink, ?_,
    Table.valueOf_store hcell hlist⟩
  rw [Snapshot.table?_withTable, if_pos rfl]

end Wrought

end ObjectHandle

end Colonnade
