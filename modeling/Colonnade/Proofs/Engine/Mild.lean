/-
What a snapshot refuses is never for the sake of a handle. A change to a
snapshot fails for what it is given: a name, a key, a value, an index; or
for a contradiction inside the snapshot. That a handle is over, or that a
transaction does not write, is found before a snapshot is asked at all.

This holds on every snapshot, reached or not, so it is a matter of what the
edits can throw: `Edit.Mild` goes through them along their shape, as
`Check.Mild` does for checks.

Chain: `Engine.Stale` tells by it a use that is rejected for its handle from
one that fails for another reason.
-/
import Colonnade.Proofs.Engine.Uses

namespace Colonnade

/-- Whether an edit never fails for the state of a handle or of a
transaction. -/
abbrev Edit.Mild {σ α : Type} (x : Edit σ α) : Prop :=
  Edit.Fails (·.kind ≠ .illegalState) x

open Check (Mild)

-- ============================================================== checks

/-- A mild guard may refuse in front of what is mild. -/
theorem Check.Mild.guard {c : Prop} [Decidable c] {err : Error}
    {x : Except Error Unit} (herr : err.kind ≠ .illegalState)
    (hx : Mild x) : Mild (if c then .error err else x) := by
  split
  · exact .throw herr
  · exact hx

/-- A bad declaration is a mild failure. -/
theorem ColumnSpec.mild_check (s : ColumnSpec) : Mild s.check :=
  .guard nofun (.guard nofun (.guard nofun (.guard nofun (.guard nofun
    (.guard nofun (.pure ()))))))

namespace Column

variable (c : Column) (limits : Limits) (v : Value)

/-- A cell that is not accepted is a mild failure. -/
theorem mild_checkCell : Mild (c.checkCell limits v) := by
  have hbad (why : BadArgument) :
      Mild (.error (.illegalArgument why) : Except Error Unit) := .throw nofun
  unfold checkCell
  dsimp only
  repeat' split
  all_goals first
    | exact .pure ()
    | exact hbad _

theorem mild_checkValue : Mild (c.checkValue limits v) :=
  .guard nofun (c.mild_checkCell limits v)

theorem mild_checkElement : Mild (c.checkElement limits v) :=
  .guard nofun (.guard nofun (c.mild_checkCell limits v))

theorem mild_put (slot : Nat) (v : Value) : Edit.Mild (put slot v) := by
  refine .get_bind fun c => .guard nofun ?_
  split
  · split
    · exact .set _
    · exact .throw nofun
  · exact .throw nofun

theorem mild_editList (slot : Nat) (f : List Value → List Value) :
    Edit.Mild (editList slot f) := by
  refine .get_bind fun c => ?_
  dsimp only
  split
  · exact .throw nofun
  · split
    · exact .throw nofun
    · exact .set _

end Column

namespace Table

variable (t : Table) (limits : Limits) (key : ObjectKey) (col : ColumnKey)
  (v : Value) (index : Nat)

/-- A new column that is not accepted is a mild failure. -/
theorem mild_checkNewColumn (spec : ColumnSpec) :
    Mild (t.checkNewColumn spec) :=
  .bind spec.mild_check fun _ => .guard nofun (.pure ())

/-- A value that is not accepted is a mild failure. -/
theorem mild_checkSet : Mild (t.checkSet limits key col v) :=
  .bind (t.mild_requireColumn col) fun c =>
    .bind (t.mild_requireSlot key) fun _ => c.mild_checkValue limits v

theorem mild_checkElement : Mild (t.checkElement limits key col v) :=
  .bind (t.mild_requireColumn col) fun c =>
    .bind (t.mild_requireSlot key) fun _ => c.mild_checkElement limits v

theorem mild_insertColumn (spec : ColumnSpec) :
    Edit.Mild (insertColumn .ample col spec) := by
  rw [insertColumn_ample]
  exact .get_bind fun t => .bind (.lift (t.mild_checkNewColumn spec)) fun _ =>
    .guard nofun (.set _)

theorem mild_removeColumn : Edit.Mild (removeColumn col) :=
  .get_bind fun t => .bind (.lift (t.mild_requireColumn col)) fun _ => .set _

theorem mild_insertObject : Edit.Mild (insertObject .ample key) := by
  rw [insertObject_ample]
  exact .get_bind fun _ => .guard nofun (.set _)

theorem mild_removeObject : Edit.Mild (removeObject key) :=
  .get_bind fun t => .bind (.lift (t.mild_requireSlot key)) fun _ => .set _

/-- What is done to a column fails mildly if missing the column does. -/
theorem mild_onColumn {missing : Error}
    (hmissing : missing.kind ≠ .illegalState) {e : Edit Column Unit}
    (he : Edit.Mild e) :
    Edit.Mild (onColumn col missing e) := by
  refine .get_bind fun t => ?_
  split
  · exact .throw hmissing
  · exact .focus he

theorem mild_setValue : Edit.Mild (setValue limits key col v) :=
  .get_bind fun t => .bind (.lift (t.mild_checkSet limits key col v)) fun _ =>
    .bind (.lift (t.mild_requireSlot key)) fun slot =>
      mild_onColumn col (by nofun) (Column.mild_put slot v)

theorem mild_editList (f : List Value → List Value) :
    Edit.Mild (editList key col f) :=
  .get_bind fun t => .bind (.lift (t.mild_requireSlot key)) fun slot =>
    mild_onColumn col (by nofun) (Column.mild_editList slot f)

theorem mild_listInsert :
    Edit.Mild (listInsert .ample limits key col index v) := by
  rw [listInsert_ample]
  exact .get_bind fun t =>
    .bind (.lift (t.mild_checkElement limits key col v)) fun _ =>
      .bind (.lift (t.mild_listOf key col)) fun _ =>
        .guard nofun (mild_editList key col _)

theorem mild_listSet : Edit.Mild (listSet limits key col index v) :=
  .get_bind fun t =>
    .bind (.lift (t.mild_checkElement limits key col v)) fun _ =>
      .bind (.lift (t.mild_listOf key col)) fun _ =>
        .guard nofun (mild_editList key col _)

theorem mild_listRemove : Edit.Mild (listRemove key col index) :=
  .get_bind fun t => .bind (.lift (t.mild_listOf key col)) fun _ =>
    .guard nofun (mild_editList key col _)

theorem mild_listClear : Edit.Mild (listClear key col) :=
  .get_bind fun t => .bind (.lift (t.mild_listOf key col)) fun _ =>
    mild_editList key col _

end Table

-- ========================================================== instructions

namespace Snapshot

variable (limits : Limits) (table : TableKey) (key : ObjectKey)
  (col : ColumnKey) (v : Value)

theorem mild_requireTable (s : Snapshot) : Mild (s.requireTable table) := by
  unfold requireTable
  split
  · exact .pure _
  · exact .throw nofun

theorem mild_checkLink (s : Snapshot) (t : Table) :
    Mild (s.checkLink t col v) := by
  unfold checkLink
  split
  · refine .bind (t.mild_requireColumn col) fun c => ?_
    split
    · exact .throw nofun
    · exact .guard nofun (.pure ())
  · exact .pure ()

/-- What is done to a table fails mildly if it does on the table alone. -/
theorem mild_onTable {e : Edit Table Unit} (he : Edit.Mild e) :
    Edit.Mild (onTable table e) :=
  .get_bind fun s => .bind (.lift (s.mild_requireTable table)) fun _ =>
    .focus he

theorem mild_addTable (name : String) : Edit.Mild (addTable table name) :=
  .get_bind fun _ => .guard nofun (.guard nofun (.guard nofun (.set _)))

theorem mild_removeTable : Edit.Mild (removeTable table) := by
  refine .get_bind fun s => .bind (.lift (s.mild_requireTable table))
    fun t => ?_
  split
  · exact .throw nofun
  · exact .set _

theorem mild_addColumn (spec : ColumnSpec) :
    Edit.Mild (addColumn .ample table col spec) := by
  have hrest (s : Snapshot) : Edit.Mild (do
      let t ← liftM (s.requireTable table)
      liftM (t.checkNewColumn spec)
      onTable table (Table.insertColumn .ample col spec)) :=
    .bind (.lift (s.mild_requireTable table)) fun t =>
      .bind (.lift (t.mild_checkNewColumn spec)) fun _ =>
        mild_onTable table (Table.mild_insertColumn col spec)
  refine .get_bind fun s => ?_
  split
  · exact .guard nofun (hrest s)
  · exact hrest s

theorem mild_removeObject : Edit.Mild (removeObject table key) :=
  .get_bind fun s => .bind (.lift (s.mild_requireTable table)) fun _ =>
    .guard nofun (.bind (mild_onTable table (Table.mild_removeObject key))
      fun _ => .modify _)

theorem mild_setValue : Edit.Mild (setValue limits table key col v) :=
  .get_bind fun s => .bind (.lift (s.mild_requireTable table)) fun t =>
    .bind (.lift (t.mild_checkSet limits key col v)) fun _ =>
      .bind (.lift (s.mild_checkLink col v t)) fun _ =>
        mild_onTable table (Table.mild_setValue limits key col v)

/-- Writing an element fails mildly if the write does. -/
theorem mild_writeElement {write : Edit Table Unit}
    (hwrite : Edit.Mild write) :
    Edit.Mild (writeElement limits table key col v write) :=
  .get_bind fun s => .bind (.lift (s.mild_requireTable table)) fun t =>
    .bind (.lift (t.mild_checkElement limits key col v)) fun _ =>
      .bind (.lift (s.mild_checkLink col v t)) fun _ =>
        mild_onTable table hwrite

/-- Shrinking a list fails mildly if the shrinking does. -/
theorem mild_shrinkList {shrink : Edit Table Unit}
    (hshrink : Edit.Mild shrink) :
    Edit.Mild (shrinkList table key col shrink) :=
  .get_bind fun s => .bind (.lift (s.mild_requireTable table)) fun t =>
    .bind (.lift (t.mild_listOf key col)) fun _ => mild_onTable table hshrink

/-- No instruction fails for the state of a handle. -/
theorem mild_apply (i : Instruction) : Edit.Mild (apply limits i) := by
  cases i with
  | addTable key name => exact mild_addTable key name
  | removeTable key => exact mild_removeTable key
  | addColumn table col spec => exact mild_addColumn table col spec
  | removeColumn table col =>
      exact .get_bind fun s => .bind (.lift (s.mild_requireTable table))
        fun t => .bind (.lift (t.mild_requireColumn col)) fun _ =>
          mild_onTable table (Table.mild_removeColumn col)
  | createObject table key =>
      exact .get_bind fun s => .bind (.lift (s.mild_requireTable table))
        fun _ => mild_onTable table (Table.mild_insertObject key)
  | removeObject table key => exact mild_removeObject table key
  | set table key col v => exact mild_setValue limits table key col v
  | listInsert table key col index v =>
      exact mild_writeElement limits table key col v
        (Table.mild_listInsert limits key col v _)
  | listSet table key col index v =>
      exact mild_writeElement limits table key col v
        (Table.mild_listSet limits key col v _)
  | listRemove table key col index =>
      exact mild_shrinkList table key col (Table.mild_listRemove key col _)
  | listClear table key col =>
      exact mild_shrinkList table key col (Table.mild_listClear key col)

end Snapshot

end Colonnade
