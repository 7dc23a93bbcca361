/-
A database in memory that has one user is the maps which its snapshot
refines. Between transactions the engine `Holds` maps; a writer `Drafts`
others, which are the same to begin with; and what is read through a handle
is read off the maps that its transaction `Sees`. So whoever reads and
writes through handles can be followed on the maps alone. There is one lemma
for each operation, and it says that the operation succeeds, with which
result, and what it makes of the maps.

There is no log that could refuse a record, and the writer slot is free when
it is asked for. What is left to ask is that an instruction is allowed on
the maps and that the counter it takes a key from has not run out.

Chain: over `Snapshot.Refinement`; `Trial.RowTable` follows a trial this way.
-/
import Colonnade.Proofs.Engine.Handed
import Colonnade.Proofs.Engine.Posts
import Colonnade.Proofs.Snapshot.Refinement
import Colonnade.Proofs.Snapshot.Searched

namespace Colonnade

-- ================================================== what a table shows

/-- A table that reads as the maps have it. -/
structure Table.Shows (t : Table) (d : Logical.Table) : Prop where
  aligned : t.Aligned
  formed : t.Formed
  logical_eq : t.logical = d

namespace Table.Shows

variable {t : Table} {d : Logical.Table} {key : ObjectKey} {col : ColumnKey}

/-- A table has a slot for the rows that its map has. -/
theorem slot?_iff (h : t.Shows d) :
    (∃ slot, t.rows.slot? key = some slot) ↔ ∃ row, d.rows key = some row := by
  rw [← h.logical_eq, rows_logical]
  cases t.rows.slot? key <;> simp

theorem contains_iff (h : t.Shows d) :
    t.contains key = true ↔ ∃ row, d.rows key = some row :=
  Table.contains_iff.trans h.slot?_iff

/-- A table lists the rows of its map in ascending order. -/
theorem objectKeys_eq (h : t.Shows d) {keys : List ObjectKey}
    (hascending : keys.Pairwise (·.raw < ·.raw))
    (hkeys : ∀ key, key ∈ keys ↔ ∃ row, d.rows key = some row) :
    t.objectKeys = keys :=
  h.aligned.rows.sortedKeys_eq hascending fun key =>
    (hkeys key).trans h.slot?_iff.symm

/-- A value is read as the map has it. -/
theorem valueOf_eq (h : t.Shows d) {v : Value}
    (hcell : d.cell? key col = some (.value v)) :
    t.valueOf key col = .ok v :=
  (valueOf_logical h.aligned.slotted h.formed).2 (h.logical_eq ▸ hcell)

/-- A column has the type that the map declares. -/
theorem checkType_eq (h : t.Shows d) {spec : ColumnSpec}
    (hspec : d.spec? col = some spec) : t.checkType col spec.type = .ok () := by
  rw [← h.logical_eq, spec?_logical] at hspec
  obtain ⟨c, hc, rfl⟩ := Option.map_eq_some_iff.1 hspec
  unfold checkType
  rw [requireColumn_eq_ok.2 hc]
  show (if c.spec.type != c.spec.type then _ else _) = _
  rw [bne_self_eq_false]
  rfl

theorem nextObject_eq (h : t.Shows d) : t.nextObject = d.nextObject :=
  congrArg Logical.Table.nextObject h.logical_eq

theorem nextColumnKey_eq (h : t.Shows d) :
    t.nextColumnKey = Logical.Table.columnKey t.key d.nextColumn :=
  congrArg (Logical.Table.columnKey t.key)
    (congrArg Logical.Table.nextColumn h.logical_eq)

end Table.Shows

-- ================================================= what a snapshot shows

/-- Whether the counter that an instruction takes a key from stays above the
key it gives. -/
def Logical.Database.HasRoom (d : Logical.Database) : Instruction → Prop
  | .addTable _ _ => d.nextTable.raw.toNat + 1 < 2 ^ 32
  | .addColumn table _ _ =>
    ∀ t, d.tables table = some t → t.nextColumn.toNat + 1 < 2 ^ 32
  | .createObject table _ =>
    ∀ t, d.tables table = some t → t.nextObject.raw.toInt + 1 < 2 ^ 63
  | _ => True

namespace Snapshot

variable {s : Snapshot} {d : Logical.Database} {i : Instruction}

/-- There are keys left in a snapshot if there are in its map. -/
theorem hasRoom_of_logical (h : s.logical.HasRoom i) : s.HasRoom i := by
  have hthere {k : TableKey} {t : Table} (ht : s.table? k = some t) :
      s.logical.tables k = some t.logical :=
    tables_logical_eq_some.2 ⟨t, ht, rfl⟩
  cases i with
  | addTable => exact h
  | addColumn table =>
      intro t ht
      have hnext : t.logical.nextColumn = t.nextColumn := rfl
      exact hnext ▸ h _ (hthere ht)
  | createObject table =>
      intro t ht
      have hnext : t.logical.nextObject = t.nextObject := rfl
      exact hnext ▸ h _ (hthere ht)
  | _ => exact True.intro

/-- A snapshot that reads as the maps have it. -/
structure Shows (s : Snapshot) (d : Logical.Database) : Prop where
  unwrapped : s.Unwrapped
  logical_eq : s.logical = d

namespace Shows

/-- The version is no part of what a snapshot shows. -/
theorem renumber (h : s.Shows d) (version : Version) :
    Shows { s with version } d :=
  ⟨h.unwrapped.renumber version, h.logical_eq⟩

/-- An instruction that the maps allow can be carried out, and leads to what
they perform. -/
theorem perform (h : s.Shows d) {limits : Limits}
    (hallowed : d.Allowed limits i) (hroom : d.HasRoom i) :
    ∃ s', Edit.Gives (apply limits i) s () s' ∧ s'.Shows (d.perform i) := by
  obtain ⟨hunwrapped, rfl⟩ := h
  have ha := hunwrapped.aligned
  have hf := hunwrapped.formed
  obtain ⟨s', happ⟩ := applied_of_allowed ha hf hallowed
  have hgives := apply_gives_iff.2 happ
  exact ⟨s', hgives,
    hunwrapped.step (hasRoom_of_logical hroom) hgives, happ.logical_eq ha hf⟩

/-- A table of the maps is a table of the snapshot. -/
theorem table (h : s.Shows d) {k : TableKey} {u : Logical.Table}
    (hu : d.tables k = some u) :
    ∃ t, s.table? k = some t ∧ t.key = k ∧ t.Shows u := by
  obtain ⟨hunwrapped, rfl⟩ := h
  obtain ⟨t, ht, hlogical⟩ := tables_logical_eq_some.1 hu
  exact ⟨t, ht, hunwrapped.formed.key_eq k t ht,
    hunwrapped.aligned.table k t ht, hunwrapped.formed.table k t ht, hlogical⟩

/-- A table of the map is found under its name. -/
theorem tableNamed? (h : s.Shows d) {k : TableKey} {u : Logical.Table}
    (hu : d.tables k = some u) :
    ∃ t, s.tableNamed? u.name = some t ∧ t.key = k ∧ t.Shows u := by
  obtain ⟨t, ht, hkey, htable⟩ := h.table hu
  have hname : t.name = u.name :=
    congrArg Logical.Table.name htable.logical_eq
  refine ⟨t, ?_, hkey, htable⟩
  unfold Snapshot.tableNamed?
  rw [(h.unwrapped.aligned.names_iff u.name k).2 ⟨t, ht, hname⟩]
  exact ht

theorem nextTable_eq (h : s.Shows d) : s.nextTable = d.nextTable :=
  congrArg Logical.Database.nextTable h.logical_eq

end Shows

end Snapshot

namespace Engine

variable {e e' : Engine} {limits : Limits} {a : Anchor}
  {base d : Logical.Database} {k : TableKey} {u : Logical.Table}
  {key : ObjectKey} {col : ColumnKey} {i : Instruction} {α : Type} {x : α}

-- ============================================================== readers

/-- What the transaction of a handle is shown, while the handle holds. -/
def Sees (a : Anchor) (d : Logical.Database) (e : Engine) : Prop :=
  ∃ t, e.transaction? a.transaction = some t
    ∧ t.view.admits a.generation = true ∧ t.view.snapshot.Shows d

/-- A lookup by name finds the table that the maps have under it. -/
theorem Sees.requireTable (h : Sees a d e) (hu : d.tables k = some u) :
    e.requireTable a.transaction u.name = .ok ⟨a, k⟩ := by
  obtain ⟨t, ht, hadmits, hshows⟩ := h
  obtain ⟨-, hgeneration⟩ := View.admits_iff.1 hadmits
  obtain ⟨table, hnamed, hkey, -⟩ := hshows.tableNamed? hu
  refine requireTable_eq_ok.2 (table?_eq_some.2 ⟨t, ht, table, hnamed, ?_⟩)
  rw [hgeneration, hkey]

section Reading

variable {P : Engine → Prop} {f : Table → Except Error α}

/-- What is read of a table is what its maps say. -/
theorem yields_readTable (hsees : ∀ e, P e → Sees a d e)
    (hu : d.tables k = some u) (hf : ∀ t : Table, t.Shows u → f t = .ok x) :
    Edit.Yields P (TableHandle.read ⟨a, k⟩ f) x P := by
  intro e he
  obtain ⟨t, ht, hadmits, hshows⟩ := hsees e he
  obtain ⟨table, htable, -, hshown⟩ := hshows.table hu
  refine ⟨e, ?_, he⟩
  have hresolve : TableHandle.resolve ⟨a, k⟩ t.view.snapshot = .ok table := by
    unfold TableHandle.resolve
    rw [htable]
  have hrun : (TableHandle.read ⟨a, k⟩ f).run e = _ :=
    Handle.run_read (h := .table ⟨a, k⟩) ht hadmits hresolve
  unfold Edit.Gives
  rw [hrun, hf table hshown]
  rfl

/-- Reading through a handle of an object yields what its table gives. -/
theorem yields_readObject (hsees : ∀ e, P e → Sees a d e)
    (hu : d.tables k = some u) (hkey : ∃ row, u.rows key = some row)
    (hf : ∀ t : Table, t.Shows u → f t = .ok x) :
    Edit.Yields P (ObjectHandle.read ⟨a, k, key⟩ f) x P := by
  intro e he
  obtain ⟨t, ht, hadmits, hshows⟩ := hsees e he
  obtain ⟨table, htable, -, hshown⟩ := hshows.table hu
  refine ⟨e, ?_, he⟩
  have hresolve : ObjectHandle.resolve ⟨a, k, key⟩ t.view.snapshot
      = .ok table := by
    unfold ObjectHandle.resolve
    rw [htable]
    exact if_pos (hshown.contains_iff.2 hkey)
  have hrun : (ObjectHandle.read ⟨a, k, key⟩ f).run e = _ :=
    Handle.run_read (h := .object ⟨a, k, key⟩) ht hadmits hresolve
  unfold Edit.Gives
  rw [hrun, hf table hshown]
  rfl

/-- A handle to an object that the maps have. -/
theorem yields_object (hsees : ∀ e, P e → Sees a d e)
    (hu : d.tables k = some u) (hkey : ∃ row, u.rows key = some row) :
    Edit.Yields P (TableHandle.object ⟨a, k⟩ key) ⟨a, k, key⟩ P := by
  have hcontains : Edit.Yields P (TableHandle.contains ⟨a, k⟩ key) true P :=
    yields_readTable hsees hu fun t ht =>
      congrArg Except.ok (ht.contains_iff.2 hkey)
  have hobject : Edit.Yields P (TableHandle.object? ⟨a, k⟩ key)
      (some ⟨a, k, key⟩) P := hcontains.bind (.pure P _)
  exact hobject.bind (.pure P _)

/-- A typed getter yields what the map has, if the type is the declared one.
-/
theorem yields_getTyped (hsees : ∀ e, P e → Sees a d e)
    (hu : d.tables k = some u) {spec : ColumnSpec}
    (hspec : u.spec? col = some spec) {v : Value}
    (hcell : u.cell? key col = some (.value v)) :
    Edit.Yields P (ObjectHandle.getTyped ⟨a, k, key⟩ col spec.type) v P := by
  obtain ⟨row, hrow, -⟩ := Option.bind_eq_some_iff.1 hcell
  refine yields_readObject hsees hu ⟨row, hrow⟩ fun t ht => ?_
  rw [ht.checkType_eq hspec]
  exact ht.valueOf_eq hcell

end Reading

-- ============================================================== writers

/-- An engine without a log, in which maps are current. -/
structure Keeps (limits : Limits) (d : Logical.Database) (e : Engine) :
    Prop where
  serial : e.Serial
  log_eq : e.log = none
  limits_eq : e.limits = limits
  current : e.current.Shows d

/-- One in which nobody writes. -/
structure Holds (limits : Limits) (d : Logical.Database) (e : Engine) : Prop
    extends Keeps limits d e where
  writerBusy_eq : e.writerBusy = false

/-- One with a writer who has made other maps of those that are current. -/
structure Drafts (limits : Limits) (a : Anchor) (base d : Logical.Database)
    (e : Engine) : Prop extends Keeps limits base e where
  draft : ∃ t, e.transaction? a.transaction = some t
    ∧ t.role = .writer .active true ∧ t.view.mode = .writing
    ∧ t.view.generation = a.generation ∧ t.view.snapshot.Shows d

/-- One with a writer who has ended and was not dropped yet. -/
structure Concludes (limits : Limits) (id : TransactionId)
    (d : Logical.Database) (e : Engine) : Prop extends Holds limits d e where
  ended : ∃ t, e.transaction? id = some t ∧ ¬ t.IsWriting

/-- A writer sees what it has drafted. -/
theorem Drafts.sees (h : Drafts limits a base d e) : Sees a d e := by
  obtain ⟨t, ht, -, hmode, hgeneration, hshows⟩ := h.draft
  refine ⟨t, ht, View.admits_iff.2 ⟨?_, hgeneration⟩, hshows⟩
  rw [hmode]
  exact nofun

/-- What is allowed on the maps of a draft can be recorded in its view. -/
theorem Drafts.record (h : Drafts limits a base d e)
    (hallowed : d.Allowed limits i) (hroom : d.HasRoom i)
    {build : Snapshot → Except Error Instruction}
    (hbuild : ∀ s : Snapshot, s.Shows d → build s = .ok i) :
    ∃ t v, e.transaction? a.transaction = some t ∧ t.view.mode = .writing
      ∧ t.view.generation = a.generation
      ∧ (View.record .ample e.limits build).run t.view = .ok i v
      ∧ Drafts limits a base (d.perform i)
        (e.withTransaction a.transaction { t with view := v }) := by
  obtain ⟨t, ht, hrole, hmode, hgeneration, hshows⟩ := h.draft
  obtain ⟨s, hgives, hs⟩ := hshows.perform hallowed hroom
  let v : View :=
    { t.view with snapshot := s, changes := t.view.changes.push i }
  have hrecord : Edit.Gives (View.record .ample e.limits build) t.view i v :=
    View.record_gives (hbuild _ hshows) (h.limits_eq ▸ hgives)
  have hwrote := View.gives_record hmode hrecord
  refine ⟨t, v, ht, hmode, hgeneration, hrecord, ?_⟩
  exact ⟨⟨lasting_serial _ _ h.serial (.wrote ht hwrote), h.log_eq,
      h.limits_eq, h.current⟩,
    { t with view := v }, transaction?_self e _ _, hrole, hmode, hgeneration,
    hs⟩

section Writing

variable {build : Snapshot → Except Error Instruction}

/-- A write through a handle does to the maps what its instruction does. -/
theorem yields_write (hallowed : d.Allowed limits i) (hroom : d.HasRoom i)
    (hbuild : ∀ s : Snapshot, s.Shows d → build s = .ok i) (stale : Error) :
    Edit.Yields (Drafts limits a base d) (a.write stale build) i
      (Drafts limits a base (d.perform i)) := by
  intro e he
  obtain ⟨t, v, ht, hmode, hgeneration, hrecord, hdrafts⟩ :=
    he.record hallowed hroom hbuild
  have hadmits : t.view.admits a.generation = true := by
    refine View.admits_iff.2 ⟨?_, hgeneration⟩
    rw [hmode]
    exact nofun
  exact ⟨_, Anchor.gives_write ht hadmits hmode hrecord, hdrafts⟩

/-- So does one that goes by the transaction. -/
theorem yields_writeView (hallowed : d.Allowed limits i)
    (hroom : d.HasRoom i)
    (hbuild : ∀ s : Snapshot, s.Shows d → build s = .ok i) :
    Edit.Yields (Drafts limits a base d) (writeView a.transaction build) i
      (Drafts limits a base (d.perform i)) := by
  intro e he
  obtain ⟨t, v, ht, hmode, -, hrecord, hdrafts⟩ :=
    he.record hallowed hroom hbuild
  refine ⟨_, ?_, hdrafts⟩
  unfold Edit.Gives
  rw [run_writeView ht hmode, hrecord]

end Writing

/-- Adding a table drafts the map with it. -/
theorem yields_addTable {name : String}
    (hallowed : d.Allowed limits (.addTable d.nextTable name))
    (hroom : d.HasRoom (.addTable d.nextTable name)) :
    Edit.Yields (Drafts limits a base d) (addTable a.transaction name)
      ⟨a, d.nextTable⟩
      (Drafts limits a base (d.perform (.addTable d.nextTable name))) := by
  have hbuild (s : Snapshot) (hs : s.Shows d) :
      (return .addTable s.nextTable name : Except Error Instruction)
        = .ok (.addTable d.nextTable name) :=
    congrArg (fun k => Except.ok (Instruction.addTable k name))
      hs.nextTable_eq
  intro e he
  obtain ⟨t, ht, hrole, -⟩ := he.draft
  have hactive : e.requireActive a.transaction = .ok t :=
    requireActive_eq_ok.2 ⟨ht, true, hrole⟩
  obtain ⟨made, hgives, hmade⟩ :=
    yields_writeView hallowed hroom hbuild e he
  obtain ⟨t', ht', -, -, hgeneration, -⟩ := hmade.draft
  have hanchor : made.anchor a.transaction = .ok a :=
    anchor_eq_ok.2 ⟨t', ht', by rw [hgeneration]⟩
  refine ⟨made, ?_, hmade⟩
  refine Edit.gives_bind.2 ⟨e, e, rfl, ?_⟩
  refine Edit.gives_bind.2 ⟨t, e, Edit.gives_lift.2 ⟨hactive, rfl⟩, ?_⟩
  refine Edit.gives_bind.2 ⟨_, made, hgives, ?_⟩
  refine Edit.gives_bind.2 ⟨made, made, rfl, ?_⟩
  exact Edit.gives_bind.2 ⟨a, made, Edit.gives_lift.2 ⟨hanchor, rfl⟩, rfl⟩

-- ============================================= writing through handles

section Handles

/-- A write to a table of the maps. -/
theorem yields_writeTable (hu : d.tables k = some u)
    (hallowed : d.Allowed limits i) (hroom : d.HasRoom i)
    {build : Table → Except Error Instruction}
    (hbuild : ∀ t : Table, t.key = k → t.Shows u → build t = .ok i) :
    Edit.Yields (Drafts limits a base d) (TableHandle.write ⟨a, k⟩ build) i
      (Drafts limits a base (d.perform i)) := by
  refine yields_write hallowed hroom (fun s hs => ?_) _
  obtain ⟨t, ht, hkey, hshown⟩ := hs.table hu
  have hresolve : TableHandle.resolve ⟨a, k⟩ s = .ok t := by
    unfold TableHandle.resolve
    rw [ht]
  rw [hresolve]
  exact hbuild t hkey hshown

/-- Adding a column drafts the map with it. -/
theorem yields_addColumn (hu : d.tables k = some u) {spec : ColumnSpec}
    (hallowed : d.Allowed limits
      (.addColumn k (Logical.Table.columnKey k u.nextColumn) spec))
    (hroom : d.HasRoom
      (.addColumn k (Logical.Table.columnKey k u.nextColumn) spec)) :
    Edit.Yields (Drafts limits a base d) (TableHandle.addColumn ⟨a, k⟩ spec)
      (Logical.Table.columnKey k u.nextColumn)
      (Drafts limits a base (d.perform
        (.addColumn k (Logical.Table.columnKey k u.nextColumn) spec))) := by
  refine (yields_writeTable hu hallowed hroom fun t hkey ht => ?_).bind
    (.pure _ _)
  rw [ht.nextColumnKey_eq, hkey]
  rfl

/-- Creating an object drafts the map with it. -/
theorem yields_createObject (hu : d.tables k = some u)
    (hroom : d.HasRoom (.createObject k u.nextObject)) :
    Edit.Yields (Drafts limits a base d) (TableHandle.createObject ⟨a, k⟩)
      ⟨a, k, u.nextObject⟩
      (Drafts limits a base (d.perform (.createObject k u.nextObject))) := by
  have hallowed : d.Allowed limits (.createObject k u.nextObject) :=
    ⟨u, hu, rfl⟩
  refine (yields_writeTable hu hallowed hroom fun t _ ht => ?_).bind
    (.pure _ _)
  rw [ht.nextObject_eq]
  rfl

/-- Removing an object drafts the map without it. -/
theorem yields_removeObject (hu : d.tables k = some u)
    (hkey : ∃ row, u.rows key = some row) :
    Edit.Yields (Drafts limits a base d)
      (TableHandle.removeObject ⟨a, k⟩ key) ()
      (Drafts limits a base (d.perform (.removeObject k key))) := by
  obtain ⟨row, hrow⟩ := hkey
  have hallowed : d.Allowed limits (.removeObject k key) :=
    ⟨u, row, hu, hrow⟩
  exact (yields_writeTable hu hallowed True.intro fun _ _ _ => rfl).bind
    (.pure _ ())

/-- Setting a value drafts the map with it. -/
theorem yields_set (hu : d.tables k = some u) {v : Value}
    (hallowed : d.Allowed limits (.set k key col v)) :
    Edit.Yields (Drafts limits a base d) (ObjectHandle.set ⟨a, k, key⟩ col v)
      () (Drafts limits a base (d.perform (.set k key col v))) := by
  refine (yields_write hallowed True.intro (fun s hs => ?_) _).bind
    (.pure _ ())
  obtain ⟨t, ht, -, hshown⟩ := hs.table hu
  obtain ⟨u', spec, hcell, -⟩ := hallowed
  obtain rfl : u' = u := Option.some.inj (hcell.table_eq.symm.trans hu)
  have hresolve : ObjectHandle.resolve ⟨a, k, key⟩ s = .ok t := by
    unfold ObjectHandle.resolve
    rw [ht]
    exact if_pos (hshown.contains_iff.2 hcell.row)
  rw [hresolve]
  rfl

end Handles

-- ========================================================= transactions

/-- What a draft has made is the next version once it is committed, and
nobody else notices. -/
theorem Drafts.commits (h : Drafts limits a base d e) :
    ∃ e', Edit.Gives (commit a.transaction) e e.version.next e'
      ∧ Concludes limits a.transaction d e' ∧ e'.version = e.version.next
      ∧ ∀ b, b ≠ a.transaction → e'.transaction? b = e.transaction? b := by
  obtain ⟨t, ht, hrole, -, -, hshows⟩ := h.draft
  have hlog : appendTo (e.recordOf t) e.log = (.ok 0, none) := by
    rw [h.log_eq]
    rfl
  obtain ⟨e', hrun, hsame⟩ := run_commit_ok ht hrole hlog
  have hdone : (Call.commit a.transaction).run.run e = _ :=
    run_done (commit a.transaction) e
  rw [hrun] at hdone
  refine ⟨e', hrun, ⟨⟨⟨?_, hsame.log_eq, ?_, ?_⟩, hsame.writerBusy_eq⟩,
    e.shown t, ?_, idle_shown e t⟩, congrArg Snapshot.version
      hsame.current_eq, others_of_same hsame.transaction?_eq⟩
  · exact step_of_ok hdone ▸ (h.serial.step (.call _)).serial h.serial
  · exact hsame.limits_eq.trans h.limits_eq
  · rw [hsame.current_eq]
    exact hshows.renumber e.version.next
  · exact (hsame.transaction?_eq _).trans (transaction?_self e _ _)

/-- A commit concludes with what was drafted. -/
theorem yields_commit :
    Edit.Yields (Drafts limits a base d) (do let _ ← commit a.transaction)
      () (Concludes limits a.transaction d) := by
  intro e he
  obtain ⟨e', hgives, he', -⟩ := he.commits
  exact ⟨e', Edit.gives_bind.2 ⟨_, e', hgives, rfl⟩, he'⟩

/-- Rolling back concludes with what was there before. -/
theorem yields_rollback :
    Edit.Yields (Drafts limits a base d) (rollback a.transaction) ()
      (Concludes limits a.transaction base) := by
  intro e he
  obtain ⟨t, ht, hrole, -⟩ := he.draft
  obtain ⟨e', hrun, hsame⟩ := run_rollback ht hrole
  have hdone : (Call.rollback a.transaction).run.run e = .ok () e' := hrun
  refine ⟨e', hrun, ⟨⟨?_, ?_, ?_, ?_⟩, hsame.writerBusy_eq⟩,
    t.rolledBack, ?_, nofun⟩
  · exact step_of_ok hdone ▸ (he.serial.step (.call _)).serial he.serial
  · exact hsame.log_eq.trans he.log_eq
  · exact hsame.limits_eq.trans he.limits_eq
  · rw [hsame.current_eq]
    exact he.current
  · exact (hsame.transaction?_eq _).trans (transaction?_self e _ _)

/-- Whoever does not write can be dropped. -/
theorem Keeps.dropped (h : Keeps limits d e) {id : TransactionId}
    {t : Transaction} (ht : e.transaction? id = some t)
    (hidle : ¬ t.IsWriting) : Keeps limits d (e.dropped id t) :=
  ⟨(aside_dropped ht hidle).serial h.serial, h.log_eq, h.limits_eq,
    h.current⟩

/-- Behind the end of its writer an engine holds what that one concluded with.
-/
theorem yields_drop {id : TransactionId} :
    Edit.Yields (Concludes limits id d) (drop id) () (Holds limits d) := by
  intro e he
  obtain ⟨t, ht, hidle⟩ := he.ended
  exact ⟨e.dropped id t, run_drop_idle ht hidle,
    he.toKeeps.dropped ht hidle, he.writerBusy_eq⟩

-- ============================================================= closures

/-- A closure that has ended its transaction itself. -/
theorem yields_settle_concluded {id : TransactionId} :
    Edit.Yields (Concludes limits id d) (settleWrite id (.ok x)) x
      (Holds limits d) := by
  intro e he
  obtain ⟨t, ht, hidle⟩ := he.ended
  obtain ⟨e', hdrop, he'⟩ := yields_drop e he
  refine ⟨e', ?_, he'⟩
  unfold Edit.Gives
  rw [run_settleWrite_ended (.ok x) ht hidle hdrop]
  rfl

/-- One that leaves it open has its draft committed, and nobody else
notices. -/
theorem Drafts.settles (h : Drafts limits a base d e) (x : α) :
    ∃ e', Edit.Gives (settleWrite a.transaction (.ok x)) e x e'
      ∧ Holds limits d e' ∧ e'.version = e.version.next
      ∧ ∀ b, e'.transaction? b
        = if b = a.transaction then none else e.transaction? b := by
  obtain ⟨t, ht, hrole, -⟩ := h.draft
  obtain ⟨made, hcommit, hmade, hversion, hothers⟩ := h.commits
  obtain ⟨u, hu, hidle⟩ := hmade.ended
  have hdone : (Call.commit a.transaction).run.run e = _ :=
    run_done (commit a.transaction) e
  rw [show (commit a.transaction).run e = _ from hcommit] at hdone
  have hstep : (closing a.transaction (Except.ok x)).step e = made :=
    step_of_ok hdone
  have hdrop : (drop a.transaction).run
      ((closing a.transaction (Except.ok x)).step e) = _ :=
    (congrArg (drop a.transaction).run hstep).trans (run_drop_idle hu hidle)
  refine ⟨made.dropped a.transaction u, ?_,
    ⟨hmade.toKeeps.dropped hu hidle, hmade.writerBusy_eq⟩, hversion,
    fun b => ?_⟩
  · unfold Edit.Gives
    rw [run_settleWrite_active (.ok x) ht ⟨true, hrole⟩ hdrop,
      show (closing a.transaction (Except.ok x)).outcome e = .ok () from
        Call.outcome_of_ok hdone]
    rfl
  · rw [transaction?_dropped]
    split
    next => rfl
    next hb => exact hothers b hb

/-- A draft whose closure succeeds is committed and held. -/
theorem yields_settle_draft :
    Edit.Yields (Drafts limits a base d) (settleWrite a.transaction (.ok x))
      x (Holds limits d) := by
  intro e he
  obtain ⟨e', hgives, he', -⟩ := he.settles x
  exact ⟨e', hgives, he'⟩

/-- A writer begins with a draft of what is current. -/
theorem Holds.begun (h : Holds limits base e) :
    Drafts limits ⟨e.nextId, 0⟩ base base e.begun :=
  ⟨⟨h.serial.begun h.writerBusy_eq, h.log_eq, h.limits_eq, h.current⟩, _,
    transaction?_self _ e.nextId _, rfl, rfl, rfl, h.current⟩

/-- A closure starts on such a draft, in a transaction of its own. -/
theorem yields_writeClosure {f : TransactionId → Edit Engine α}
    {Q : TransactionId → Engine → Prop}
    (hf : ∀ id, Edit.Yields (Drafts limits ⟨id, 0⟩ base base) (f id) x (Q id))
    (hsettle : ∀ id, Edit.Yields (Q id) (settleWrite id (.ok x)) x
      (Holds limits d)) :
    Edit.Yields (Holds limits base) (write f) x (Holds limits d) := by
  intro e he
  obtain ⟨e', hgives, he'⟩ := hf e.nextId e.begun he.begun
  obtain ⟨e'', hsettled, he''⟩ := hsettle e.nextId e' he'
  refine ⟨e'', ?_, he''⟩
  unfold Edit.Gives
  rw [run_write_free he.writerBusy_eq (Edit.gives_attempt_ok.2 hgives)]
  exact hsettled

/-- A closure that reads finds what is current, and leaves it. -/
theorem yields_readClosure {f : TransactionId → Edit Engine α}
    (hf : ∀ (a : Anchor) (P : Engine → Prop), (∀ e, P e → Sees a d e) →
      Edit.Yields P (f a.transaction) x P) :
    Edit.Yields (Holds limits d) (read f) x (Holds limits d) := by
  intro e he
  let opened : Engine := { e.opened .reading .reader with
    stats := { e.stats with
      readTransactions := e.stats.readTransactions + 1 } }
  let t : Transaction :=
    ⟨{ mode := .reading, snapshot := e.current }, e.version, .reader⟩
  have hbegin : beginRead.run e = .ok e.nextId opened := run_beginRead e
  have ht : opened.transaction? e.nextId = some t :=
    transaction?_self _ e.nextId _
  have hidle : ¬ t.IsWriting := nofun
  have hsees : Sees ⟨e.nextId, 0⟩ d opened := ⟨t, ht, rfl, he.current⟩
  have hkeeps : Keeps limits d opened :=
    ⟨(aside_opened he.serial.fresh _).serial he.serial, he.log_eq,
      he.limits_eq, he.current⟩
  obtain ⟨_, hgives, rfl⟩ := hf ⟨e.nextId, 0⟩ (· = opened)
    (fun e' he' => he' ▸ hsees) opened rfl
  refine ⟨_, ?_, hkeeps.dropped ht hidle, he.writerBusy_eq⟩
  refine Edit.gives_bind.2 ⟨e.nextId, opened, hbegin, ?_⟩
  refine Edit.gives_bind.2 ⟨.ok x, opened, Edit.gives_attempt_ok.2 hgives, ?_⟩
  exact Edit.gives_bind.2 ⟨(), _, run_drop_idle ht hidle, rfl⟩

end Engine

end Colonnade
