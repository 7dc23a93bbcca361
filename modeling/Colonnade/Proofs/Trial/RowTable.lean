/-
The trial of the engine against the plain model comes out even, whatever the
batches are. The two sides go through the same maps: a change is a step of a
draft, a batch that commits makes the draft current, and one that is rolled
back leaves the maps, and with them the key that the next row gets. Selectors
name the same rows on both sides, since the keys of the table, sorted, are
the keys of the model.

What is asked of the batches is that their texts are within the limits, and
that they create fewer rows than there are keys, as all do that fit in
memory.

Chain: over `Engine.Maps` and `Trial.RowModel`.
-/
import Colonnade.Proofs.Engine.Maps
import Colonnade.Proofs.Trial.RowModel

namespace Colonnade.Trial.RowTable

open Engine Logical

variable {limits : Limits} {a : Anchor} {base : Database} {c : RowTable}
  {m : RowModel} {key : ObjectKey} {row : Row} {col : ColumnKey}
  {selector : Nat}

-- ============================================== one change on both sides

/-- The keys that are read are the keys of the model. -/
theorem yields_objectKeys {P : Engine → Prop} (hm : m.Sound)
    (hsees : ∀ e, P e → Sees a (c.database m) e) :
    Edit.Yields P (TableHandle.objectKeys ⟨a, tableKey⟩) m.keys P :=
  yields_readTable hsees (tables_database c m) fun _ ht =>
    congrArg Except.ok (ht.objectKeys_eq
      (List.pairwise_map.2 hm.ascending) fun _ => rows_table.symm)

theorem requireTable_of_sees {e : Engine} (h : Sees a (c.database m) e) :
    e.requireTable a.transaction tableName = .ok ⟨a, tableKey⟩ :=
  h.requireTable (tables_database c m)

/-- What is done to the object that a selector names is done to the object
that it names in the model. -/
theorem yields_onSelected (hm : m.Sound) {f : ObjectKey → Edit Engine Unit}
    {d : Database} (hnone : m.selectKey? selector = none → d = c.database m)
    (hf : ∀ key, m.selectKey? selector = some key →
      Edit.Yields (Drafts limits a base (c.database m)) (f key) ()
        (Drafts limits a base d)) :
    Edit.Yields (Drafts limits a base (c.database m))
      (onSelected ⟨a, tableKey⟩ selector f) () (Drafts limits a base d) := by
  refine (yields_objectKeys hm fun _ => Drafts.sees).bind ?_
  rw [← RowModel.selectKey?_eq]
  cases hkey : m.selectKey? selector with
  | none =>
      rw [hnone hkey]
      exact .pure _ ()
  | some key => exact hf key hkey

/-- A cell of the row that a selector names is written on both sides. -/
theorem yields_setSelected (hm : m.Sound) {f : Row → Row} {v : Value}
    {spec : ColumnSpec} (hspec : (c.table m).spec? col = some spec)
    (hlist : spec.isList = false) (hv : spec.Accepts limits v)
    (hlink : ∀ k, v ≠ .link k)
    (hcells : ∀ r, update (c.cells r) col (some (.value v)) = c.cells (f r)) :
    Edit.Yields (Drafts limits a base (c.database m))
      (onSelected ⟨a, tableKey⟩ selector fun key => do
        (← TableHandle.object ⟨a, tableKey⟩ key).set col v) ()
      (Drafts limits a base (c.database (m.edit selector f))) := by
  refine yields_onSelected hm (fun hnone => ?_) fun key hkey => ?_
  · unfold RowModel.edit
    rw [hnone]
  · have hallowed := allowed_set hspec hlist hv hlink hkey
    have hset : Edit.Yields (Drafts limits a base (c.database m)) _ () _ :=
      yields_set (tables_database c m) hallowed
    rw [perform_set hcells hkey] at hset
    exact (yields_object (fun _ => Drafts.sees) (tables_database c m)
      (rows_table.2 (RowModel.mem_keys_of_selectKey? hkey))).bind hset

/-- A change that is made in a draft of a model makes a draft of the changed
model. -/
theorem yields_apply (hc : c.number ≠ c.text) (hm : m.Sound)
    {change : RowChange}
    (hroom : change = .create → m.nextKey.raw.toInt + 1 < 2 ^ 63)
    (hwithin : change.Within limits) :
    Edit.Yields (Drafts limits a base (c.database m))
      (c.apply a.transaction change) ()
      (Drafts limits a base (c.database (m.apply change))) := by
  refine .asks (fun e he => requireTable_of_sees he.sees) ?_
  cases change with
  | create =>
      have hroom : (c.database m).HasRoom
          (.createObject tableKey (c.table m).nextObject) := by
        intro t ht
        obtain rfl := Option.some.inj ht
        exact hroom rfl
      have hcreate : Edit.Yields (Drafts limits a base (c.database m))
          (TableHandle.createObject ⟨a, tableKey⟩) _ _ :=
        yields_createObject (tables_database c m) hroom
      rw [show (c.table m).nextObject = m.nextKey from rfl,
        perform_create hm] at hcreate
      exact hcreate.bind (.pure _ ())
  | remove selector =>
      refine yields_onSelected hm (fun hnone => ?_) fun key hkey => ?_
      · unfold RowModel.apply
        dsimp only
        rw [hnone]
      · have hremove : Edit.Yields (Drafts limits a base (c.database m))
            (TableHandle.removeObject ⟨a, tableKey⟩ key) () _ :=
          yields_removeObject (tables_database c m)
            (rows_table.2 (RowModel.mem_keys_of_selectKey? hkey))
        rwa [perform_remove hkey] at hremove
  | setNumber selector number =>
      exact yields_setSelected hm
        ((spec?_table c m _).trans (if_pos rfl)) rfl ⟨rfl, trivial⟩ nofun
        fun r => update_number c r number
  | setText selector text =>
      have hspec : (c.table m).spec? c.text = some textSpec := by
        rw [spec?_table, if_neg hc.symm, if_pos rfl]
      exact yields_setSelected hm hspec rfl (accepts_text hwithin)
        (by cases text <;> exact nofun) fun r => update_text hc r text

-- ======================================================= whole batches

theorem yields_changes (hc : c.number ≠ c.text) {changes : List RowChange}
    (h : m.Takes limits changes) :
    Edit.Yields (Drafts limits a base (c.database m))
      (changes.forM (c.apply a.transaction)) ()
      (Drafts limits a base
        (c.database (changes.foldl RowModel.apply m))) := by
  induction changes generalizing m with
  | nil => exact .pure _ ()
  | cons change changes ih =>
      exact (yields_apply hc h.sound h.room_first
        (h.within change List.mem_cons_self)).bind (ih h.rest)

/-- A batch makes of the engine what it makes of the model, whether it
commits or is taken back. -/
theorem yields_applyBatch (hc : c.number ≠ c.text) {b : Batch}
    (h : m.Takes limits b.changes) :
    Edit.Yields (Holds limits (c.database m)) (c.applyBatch b) ()
      (Holds limits (c.database (m.applyBatch b))) := by
  refine yields_writeClosure
    (Q := fun id => Concludes limits id (c.database (m.applyBatch b)))
    (fun id => (yields_changes (a := ⟨id, 0⟩) hc h).bind ?_)
    fun _ => yields_settle_concluded
  unfold RowModel.applyBatch
  split
  · exact yields_commit
  · exact yields_rollback

-- ============================================================== reading

theorem yields_readRow {P : Engine → Prop} (hc : c.number ≠ c.text)
    (hsees : ∀ e, P e → Sees a (c.database m) e)
    (hrow : m.rows.lookup key = some row) :
    Edit.Yields P (c.readRow ⟨a, tableKey⟩ key) (key, row) P := by
  have hrows : (c.table m).rows key = some (c.cells row) := by
    show (m.rows.lookup key).map c.cells = _
    rw [hrow]
    rfl
  have hcell (col : ColumnKey) :
      (c.table m).cell? key col = c.cells row col := by
    unfold Logical.Table.cell?
    rw [hrows]
    rfl
  have hnumber : Edit.Yields P (ObjectHandle.getTyped ⟨a, tableKey, key⟩
      c.number numberSpec.type) (.int row.number) P :=
    yields_getTyped hsees (tables_database c m)
      ((spec?_table c m _).trans (if_pos rfl)) ((hcell _).trans (if_pos rfl))
  have hspec : (c.table m).spec? c.text = some textSpec := by
    rw [spec?_table, if_neg hc.symm, if_pos rfl]
  have htextCell : (c.table m).cell? key c.text
      = some (.value (textValue row.text)) := by
    rw [hcell]
    unfold cells
    rw [if_neg hc.symm, if_pos rfl]
  have htext : Edit.Yields P (ObjectHandle.getTyped ⟨a, tableKey, key⟩
      c.text textSpec.type) (textValue row.text) P :=
    yields_getTyped hsees (tables_database c m) hspec htextCell
  have hresult : ((key, ⟨(Value.int row.number).int?.getD 0,
      (textValue row.text).string?⟩) : ObjectKey × Row) = (key, row) := by
    cases row with
    | mk number text => cases text <;> rfl
  refine (yields_object hsees (tables_database c m) ⟨_, hrows⟩).bind
    (hnumber.bind (htext.bind ?_))
  rw [← hresult]
  exact .pure P _

/-- What is read between transactions are the rows of the model. -/
theorem yields_read (hc : c.number ≠ c.text) (hm : m.Sound) :
    Edit.Yields (Holds limits (c.database m)) (Engine.read c.read) m.rows
      (Holds limits (c.database m)) := by
  refine yields_readClosure fun a P hsees => ?_
  refine .asks (fun e he => requireTable_of_sees (hsees e he)) ?_
  refine (yields_objectKeys hm hsees).bind ?_
  have hrows : Edit.Yields P
      (m.rows.mapM fun p => c.readRow ⟨a, tableKey⟩ p.1) (m.rows.map id) P :=
    .mapM fun p hp =>
      yields_readRow hc hsees (RowModel.lookup_of_mem hm.ascending hp)
  rw [List.map_id] at hrows
  unfold RowModel.keys
  rw [List.mapM_map]
  exact hrows

-- ============================================================ the trial

/-- The table as it is made: its columns are the first two. -/
def made : RowTable := ⟨Table.columnKey tableKey 1, Table.columnKey tableKey 2⟩

theorem made_ne : made.number ≠ made.text := by decide

/-- The maps of a database to which nothing was done. -/
def blank : Database := ⟨fun _ => none, ⟨0⟩⟩

/-- The table before it has columns. -/
def bare : Logical.Table := { name := tableName }

/-- A column that links nowhere can be added under a name of its own. -/
theorem yields_addColumn_only {t : Logical.Table} {spec : ColumnSpec}
    (hvalid : spec.check = .ok ()) (htarget : spec.target = none)
    (hnew : ∀ c ∈ t.columns, c.2.name ≠ spec.name)
    (hroom : t.nextColumn.toNat + 1 < 2 ^ 32) :
    Edit.Yields (Drafts limits a base (only t))
      (TableHandle.addColumn ⟨a, tableKey⟩ spec)
      (Table.columnKey tableKey t.nextColumn)
      (Drafts limits a base
        (only (t.addColumn (Table.columnKey tableKey t.nextColumn) spec))) := by
  have hallowed : (only t).Allowed limits
      (.addColumn tableKey (Table.columnKey tableKey t.nextColumn) spec) := by
    refine ⟨t, rfl, rfl, ColumnSpec.check_eq_ok.1 hvalid, hnew, ?_⟩
    rw [htarget]
    exact nofun
  have hfits : (only t).HasRoom
      (.addColumn tableKey (Table.columnKey tableKey t.nextColumn) spec) := by
    intro u hu
    obtain rfl := Option.some.inj hu
    exact hroom
  have hperform : (only t).perform
      (.addColumn tableKey (Table.columnKey tableKey t.nextColumn) spec)
        = only (t.addColumn _ spec) := onTable_only t _
  rw [← hperform]
  exact yields_addColumn rfl hallowed hfits

/-- The table is made, and has no rows. -/
theorem yields_create :
    Edit.Yields (Holds limits blank) create made
      (Holds limits (made.database {})) := by
  have hallowed : blank.Allowed limits (.addTable tableKey tableName) :=
    ⟨rfl, by decide, nofun⟩
  have hroom : blank.HasRoom (.addTable tableKey tableName) := by
    show (0 : UInt32).toNat + 1 < 2 ^ 32
    decide
  refine yields_writeClosure
    (Q := fun id => Drafts limits ⟨id, 0⟩ blank (made.database {}))
    (fun id => ?_) fun _ => yields_settle_draft
  refine (yields_addTable (a := ⟨id, 0⟩) hallowed hroom).bind ?_
  have hnumber : Edit.Yields (Drafts limits ⟨id, 0⟩ blank (only bare))
      (TableHandle.addColumn ⟨⟨id, 0⟩, tableKey⟩ numberSpec) _ _ :=
    yields_addColumn_only rfl rfl nofun (by decide)
  have htext : Edit.Yields (Drafts limits ⟨id, 0⟩ blank
        (only (bare.addColumn made.number numberSpec)))
      (TableHandle.addColumn ⟨⟨id, 0⟩, tableKey⟩ textSpec) _ _ :=
    yields_addColumn_only rfl rfl (by decide) (by decide)
  exact hnumber.bind (htext.bind (.pure _ made))

theorem holds_inMemory (config : Config) :
    Holds config.limits blank (Engine.inMemory config) := by
  refine ⟨⟨serial_starting _ _ _, rfl, rfl, .empty, ?_⟩, rfl⟩
  refine Database.ext (funext fun k => ?_) rfl
  exact congrArg (Option.map Table.logical) (Snapshot.table?_empty k)

/-- A trial goes on to find the rows of the model after each batch. -/
theorem compare_agrees (hc : c.number ≠ c.text) {batches : List Batch}
    (h : m.Takes limits (batches.flatMap (·.changes))) {e : Engine}
    (he : Holds limits (c.database m) e) :
    ∃ results e', Edit.Gives (c.compare m batches) e results e'
      ∧ results.map (·.found)
        = (batches.scanl RowModel.applyBatch m).tail.map (·.rows)
      ∧ ∀ r ∈ results, r.agrees = true := by
  induction batches generalizing m e with
  | nil => exact ⟨[], e, rfl, rfl, nofun⟩
  | cons b batches ih =>
      have h : m.Takes limits
        (b.changes ++ batches.flatMap (·.changes)) := h
      obtain ⟨e₁, hbatch, he₁⟩ := yields_applyBatch hc h.first e he
      obtain ⟨e₂, hread, he₂⟩ := yields_read hc h.afterBatch.sound e₁ he₁
      obtain ⟨results, e', hrest, hfound, hagrees⟩ := ih h.afterBatch he₂
      let m' := m.applyBatch b
      refine ⟨⟨e₂.version, m'.rows, m'.rows == m'.rows⟩ :: results, e', ?_,
        ?_, List.forall_mem_cons.2 ⟨beq_self_eq_true _, hagrees⟩⟩
      · refine Edit.gives_bind.2 ⟨(), e₁, hbatch, ?_⟩
        refine Edit.gives_bind.2 ⟨m'.rows, e₂, hread, ?_⟩
        refine Edit.gives_bind.2 ⟨e₂, e₂, rfl, ?_⟩
        exact Edit.gives_bind.2 ⟨results, e', hrest, rfl⟩
      · rw [List.map_cons, hfound, List.scanl_cons]
        cases batches with
        | nil => rfl
        | cons b' batches =>
            rw [List.scanl_cons]
            rfl

/-- Batches that were made leave the rows that the model then has. -/
theorem yields_batches (hc : c.number ≠ c.text) {batches : List Batch}
    (h : m.Takes limits (batches.flatMap (·.changes))) :
    Edit.Yields (Holds limits (c.database m)) (batches.forM c.applyBatch) ()
      (Holds limits (c.database (batches.foldl RowModel.applyBatch m))) := by
  induction batches generalizing m with
  | nil => exact .pure _ ()
  | cons b batches ih =>
      have h : m.Takes limits
        (b.changes ++ batches.flatMap (·.changes)) := h
      exact (yields_applyBatch hc h.first).bind (ih h.afterBatch)

/-- The engine agrees with the model. Whatever batches are made on a new
table in memory, every call succeeds, and a read after any of them finds the
rows of the model to which the same batches were applied, under the same
keys. This goes for reads that come between the batches as well, and so every
trial comes out even. -/
theorem trial_agrees (batches : List Batch)
    (hcreated : (batches.flatMap (·.changes)).count .create < 2 ^ 63)
    (hwithin : ∀ b ∈ batches, ∀ change ∈ b.changes,
      change.Within ({} : Config).limits) :
    (∃ c e, create.run (Engine.inMemory {}) = .ok c e
      ∧ ∀ before after, batches = before ++ after → ∃ e₁ e₂,
        (before.forM c.applyBatch).run e = .ok () e₁
          ∧ (Engine.read c.read).run e₁
            = .ok (before.foldl RowModel.applyBatch {}).rows e₂)
      ∧ ∃ results e, (trial batches).run (Engine.inMemory {}) = .ok results e
        ∧ results.map (·.found)
          = (batches.scanl RowModel.applyBatch {}).tail.map (·.rows)
        ∧ ∀ r ∈ results, r.agrees = true := by
  have htakes : RowModel.Takes ({} : Config).limits {}
      (batches.flatMap (·.changes)) := by
    refine ⟨.empty, ?_, fun change hchange => ?_⟩
    · show (0 : Int64).toInt + _ < 2 ^ 63
      rw [Int64.toInt_zero]
      omega
    · obtain ⟨b, hb, hchange⟩ := List.mem_flatMap.1 hchange
      exact hwithin b hb change hchange
  obtain ⟨e, hcreate, he⟩ := yields_create _ (holds_inMemory {})
  refine ⟨⟨made, e, hcreate, fun before after hsplit => ?_⟩, ?_⟩
  · rw [hsplit, List.flatMap_append] at htakes
    obtain ⟨e₁, hbatches, he₁⟩ := yields_batches made_ne htakes.first e he
    obtain ⟨e₂, hread, -⟩ :=
      yields_read made_ne htakes.afterBatches.sound e₁ he₁
    exact ⟨e₁, e₂, hbatches, hread⟩
  · obtain ⟨results, e', hcompare, hfound, hagrees⟩ :=
      compare_agrees made_ne htakes he
    exact ⟨results, e', Edit.gives_bind.2 ⟨made, e, hcreate, hcompare⟩,
      hfound, hagrees⟩

/-- Two rows, a batch that is taken back, and one that removes the first row
and adds another, which gets the next key. -/
def threeBatches : List Batch :=
  [⟨[.create, .create, .setText 0 (some "x")], true⟩,
    ⟨[.remove 0, .create], false⟩,
    ⟨[.remove 0, .create, .setNumber 1 (-4)], true⟩]

theorem trial_agrees_threeBatches :
    ∃ results e, (trial threeBatches).run (Engine.inMemory {}) = .ok results e
      ∧ results.map (·.found)
        = [[(⟨0⟩, ⟨0, some "x"⟩), (⟨1⟩, {})],
          [(⟨0⟩, ⟨0, some "x"⟩), (⟨1⟩, {})],
          [(⟨1⟩, {}), (⟨2⟩, ⟨-4, none⟩)]] := by
  have hwithin : ∀ b ∈ threeBatches, ∀ change ∈ b.changes,
      change.Within ({} : Config).limits := by
    simp [threeBatches, RowChange.Within]
    decide
  obtain ⟨-, results, e, hrun, hfound, -⟩ :=
    trial_agrees threeBatches (by decide) hwithin
  refine ⟨results, e, hrun, hfound.trans ?_⟩
  decide +kernel

end Colonnade.Trial.RowTable
