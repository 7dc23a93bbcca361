/-
What a removal takes away, on the maps. Taking objects out of a table loses
their rows there, and the links to them in every column of every table that
links into that table. `Table.lose` says this for a list of objects at once,
with nothing said about an order: a row is lost if its key is on the list,
and a link if it points to a key on the list.

One removal loses a list of one, losing one list after another is losing
both (`lose_append`), and two lists can be lost in either order even where
each has links to what the other takes away (`lose_comm`). So the removals
of a run can be put together and exchanged without following what each of
them finds.

Chain: `Snapshot.Commuting` exchanges two removals, and a table is cleared
by a run of them.
-/
import Colonnade.Proofs.Snapshot.Links
import Colonnade.Proofs.Snapshot.Observed

namespace Colonnade

-- ======================================================= one cell

/-- Whether a value is a link to one of some objects. -/
def Value.isLinkTo (gone : List ObjectKey) : Value → Bool
  | link key => gone.contains key
  | _ => false

/-- What a cell holds without the links to some objects. -/
def CellContent.without (gone : List ObjectKey) : CellContent → CellContent
  | value v => value (if v.isLinkTo gone then .null else v)
  | list vs => list (vs.filter fun v => !v.isLinkTo gone)

section Cell

variable {gone more : List ObjectKey} {v : Value} {key : ObjectKey}

/-- A value is a link to some objects if it is a link to one of them. -/
theorem Value.isLinkTo_iff :
    v.isLinkTo gone = true ↔ ∃ key ∈ gone, v = .link key := by
  cases v with
  | link key => simp [isLinkTo]
  | _ => simp [isLinkTo]

/-- A value is a link to objects of two lists if it is one to those of either.
-/
theorem Value.isLinkTo_append :
    v.isLinkTo (gone ++ more) = (v.isLinkTo gone || v.isLinkTo more) := by
  cases v with
  | link key => simp [isLinkTo]
  | _ => rfl

theorem Value.isLinkTo_null : Value.null.isLinkTo gone = false := rfl

/-- Forgetting an object is doing without that one. -/
theorem CellContent.forget_eq_without (key : ObjectKey) (x : CellContent) :
    Column.forget key x = x.without [key] := by
  have hlink (v : Value) : v.isLinkTo [key] = (v == .link key) := by
    rw [Bool.eq_iff_iff, Value.isLinkTo_iff]
    simp
  cases x with
  | value v => simp [Column.forget, without, hlink]
  | list vs => simp [Column.forget, without, hlink, bne]

theorem CellContent.without_nil (x : CellContent) : x.without [] = x := by
  have hlink (v : Value) : v.isLinkTo [] = false := by cases v <;> rfl
  cases x with
  | value v => simp [without, hlink]
  | list vs => simp [without, hlink]

/-- Content is without two lists of objects if it is without one and then the
other. -/
theorem CellContent.without_append (x : CellContent) :
    x.without (gone ++ more) = (x.without gone).without more := by
  cases x with
  | value v =>
      simp only [without, Value.isLinkTo_append]
      cases hg : v.isLinkTo gone <;> simp [Value.isLinkTo_null]
  | list vs =>
      simp only [without, Value.isLinkTo_append, List.filter_filter, Bool.not_or,
        Bool.and_comm]

/-- It does not matter which links go first. -/
theorem CellContent.without_comm (x : CellContent) :
    (x.without gone).without more = (x.without more).without gone := by
  cases x with
  | value v =>
      simp only [without]
      cases hg : v.isLinkTo gone <;> cases hm : v.isLinkTo more <;>
        simp [hg, hm, Value.isLinkTo_null]
  | list vs => simp only [without, List.filter_filter, Bool.and_comm]

end Cell

namespace Logical

-- ======================================================= one table

namespace Table

variable {t : Table} {j k l : TableKey} {gone more : List ObjectKey}
  {key : ObjectKey} {col : ColumnKey}

/-- A row without the links to some objects. -/
def thin (t : Table) (k : TableKey) (gone : List ObjectKey) (row : Row) :
    Row := fun col =>
  if t.links col k then (row col).map (CellContent.without gone) else row col

/-- What is left of the table under a key when some objects are taken out of
the table under another, or the same, key. -/
def lose (j k : TableKey) (gone : List ObjectKey) (t : Table) : Table :=
  { t with
    rows := fun key =>
      if j = k ∧ key ∈ gone then none else (t.rows key).map (t.thin k gone) }

theorem thin_nil (row : Row) : t.thin k [] row = row := by
  funext col
  unfold thin
  split
  next => cases row col <;> simp [CellContent.without_nil]
  next => rfl

/-- A row is thinned by two lists one after the other. -/
theorem thin_append (row : Row) :
    t.thin k (gone ++ more) row = t.thin k more (t.thin k gone row) := by
  funext col
  unfold thin
  split
  next =>
    rw [Option.map_map]
    exact congrArg (fun f => (row col).map f)
      (funext CellContent.without_append)
  next => rfl

/-- It does not matter whose links are taken out of a row first. -/
theorem thin_comm (row : Row) :
    t.thin k gone (t.thin l more row) = t.thin l more (t.thin k gone row) := by
  funext col
  unfold thin
  by_cases hk : t.links col k <;> by_cases hl : t.links col l <;>
    simp [hk, hl, Function.comp_def, CellContent.without_comm]

/-- A table loses the rows that are gone, and the others their links. -/
theorem rows_lose (t : Table) (key : ObjectKey) :
    (t.lose j k gone).rows key
      = if j = k ∧ key ∈ gone then none
        else (t.rows key).map (t.thin k gone) := rfl

theorem lose_nil (t : Table) : t.lose j k [] = t := by
  refine Table.ext rfl rfl rfl rfl (funext fun key => ?_)
  rw [rows_lose, if_neg (by simp), funext thin_nil]
  simp

/-- A table loses two lists of objects one after the other. -/
theorem lose_append (t : Table) :
    t.lose j k (gone ++ more) = (t.lose j k gone).lose j k more := by
  refine Table.ext rfl rfl rfl rfl (funext fun key => ?_)
  rw [rows_lose, rows_lose, rows_lose]
  by_cases hgone : j = k ∧ key ∈ gone
  · rw [if_pos ⟨hgone.1, List.mem_append_left _ hgone.2⟩, if_pos hgone]
    split <;> rfl
  · rw [if_neg hgone, Option.map_map]
    by_cases hmore : j = k ∧ key ∈ more
    · rw [if_pos ⟨hmore.1, List.mem_append_right _ hmore.2⟩, if_pos hmore]
    · rw [if_neg hmore, if_neg fun h => (List.mem_append.1 h.2).elim
        (fun hk => hgone ⟨h.1, hk⟩) fun hk => hmore ⟨h.1, hk⟩]
      exact congrArg (fun f => (t.rows key).map f) (funext thin_append)

/-- It does not matter which objects go first. -/
theorem lose_comm (t : Table) :
    (t.lose j l more).lose j k gone = (t.lose j k gone).lose j l more := by
  refine Table.ext rfl rfl rfl rfl (funext fun key => ?_)
  rw [rows_lose, rows_lose, rows_lose, rows_lose]
  by_cases hgone : j = k ∧ key ∈ gone
  · rw [if_pos hgone, if_pos hgone]
    split <;> rfl
  · rw [if_neg hgone, if_neg hgone]
    by_cases hmore : j = l ∧ key ∈ more
    · rw [if_pos hmore, if_pos hmore]
      rfl
    · rw [if_neg hmore, if_neg hmore, Option.map_map, Option.map_map]
      exact congrArg (fun f => (t.rows key).map f) (funext thin_comm)

/-- A table without the objects that are gone only loses links. -/
theorem forget_eq_lose (t : Table) (h : j ≠ k) :
    t.forget k key = t.lose j k [key] := by
  refine Table.ext rfl rfl rfl rfl (funext fun a => ?_)
  rw [rows_lose, if_neg fun ha => h ha.1]
  show (t.rows a).map _ = _
  refine congrArg (fun f => (t.rows a).map f) (funext fun row => ?_)
  funext col
  unfold thin
  rw [funext (CellContent.forget_eq_without key)]

/-- The table of the object loses a row besides. -/
theorem forget_removeObject (t : Table) :
    (t.removeObject key).forget k key = t.lose k k [key] := by
  refine Table.ext rfl rfl rfl rfl (funext fun a => ?_)
  rw [rows_lose]
  show (update t.rows key none a).map _ = _
  unfold update
  by_cases ha : a = key
  · rw [if_pos ha, if_pos ⟨rfl, List.mem_singleton.2 ha⟩]
    rfl
  · rw [if_neg ha, if_neg fun h => ha (List.mem_singleton.1 h.2)]
    refine congrArg (fun f => (t.rows a).map f) (funext fun row => ?_)
    funext col
    show (if t.links col k then _ else _) = _
    unfold thin
    rw [funext (CellContent.forget_eq_without key)]

end Table

-- ======================================================= the database

namespace Database

variable {d : Database} {k l : TableKey} {key a : ObjectKey}
  {gone more : List ObjectKey}

/-- The database without some objects of a table and the links to them. -/
def lose (k : TableKey) (gone : List ObjectKey) (d : Database) : Database :=
  { d with tables := fun j => (d.tables j).map (Table.lose j k gone) }

/-- A database loses two lists of objects one after the other. -/
theorem lose_append (d : Database) :
    d.lose k (gone ++ more) = (d.lose k gone).lose k more := by
  refine Database.ext (funext fun j => ?_) rfl
  show (d.tables j).map _ = Option.map _ (Option.map _ (d.tables j))
  rw [Option.map_map]
  exact congrArg (fun f => (d.tables j).map f) (funext Table.lose_append)

/-- It does not matter which table loses its objects first. -/
theorem lose_comm (d : Database) :
    (d.lose l more).lose k gone = (d.lose k gone).lose l more := by
  refine Database.ext (funext fun j => ?_) rfl
  show Option.map _ (Option.map _ (d.tables j))
    = Option.map _ (Option.map _ (d.tables j))
  rw [Option.map_map, Option.map_map]
  exact congrArg (fun f => (d.tables j).map f) (funext Table.lose_comm)

theorem lose_nil (d : Database) : d.lose k [] = d := by
  refine Database.ext (funext fun j => ?_) rfl
  show (d.tables j).map _ = _
  rw [funext Table.lose_nil]
  simp

/-- One removal loses one object. -/
theorem perform_removeObject (d : Database) (k : TableKey)
    (key : ObjectKey) :
    d.perform (.removeObject k key) = d.lose k [key] := by
  refine Database.ext (funext fun j => ?_) rfl
  show Option.map _ (if j = k then (d.tables j).map _ else d.tables j)
    = (d.tables j).map _
  by_cases hj : j = k
  · subst hj
    rw [if_pos rfl, Option.map_map]
    exact congrArg (fun f => (d.tables j).map f)
      (funext Table.forget_removeObject)
  · rw [if_neg hj]
    exact congrArg (fun f => (d.tables j).map f)
      (funext fun t => Table.forget_eq_lose t hj)

/-- What lives afterwards lived before and was not taken out. -/
theorem live_lose :
    (d.lose k gone).Live l a ↔ d.Live l a ∧ ¬ (l = k ∧ a ∈ gone) := by
  constructor
  · rintro ⟨t, row, ht, hrow⟩
    obtain ⟨u, hu, rfl⟩ := Option.map_eq_some_iff.1 ht
    rw [Table.rows_lose] at hrow
    split at hrow
    next => cases hrow
    next hno =>
      obtain ⟨old, hold, -⟩ := Option.map_eq_some_iff.1 hrow
      exact ⟨⟨u, old, hu, hold⟩, hno⟩
  · rintro ⟨⟨u, old, hu, hold⟩, hno⟩
    refine ⟨u.lose l k gone, u.thin k gone old, ?_, ?_⟩
    · show (d.tables l).map _ = _
      rw [hu]
      rfl
    · rw [Table.rows_lose, if_neg hno, hold]
      rfl

end Database

end Logical

-- ======================================================= snapshots

namespace Snapshot

variable {limits : Limits} {s s' : Snapshot} {k : TableKey}
  {key : ObjectKey}

/-- A snapshot has the objects of its map. -/
theorem hasObject_iff_live :
    s.hasObject k key = true ↔ s.logical.Live k key :=
  hasObject_iff.trans live_logical.symm

/-- A removal leaves rows and cells in step. -/
theorem Sound.removed (h : s.Sound)
    (happ : Applied limits s (.removeObject k key) s') : s'.Sound := by
  refine ⟨h.formed.applied happ, fun j u hu => ?_⟩
  cases happ with
  | @removeObject _ t _ slot ht hslot =>
      rw [table?_withoutLinks] at hu
      obtain ⟨v, hv, rfl⟩ := Option.map_eq_some_iff.1 hu
      apply Table.Slotted.unlink
      rw [table?_withTable] at hv
      split at hv
      next =>
        cases hv
        exact (h.slotted k t ht).withoutObject hslot
      next => exact h.slotted j v hv

/-- Removing an object leaves the names of tables. -/
theorem Applied.names_of_removeObject
    (happ : Applied limits s (.removeObject k key) s') : s'.names = s.names := by
  cases happ with
  | removeObject => rfl

/-- An object that is there can be removed, and it and the links to it are
what is lost. -/
theorem Sound.removeObject (h : s.Sound) (limits : Limits)
    (hthere : s.hasObject k key = true) :
    ∃ s', Edit.Gives (apply limits (.removeObject k key)) s () s'
      ∧ s'.Sound ∧ s'.logical = s.logical.lose k [key]
      ∧ s'.names = s.names := by
  obtain ⟨t, ht, hcontains⟩ := hasObject_iff.1 hthere
  obtain ⟨slot, hslot⟩ := Table.contains_iff.1 hcontains
  have happ : Applied limits s (.removeObject k key) _ :=
    .removeObject ht hslot
  refine ⟨_, apply_gives_iff.2 happ, h.removed happ, ?_,
    happ.names_of_removeObject⟩
  rw [← Logical.Database.perform_removeObject]
  exact happ.logical_eq_of_slotted h.slotted h.formed nofun

/-- Objects that are there can be removed one after the other. No removal
takes out an object that is still to be removed, so none of them fails. -/
theorem Sound.removeObjects (h : s.Sound) (limits : Limits)
    {gone : List ObjectKey} (hnodup : gone.Nodup)
    (hthere : ∀ key ∈ gone, s.hasObject k key = true) :
    ∃ s', Edit.Gives (applyAll limits (gone.map (.removeObject k ·))) s () s'
      ∧ s'.Sound ∧ s'.logical = s.logical.lose k gone
      ∧ s'.names = s.names := by
  induction gone generalizing s with
  | nil =>
      exact ⟨s, Edit.gives_pure.2 ⟨rfl, rfl⟩, h,
        (Logical.Database.lose_nil _).symm, rfl⟩
  | cons key rest ih =>
      obtain ⟨hkey, hrest⟩ := List.forall_mem_cons.1 hthere
      obtain ⟨hnotin, hnodup⟩ := List.nodup_cons.1 hnodup
      obtain ⟨m, hone, hm, hlogical, hnames⟩ := h.removeObject limits hkey
      have hleft : ∀ a ∈ rest, m.hasObject k a = true := by
        intro a ha
        rw [hasObject_iff_live, hlogical, Logical.Database.live_lose]
        refine ⟨hasObject_iff_live.1 (hrest a ha), fun hgone => hnotin ?_⟩
        exact List.mem_singleton.1 hgone.2 ▸ ha
      obtain ⟨s', hothers, hs', hlost, hnames'⟩ := ih hm hnodup hleft
      refine ⟨s', Edit.gives_forM_cons.2 ⟨m, hone, hothers⟩, hs', ?_,
        hnames'.trans hnames⟩
      rw [hlost, hlogical, ← Logical.Database.lose_append]
      rfl

end Snapshot

end Colonnade
