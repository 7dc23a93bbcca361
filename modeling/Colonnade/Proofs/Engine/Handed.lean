/-
What it comes to when a transaction hands out a handle, said once for each
operation that does. A lookup says of which snapshot it answered, and with
which keys; an operation that makes something says what was written for it;
and where one handle leads on to another, the two share their anchor.

Chain: over `Engine.Uses`. `Engine.Validity` reads the generation of the
handle off this, and `Engine.Granted` that what it stands for is there.
-/
import Colonnade.Engine.Lookup
import Colonnade.Proofs.Engine.Uses

namespace Colonnade.Engine

variable {e e' : Engine} {id : TransactionId}

-- ============================================================== lookups

/-- The snapshot of a transaction is that of its view. -/
theorem snapshotOf_eq_ok {s : Snapshot} :
    e.snapshotOf id = .ok s
      ↔ ∃ t, e.transaction? id = some t ∧ t.view.snapshot = s := by
  unfold snapshotOf
  simp only [Check.bind_eq_ok, requireTransaction_eq_ok, Check.pure_eq_ok]

/-- The anchor of a transaction carries the generation of its view. -/
theorem anchor_eq_ok {a : Anchor} :
    e.anchor id = .ok a ↔ ∃ t, e.transaction? id = some t
      ∧ a = ⟨id, t.view.generation⟩ := by
  unfold anchor
  rw [Check.bind_eq_ok]
  refine exists_congr fun t => ?_
  rw [requireTransaction_eq_ok, Check.pure_eq_ok]
  exact and_congr_right' eq_comm

/-- A transaction is on the version it pins. -/
theorem versionOf_eq_ok {v : Version} :
    e.versionOf id = .ok v
      ↔ ∃ t, e.transaction? id = some t ∧ t.pinned = v := by
  unfold versionOf
  simp only [Check.bind_eq_ok, requireTransaction_eq_ok, Check.pure_eq_ok]

/-- What a transaction is asked it answers by its view. -/
theorem lookup_of {α : Type} {t : Transaction}
    (ht : e.transaction? id = some t) (f : Snapshot → Anchor → α) :
    (do return f (← e.snapshotOf id) (← e.anchor id) : Except Error α)
      = .ok (f t.view.snapshot ⟨id, t.view.generation⟩) := by
  rw [snapshotOf_eq_ok.2 ⟨t, ht, rfl⟩, anchor_eq_ok.2 ⟨t, ht, rfl⟩]
  rfl

/-- A lookup goes by the snapshot and the generation that the view of the
transaction has. -/
theorem lookup_eq_some {α : Type} (f : Snapshot → Anchor → Option α)
    {x : α} :
    (do return f (← e.snapshotOf id) (← e.anchor id) :
        Except Error (Option α)) = .ok (some x)
      ↔ ∃ t, e.transaction? id = some t
        ∧ f t.view.snapshot ⟨id, t.view.generation⟩ = some x := by
  simp only [Check.bind_eq_ok, Check.pure_eq_ok, snapshotOf_eq_ok,
    anchor_eq_ok]
  constructor
  · rintro ⟨_, ⟨t, ht, rfl⟩, _, ⟨u, hu, rfl⟩, hx⟩
    obtain rfl := Option.some.inj (ht.symm.trans hu)
    exact ⟨t, ht, hx⟩
  · rintro ⟨t, ht, hx⟩
    exact ⟨_, ⟨t, ht, rfl⟩, _, ⟨t, ht, rfl⟩, hx⟩

/-- A table is handed out under its name, with the anchor of the transaction.
-/
theorem table?_eq_some {name : String} {h : TableHandle} :
    e.table? id name = .ok (some h) ↔ ∃ t, e.transaction? id = some t
      ∧ ∃ u, t.view.snapshot.tableNamed? name = some u
        ∧ ⟨⟨id, t.view.generation⟩, u.key⟩ = h :=
  (lookup_eq_some _).trans
    (exists_congr fun _ => and_congr_right' Option.map_eq_some_iff)

/-- A table is handed out under its key, with the anchor of the transaction.
-/
theorem tableByKey?_eq_some {key : TableKey} {h : TableHandle} :
    e.tableByKey? id key = .ok (some h) ↔ ∃ t, e.transaction? id = some t
      ∧ ∃ u, t.view.snapshot.table? key = some u
        ∧ ⟨⟨id, t.view.generation⟩, key⟩ = h :=
  (lookup_eq_some _).trans
    (exists_congr fun _ => and_congr_right' Option.map_eq_some_iff)

/-- An object is imported if there is one under its key. -/
theorem importObject?_eq_some {h₀ h : ObjectHandle} :
    e.importObject? id h₀ = .ok (some h) ↔ ∃ t, e.transaction? id = some t
      ∧ t.view.snapshot.hasObject h₀.table h₀.key = true
        ∧ ⟨⟨id, t.view.generation⟩, h₀.table, h₀.key⟩ = h :=
  (lookup_eq_some _).trans (exists_congr fun _ => and_congr_right'
    (Option.ite_none_right_eq_some.trans
      (and_congr_right' Option.some_inj)))

/-- A table that is required is handed out as one that is asked for. -/
theorem requireTable_eq_ok {name : String} {h : TableHandle} :
    e.requireTable id name = .ok h ↔ e.table? id name = .ok (some h) := by
  unfold requireTable
  cases e.table? id name with
  | error err => simp
  | ok found => cases found <;> simp

-- =============================================================== making

/-- What was written to a view was recorded there. -/
theorem gives_writeView {build : Snapshot → Except Error Instruction}
    {i : Instruction} (hgives : Edit.Gives (writeView id build) e i e') :
    ∃ (t : Transaction) (v : View), View.Wrote e.limits build t.view i v
      ∧ e' = e.withTransaction id { t with view := v } := by
  unfold writeView put at hgives
  simp only [Edit.gives_bind, Edit.gives_get, Edit.gives_lift,
    Edit.gives_modify] at hgives
  obtain ⟨_, _, ⟨rfl, rfl⟩, t, _, ⟨-, rfl⟩, _, made, hput, hresult⟩ := hgives
  cases hwrite : t.view.write e.limits t.view.generation build with
  | mk result v =>
  rw [hwrite] at hput hresult
  have hok : result = some (.ok i) ∧ made = e' := by
    cases result with
    | none => cases Edit.gives_throw.1 hresult
    | some result =>
        obtain ⟨rfl, rfl⟩ := Edit.gives_lift.1 hresult
        exact ⟨rfl, rfl⟩
  obtain ⟨rfl, rfl⟩ := hok
  rcases View.write_cases hwrite with ⟨j, hj, hwrote⟩ | ⟨-, hno⟩
  · cases hj
    exact ⟨t, v, hwrote, hput.symm⟩
  · exact absurd rfl (hno i)

/-- An added table is handed out under the key that it was added with. -/
theorem gives_addTable {name : String} {h : TableHandle}
    (hgives : Edit.Gives (addTable id name) e h e') :
    e'.anchor id = .ok h.anchor
      ∧ ∃ name', Edit.Gives (writeView id fun s =>
        return .addTable s.nextTable name) e (.addTable h.key name') e' := by
  unfold addTable at hgives
  simp only [Edit.gives_bind, Edit.gives_get, Edit.gives_lift] at hgives
  obtain ⟨_, _, ⟨rfl, rfl⟩, _, _, ⟨-, rfl⟩, i, made, hwrite, hmade⟩ := hgives
  cases i with
  | addTable key name' =>
      simp only [Edit.gives_bind, Edit.gives_get, Edit.gives_lift,
        Edit.gives_pure] at hmade
      obtain ⟨_, _, ⟨rfl, rfl⟩, a, _, ⟨ha, rfl⟩, rfl, rfl⟩ := hmade
      exact ⟨ha, name', hwrite⟩
  | _ => cases Edit.gives_throw.1 hmade

/-- A table that is got or added is handed out as found, or as added. -/
theorem gives_getOrAddTable {name : String} {h : TableHandle}
    (hgives : Edit.Gives (getOrAddTable id name) e h e') :
    e.table? id name = .ok (some h) ∧ e' = e
      ∨ Edit.Gives (addTable id name) e h e' := by
  unfold getOrAddTable at hgives
  simp only [Edit.gives_bind, Edit.gives_get, Edit.gives_lift] at hgives
  obtain ⟨_, _, ⟨rfl, rfl⟩, found, _, ⟨hfound, rfl⟩, hmade⟩ := hgives
  cases found with
  | none => exact .inr hmade
  | some h =>
      obtain ⟨rfl, rfl⟩ := Edit.gives_pure.1 hmade
      exact .inl ⟨hfound, rfl⟩

/-- A created object is handed out under the key that it was created with. -/
theorem gives_createObject {h₀ : TableHandle} {h : ObjectHandle}
    (hgives : Edit.Gives h₀.createObject e h e') :
    h.anchor = h₀.anchor ∧ h.table = h₀.key ∧ ∃ table,
      Edit.Gives ((Handle.table h₀).write fun t =>
        return .createObject h₀.key t.nextObject) e
        (.createObject table h.key) e' := by
  unfold TableHandle.createObject at hgives
  obtain ⟨i, made, hwrite, hmade⟩ := Edit.gives_bind.1 hgives
  split at hmade
  next table key =>
    obtain ⟨rfl, rfl⟩ := Edit.gives_pure.1 hmade
    exact ⟨rfl, rfl, table, hwrite⟩
  next => cases Edit.gives_throw.1 hmade

-- =========================================================== leading on

/-- The target of a column is handed out with the anchor of its table. -/
theorem gives_linkTarget? {h₀ h : TableHandle} {col : ColumnKey}
    (hgives : Edit.Gives (h₀.linkTarget? col) e (some h) e') :
    h.anchor = h₀.anchor ∧ ∃ spec,
      Edit.Gives (h₀.columnSpec col) e spec e'
        ∧ spec.target = some h.key := by
  unfold TableHandle.linkTarget? at hgives
  simp only [Edit.gives_bind, Edit.gives_pure, Option.map_eq_some_iff]
    at hgives
  obtain ⟨spec, _, hread, ⟨key, hkey, rfl⟩, rfl⟩ := hgives
  exact ⟨rfl, spec, hread, hkey⟩

/-- An object is handed out if its table has it. -/
theorem gives_object? {h₀ : TableHandle} {h : ObjectHandle}
    {key : ObjectKey} (hgives : Edit.Gives (h₀.object? key) e (some h) e') :
    h.anchor = h₀.anchor ∧ h.table = h₀.key
      ∧ Edit.Gives (h₀.contains h.key) e true e' := by
  unfold TableHandle.object? at hgives
  obtain ⟨found, _, hread, hfound⟩ := Edit.gives_bind.1 hgives
  cases found with
  | true =>
      obtain ⟨heq, rfl⟩ := Edit.gives_pure.1 hfound
      cases heq
      exact ⟨rfl, rfl, hread⟩
  | false =>
      obtain ⟨heq, -⟩ := Edit.gives_pure.1 hfound
      cases heq

/-- An object that is required is handed out as one that is asked for. -/
theorem gives_object {h₀ : TableHandle} {h : ObjectHandle} {key : ObjectKey}
    (hgives : Edit.Gives (h₀.object key) e h e') :
    Edit.Gives (h₀.object? key) e (some h) e' := by
  unfold TableHandle.object at hgives
  obtain ⟨found, _, hlooked, hsome⟩ := Edit.gives_bind.1 hgives
  cases found with
  | none => cases Edit.gives_throw.1 hsome
  | some o =>
      obtain ⟨rfl, rfl⟩ := Edit.gives_pure.1 hsome
      exact hlooked

/-- The object that a link leads to is handed out with the anchor of the one
that links. -/
theorem gives_getLink? {h₀ h : ObjectHandle} {col : ColumnKey}
    (hgives : Edit.Gives (h₀.getLink? col) e (some h) e') :
    h.anchor = h₀.anchor ∧ ∃ t table c v,
      e.transaction? h₀.anchor.transaction = some t
        ∧ (Handle.object h₀).resolve t.view.snapshot = .ok table
        ∧ table.checkType col .link = .ok ()
        ∧ table.requireColumn col = .ok c
        ∧ table.valueOf h₀.key col = .ok v
        ∧ c.spec.target = some h.table ∧ v.link? = some h.key := by
  obtain ⟨t, table, ht, hresolve, hfound⟩ :=
    Handle.gives_read (h := .object h₀) hgives
  simp only [Check.bind_eq_ok] at hfound
  obtain ⟨_, htype, c, hc, v, hv, hfound⟩ := hfound
  split at hfound
  next u key hu hkey =>
    cases hfound
    exact ⟨rfl, t, table, c, v, ht, hresolve, htype, hc, hv, hu, hkey⟩
  next => cases hfound

end Colonnade.Engine
