/-
What a handle stands for is there when the handle is handed out. A lookup
finds it in the snapshot of the transaction; what was just added is in the
working copy that the instruction left; and a handle that another one leads
to is that of a table or an object that a link names, which is there because
no link points at nothing.

Importing asks the same of another transaction. It goes by the keys that the
handle carries, and finds something exactly if the snapshot of that
transaction has something under them.

Chain: over `Engine.Validity`, which lists the ways in which handles are
handed out, and `Snapshot.Links`; `Engine.Imports` asks who made what is
found.
-/
import Colonnade.Proofs.Engine.Validity
import Colonnade.Proofs.Snapshot.Identity
import Colonnade.Proofs.Snapshot.Links

namespace Colonnade

namespace Table

/-- A column that passes the check of its type has that type. -/
theorem type_of_checkType {t : Table} {col : ColumnKey} {c : Column}
    {type : ColumnType} (hc : t.column? col = some c) {u : Unit}
    (hcheck : t.checkType col type = .ok u) : c.spec.type = type := by
  simp only [checkType, Check.bind_eq_ok, requireColumn_eq_ok,
    hc] at hcheck
  obtain ⟨_, hsame, hcheck⟩ := hcheck
  obtain rfl := Option.some.inj hsame
  by_contra hne
  rw [if_pos (bne_iff_ne.2 hne)] at hcheck
  cases hcheck

/-- A value that is read is in some slot of its column. -/
theorem valueAt_of_valueOf {t : Table} {key : ObjectKey} {col : ColumnKey}
    {c : Column} {v : Value} (hc : t.column? col = some c)
    (hvalue : t.valueOf key col = .ok v) : ∃ slot, v = c.valueAt slot := by
  simp only [valueOf, Check.bind_eq_ok, requireColumn_eq_ok,
    hc] at hvalue
  obtain ⟨_, hsame, hvalue⟩ := hvalue
  obtain rfl := Option.some.inj hsame
  split at hvalue
  · cases hvalue
  · obtain ⟨slot, -, hvalue⟩ := Check.bind_eq_ok.1 hvalue
    exact ⟨slot, (Check.pure_eq_ok.1 hvalue).symm⟩

end Table

namespace Handle

variable {h : Handle} {s : Snapshot}

/-- What a handle stands for. -/
def identity : Handle → Identity
  | table h => .table h.key
  | object h => .object h.table h.key

/-- The things that have to be there for it. -/
def parts : Handle → List Identity
  | table h => [.table h.key]
  | object h => [.table h.table, .object h.table h.key]

/-- A handle lives in a snapshot that has what it stands for. -/
theorem livesIn_iff : h.LivesIn s ↔ s.Has h.identity := by
  cases h with
  | table h =>
      constructor
      · rintro ⟨t, ht⟩
        exact ⟨.table h.key t.name, rfl, t, ht, rfl⟩
      · rintro ⟨x, hid, hx⟩
        cases x <;> cases hid
        obtain ⟨t, ht, -⟩ := hx
        exact ⟨t, ht⟩
  | object h =>
      constructor
      · intro hlives
        exact ⟨.object h.table h.key, rfl, hlives⟩
      · rintro ⟨x, hid, hx⟩
        cases x <;> cases hid
        exact hx

/-- Where a handle lives all its parts are. -/
theorem LivesIn.has (hlives : h.LivesIn s) {x : Identity}
    (hx : x ∈ h.parts) : s.Has x := by
  cases h with
  | table h =>
      obtain rfl := List.mem_singleton.1 hx
      exact livesIn_iff.1 hlives
  | object h =>
      obtain ⟨t, ht, hcontains⟩ := hlives
      rcases List.mem_cons.1 hx with rfl | hx
      · exact ⟨.table h.table t.name, rfl, t, ht, rfl⟩
      · obtain rfl := List.mem_singleton.1 hx
        exact ⟨.object h.table h.key, rfl, t, ht, hcontains⟩

/-- What a handle resolves to is a table of the snapshot. -/
theorem table?_of_resolve {t : Table} (hresolve : h.resolve s = .ok t) :
    ∃ k, s.table? k = some t := by
  cases h with
  | table h => exact ⟨h.key, resolve_table_eq_ok.1 hresolve⟩
  | object h => exact ⟨h.table, (resolve_object_eq_ok.1 hresolve).1⟩

end Handle

namespace Engine

open Snapshot

variable {e e' : Engine} {id : TransactionId} {t : Transaction}

-- ============================================================= showing

/-- Whether a transaction is shown what a handle stands for. -/
def Shows (e : Engine) (id : TransactionId) (h : Handle) : Prop :=
  ∃ t, e.transaction? id = some t ∧ h.LivesIn t.view.snapshot

/-- Whether importing a handle into a transaction comes back with one. -/
def Finds (e : Engine) (id : TransactionId) : Handle → Prop
  | .table h => ∃ found, e.importTable? id h = .ok (some found)
  | .object h => ∃ found, e.importObject? id h = .ok (some found)

/-- An import finds what the transaction is shown under the keys of the
handle. -/
theorem finds_iff {h : Handle} : e.Finds id h ↔ e.Shows id h := by
  cases h with
  | table h =>
      constructor
      · rintro ⟨found, hfound⟩
        obtain ⟨t, ht, u, hu, -⟩ := tableByKey?_eq_some.1 hfound
        exact ⟨t, ht, u, hu⟩
      · rintro ⟨t, ht, u, hu⟩
        exact ⟨_, tableByKey?_eq_some.2 ⟨t, ht, u, hu, rfl⟩⟩
  | object h =>
      constructor
      · rintro ⟨found, hfound⟩
        obtain ⟨t, ht, hlives, -⟩ := importObject?_eq_some.1 hfound
        exact ⟨t, ht, hasObject_iff.1 hlives⟩
      · rintro ⟨t, ht, hlives⟩
        have hlives := hasObject_iff.2 hlives
        exact ⟨_, importObject?_eq_some.2 ⟨t, ht, hlives, rfl⟩⟩

-- ========================================================= what was made

/-- What a writer has just made it is shown. -/
theorem shows_of_wrote {limits : Limits} {i : Instruction} {v : View}
    {build : Snapshot → Except Error Instruction} {h : Handle}
    (hwrote : View.Wrote limits build t.view i v) {x : Entity}
    (hmakes : i.makes? = some x) (hid : x.id = h.identity) :
    (e.withTransaction id { t with view := v }).Shows id h :=
  ⟨_, transaction?_self e _ _,
    Handle.livesIn_iff.2 ⟨x, hid, hwrote.applied.holds_made hmakes⟩⟩

/-- A table that was added is shown. -/
theorem shows_addTable {name : String} {h : TableHandle}
    (hgives : Edit.Gives (addTable id name) e h e') :
    e'.Shows id (.table h) := by
  obtain ⟨-, name', hwrite⟩ := gives_addTable hgives
  obtain ⟨t, v, hwrote, rfl⟩ := gives_writeView hwrite
  exact shows_of_wrote hwrote rfl rfl

/-- An object that was created is shown. -/
theorem shows_createObject {h₀ : TableHandle} {h : ObjectHandle}
    (hid : h₀.anchor.transaction = id)
    (hgives : Edit.Gives h₀.createObject e h e') :
    e'.Shows id (.object h) := by
  subst hid
  obtain ⟨-, hin, table, hwrite⟩ := gives_createObject hgives
  obtain ⟨t, v, -, hview, rfl⟩ := Handle.gives_write hwrite
  rcases View.write_cases hview with ⟨i, hi, hwrote⟩ | ⟨-, hno⟩
  swap
  · exact absurd rfl (hno _)
  cases hi
  -- The table in the instruction is the one that the handle is for.
  have hbuilt := hwrote.built
  simp only [Check.bind_eq_ok, Check.pure_eq_ok] at hbuilt
  obtain ⟨_, -, heq⟩ := hbuilt
  injection heq with htable
  rw [← hin] at htable
  exact shows_of_wrote hwrote rfl (congrArg₂ Identity.object htable.symm rfl)

-- ======================================================== what was found

variable {is : List Instruction}

/-- A table that was found by name is shown. -/
theorem shows_table? {name : String} {h : TableHandle}
    (hformed : ∀ t, e.transaction? id = some t → t.view.snapshot.Formed)
    (hfound : e.table? id name = .ok (some h)) : e.Shows id (.table h) := by
  obtain ⟨t, ht, u, hu, rfl⟩ := table?_eq_some.1 hfound
  obtain ⟨k, -, hk⟩ := Option.bind_eq_some_iff.1 hu
  refine ⟨t, ht, u, ?_⟩
  show t.view.snapshot.table? u.key = _
  rw [(hformed t ht).key_eq k u hk, hk]

/-- The column that a read goes by is one of the snapshot. -/
theorem columnSound_of_resolve {h : Handle} {s : Snapshot} {table : Table}
    {col : ColumnKey} {c : Column} (hreached : Reached is s)
    (hadded : tablesAdded is < 2 ^ 32) (hresolve : h.resolve s = .ok table)
    (hc : table.requireColumn col = .ok c) : s.ColumnSound c := by
  obtain ⟨k, hk⟩ := Handle.table?_of_resolve hresolve
  exact reached_columnSound hreached hadded hk
    (Table.mem_of_column? (Table.requireColumn_eq_ok.1 hc))

/-- The target of a column is shown. -/
theorem shows_linkTarget? {h₀ h : TableHandle} {col : ColumnKey}
    (hreached : ∀ t, e.transaction? id = some t →
      Reached is t.view.snapshot)
    (hadded : tablesAdded is < 2 ^ 32) (hid : h₀.anchor.transaction = id)
    (hfound : Edit.Gives (h₀.linkTarget? col) e (some h) e') :
    e.Shows id (.table h) := by
  subst hid
  obtain ⟨-, spec, hread, hkey⟩ := gives_linkTarget? hfound
  obtain ⟨t, table, ht, hresolve, hspec⟩ :=
    Handle.gives_read (h := .table h₀) hread
  simp only [Check.bind_eq_ok, Check.pure_eq_ok] at hspec
  obtain ⟨c, hc, rfl⟩ := hspec
  have hsound := columnSound_of_resolve (hreached t ht) hadded hresolve hc
  have hlink := hsound.link_of_target (by rw [hkey]; rfl)
  obtain ⟨u, target, hu, htarget⟩ := hsound.target_of_link hlink
  obtain rfl := Option.some.inj (hu.symm.trans hkey)
  exact ⟨t, ht, target, htarget⟩

/-- An object that was found is shown. -/
theorem shows_object? {h₀ : TableHandle} {h : ObjectHandle}
    {key : ObjectKey} (hid : h₀.anchor.transaction = id)
    (hfound : Edit.Gives (h₀.object? key) e (some h) e') :
    e.Shows id (.object h) := by
  subst hid
  obtain ⟨-, hin, hread⟩ := gives_object? hfound
  obtain ⟨t, table, ht, hresolve, hcontains⟩ :=
    Handle.gives_read (h := .table h₀) hread
  have htable := Handle.resolve_table_eq_ok.1 hresolve
  rw [← hin] at htable
  exact ⟨t, ht, table, htable, Check.pure_eq_ok.1 hcontains⟩

/-- An object that a link leads to is shown. -/
theorem shows_getLink? {h₀ h : ObjectHandle} {col : ColumnKey}
    (hreached : ∀ t, e.transaction? id = some t →
      Reached is t.view.snapshot)
    (hadded : tablesAdded is < 2 ^ 32) (hid : h₀.anchor.transaction = id)
    (hfound : Edit.Gives (h₀.getLink? col) e (some h) e') :
    e.Shows id (.object h) := by
  subst hid
  obtain ⟨-, t, table, c, v, ht, hresolve, htype, hc, hvalue, hu, hkey⟩ :=
    gives_getLink? hfound
  have hsound := columnSound_of_resolve (hreached t ht) hadded hresolve hc
  rw [Table.requireColumn_eq_ok] at hc
  have hlink := Table.type_of_checkType hc htype
  obtain ⟨slot, rfl⟩ := Table.valueAt_of_valueOf hc hvalue
  rcases hsound.link_live hlink slot with hnull | ⟨u, key, hu', hv, hlives⟩
  · rw [hnull] at hkey
    cases hkey
  · rw [hv] at hkey
    obtain rfl := Option.some.inj (hu.symm.trans hu')
    obtain rfl := Option.some.inj hkey
    exact ⟨t, ht, hasObject_iff.1 hlives⟩

/-- A transaction that hands out a handle is shown what it stands for. -/
theorem Grants.shows {g : Handle} (h : Grants id e g e')
    (hreached : ∀ t, e'.transaction? id = some t →
      Reached is t.view.snapshot)
    (hadded : tablesAdded is < 2 ^ 32) : e'.Shows id g := by
  have hformed (t : Transaction) (ht : e'.transaction? id = some t) :
      t.view.snapshot.Formed := (hreached t ht).formed
  cases h with
  | table? hfound => exact shows_table? hformed hfound
  | requireTable hfound =>
      exact shows_table? hformed (requireTable_eq_ok.1 hfound)
  | tableByKey? hfound | importTable? hfound =>
      obtain ⟨t, ht, u, hu, rfl⟩ := tableByKey?_eq_some.1 hfound
      exact ⟨t, ht, u, hu⟩
  | importObject? hfound =>
      obtain ⟨t, ht, hlives, rfl⟩ := importObject?_eq_some.1 hfound
      exact ⟨t, ht, hasObject_iff.1 hlives⟩
  | addTable hmade => exact shows_addTable hmade
  | getOrAddTable hmade =>
      rcases gives_getOrAddTable hmade with ⟨hfound, rfl⟩ | hadded
      · exact shows_table? hformed hfound
      · exact shows_addTable hadded
  -- reads leave the engine, so what is shown is shown where it was found
  | @linkTarget? h₀ _ col _ hid hfound =>
      obtain ⟨rfl, -⟩ :=
        gives_isRead (Handle.Reads.linkTarget? h₀ col).isRead hfound
      exact shows_linkTarget? hreached hadded hid hfound
  | @object? h₀ _ key _ hid hfound =>
      obtain ⟨rfl, -⟩ :=
        gives_isRead (Handle.Reads.object? h₀ key).isRead hfound
      exact shows_object? hid hfound
  | @object h₀ _ key _ hid hfound =>
      obtain ⟨rfl, -⟩ :=
        gives_isRead (Handle.Reads.object h₀ key).isRead hfound
      exact shows_object? hid (gives_object hfound)
  | createObject hid hmade => exact shows_createObject hid hmade
  | @getLink? h₀ _ col _ hid hfound =>
      obtain ⟨rfl, -⟩ :=
        gives_isRead (Handle.Reads.getLink? h₀ col).isRead hfound
      exact shows_getLink? hreached hadded hid hfound

end Engine

end Colonnade
