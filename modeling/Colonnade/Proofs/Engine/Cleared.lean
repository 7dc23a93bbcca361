/-
Clearing a table through a handle. The keys of the objects are read once, and
the objects are then removed one by one, each by a write of its own; there is
nothing that would take the first removals back if a later one failed. None
does: a removal takes out no object but its own, so whatever was on the list
and has not had its turn is still there.

`gives_removeObjects` is the loop. It asks only that the instructions can be
carried out one after the other on the working copy, and says what the
engine is afterwards; that they can is a fact about snapshots.

Chain: over `Snapshot.Cleared`, which has the instructions, and
`Engine.Annals`, which has what a working copy comes from.
-/
import Colonnade.Proofs.Engine.Annals
import Colonnade.Proofs.Engine.Uses
import Colonnade.Proofs.Snapshot.Cleared

namespace Colonnade

open Snapshot

/-- The view after instructions were carried out and recorded. -/
def View.recorded (v : View) (is : List Instruction) (s : Snapshot) : View :=
  { v with snapshot := s, changes := v.changes ++ is.toArray }

theorem View.recorded_append (v : View) (is js : List Instruction)
    (m s : Snapshot) :
    (v.recorded is m).recorded js s = v.recorded (is ++ js) s := by
  simp [recorded]

namespace Engine

variable {e e' : Engine} {id : TransactionId} {t : Transaction}
  {h : TableHandle} {key : ObjectKey} {gone : List ObjectKey}
  {s s' : Snapshot}

/-- A transaction that is put where it was. -/
theorem same_withTransaction (ht : e.transaction? id = some t) :
    Same (e.withTransaction id t) e :=
  ⟨rfl, rfl, rfl, rfl, rfl, rfl, rfl, fun a => by
    rw [transaction?_withTransaction]
    split
    next heq => rw [heq, ht]
    next => rfl⟩

/-- A removal that the working copy allows is made through the handle. -/
theorem gives_removeObject (ht : e.transaction? h.anchor.transaction = some t)
    (hadmits : t.view.admits h.anchor.generation = true)
    (hmode : t.view.mode = .writing)
    (happ : Edit.Gives (apply e.limits (.removeObject h.key key))
      t.view.snapshot () s) :
    Edit.Gives (h.removeObject key) e ()
      (e.withTransaction h.anchor.transaction
        { t with view := t.view.recorded [.removeObject h.key key] s }) := by
  have hbuild : (h.resolve t.view.snapshot >>= fun _ =>
      pure (Instruction.removeObject h.key key) : Except Error Instruction)
        = .ok (.removeObject h.key key) := by
    cases apply_gives_iff.1 happ with
    | removeObject htable hslot =>
        unfold TableHandle.resolve
        rw [htable]
        rfl
  have hrecord : Edit.Gives (View.record .ample e.limits fun s => do
      let _ ← h.resolve s
      return .removeObject h.key key) t.view _ _ :=
    View.record_gives hbuild happ
  exact Edit.gives_bind.2
    ⟨_, _, Anchor.gives_write ht hadmits hmode hrecord, rfl⟩

/-- Removals that the working copy allows one after the other are made
through the handle one after the other. -/
theorem gives_removeObjects
    (ht : e.transaction? h.anchor.transaction = some t)
    (hadmits : t.view.admits h.anchor.generation = true)
    (hmode : t.view.mode = .writing)
    (happ : Edit.Gives
      (applyAll e.limits (gone.map (.removeObject h.key ·)))
      t.view.snapshot () s) :
    ∃ e', Edit.Gives (gone.forM h.removeObject) e () e'
      ∧ Same (e.withTransaction h.anchor.transaction { t with
          view := t.view.recorded (gone.map (.removeObject h.key ·)) s }) e' := by
  induction gone generalizing e t with
  | nil =>
      obtain ⟨-, rfl⟩ := Edit.gives_pure.1 happ
      refine ⟨e, rfl, same_withTransaction ?_⟩
      simpa [View.recorded] using ht
  | cons key gone ih =>
      obtain ⟨m, hone, hothers⟩ := Edit.gives_forM_cons.1 happ
      let t₁ : Transaction :=
        { t with view := t.view.recorded [.removeObject h.key key] m }
      have hremoved : Edit.Gives (h.removeObject key) e ()
          (e.withTransaction h.anchor.transaction t₁) :=
        gives_removeObject ht hadmits hmode hone
      obtain ⟨e', hgives, hsame⟩ :=
        ih (t := t₁) (transaction?_self e _ _) hadmits hmode hothers
      refine ⟨e', Edit.gives_forM_cons.2 ⟨_, hremoved, hgives⟩, ?_⟩
      have hview : t₁.view.recorded (gone.map (.removeObject h.key ·)) s
          = t.view.recorded ((key :: gone).map (.removeObject h.key ·)) s :=
        View.recorded_append t.view _ _ m s
      rw [← hview]
      exact (same_twice e _ t₁ _).symm.trans hsame

/-- A handle of a transaction that is not a reader is valid only while the
transaction writes. -/
theorem Orderly.mode_of_isValid (he : e.Orderly)
    (ht : e.transaction? h.anchor.transaction = some t)
    (hwriter : t.role ≠ .reader) (hvalid : h.isValid e = true) :
    t.view.admits h.anchor.generation = true ∧ t.view.mode = .writing
      ∧ ∃ table, t.view.snapshot.table? h.key = some table := by
  obtain ⟨u, hu, hadmits, hlives⟩ :=
    Handle.isValid_iff (h := .table h).1 hvalid
  obtain rfl := Option.some.inj (ht.symm.trans hu)
  refine ⟨hadmits, ?_, hlives⟩
  obtain ⟨hopen, -⟩ := View.admits_iff.1 hadmits
  rw [(he.settled _ t ht).mode_eq] at hopen ⊢
  cases hrole : t.role with
  | reader => exact absurd hrole hwriter
  | writer state holdsSlot =>
      rw [hrole] at hopen
      cases state with
      | active => rfl
      | committed => exact absurd rfl hopen
      | rolledBack => exact absurd rfl hopen

/-- Clearing a table through a valid handle of a write transaction succeeds.
It records one removal for each object that there was, in ascending order of
the keys, and nothing else, and it changes nothing in the engine but the view
of the transaction. In the working copy the table keeps its columns and
counters and has no objects; the other tables have lost the links to those,
and nothing else. What is asked is that no table has been given more objects
than there are keys. -/
theorem clear_empties_table {is : List Instruction} {s : Snapshot}
    (hopened : Reached is s) (log : Option HistoryLog) (limits : Limits)
    {events : List Event} (htyped : TypedRun (starting s log limits) events)
    {h : TableHandle} {t : Transaction} :
    let e := (starting s log limits).through events
    let n := (Annals.opening is).through (starting s log limits) events
    let id := h.anchor.transaction
    e.transaction? id = some t → t.role ≠ .reader → h.isValid e = true →
    (∀ k, objectsCreated k (instructions (n.seen id)) ≤ 2 ^ 64) →
    ∃ table s' e', t.view.snapshot.table? h.key = some table
      ∧ table.objectKeys.Pairwise (·.raw < ·.raw)
      ∧ (∀ key, key ∈ table.objectKeys ↔ table.contains key = true)
      ∧ Edit.Gives h.clear e () e'
      ∧ Same e' (e.withTransaction id { t with
          view := t.view.recorded
            (table.objectKeys.map (.removeObject h.key ·)) s' })
      ∧ t.view.snapshot.Cleared h.key table.objectKeys s' := by
  intro e n id ht hwriter hvalid hfew
  have he : e.Orderly := (orderly_starting s log limits).through htyped
  have htold : Told n e :=
    (told_starting hopened log limits).through (orderly_starting _ _ _) htyped
  have hsound : t.view.snapshot.Sound := (htold.shown id t ht).1.sound hfew
  obtain ⟨hadmits, hmode, table, htable⟩ :=
    he.mode_of_isValid ht hwriter hvalid
  obtain ⟨s', happ, hcleared⟩ := hsound.clear e.limits htable
  obtain ⟨e', hgives, hsame⟩ := gives_removeObjects ht hadmits hmode happ
  have hrows := (hsound.slotted h.key table htable).rows
  have hkeys : Edit.Gives h.objectKeys e table.objectKeys e := by
    have hrun := Handle.run_read (h := .table h) ht hadmits
      (Handle.resolve_table_eq_ok.2 htable)
      (f := fun t => return t.objectKeys)
    exact hrun
  refine ⟨table, s', e', htable, hrows.ascending_sortedKeys, fun key => ?_,
    Edit.gives_bind.2 ⟨_, _, hkeys, hgives⟩, hsame.symm, hcleared⟩
  rw [Table.contains_iff]
  exact hrows.mem_sortedKeys

/-- A table of three objects, of which the first has gone and the others link
to each other, and a table with a list of links to both. -/
def linksBothWays : List Event :=
  let a : TableHandle := ⟨⟨⟨1⟩, 0⟩, ⟨0⟩⟩
  let b : TableHandle := ⟨⟨⟨1⟩, 0⟩, ⟨1⟩⟩
  [.beginWrite, .addTable ⟨1⟩ "a", .addTable ⟨1⟩ "b",
    .addColumn a (.link "other" ⟨0⟩), .addColumn b (.linkList "all" ⟨0⟩),
    .createObject a, .createObject a, .createObject a, .createObject b,
    .removeObject a ⟨0⟩, .set ⟨a.anchor, ⟨0⟩, ⟨1⟩⟩ ⟨1⟩ (.link ⟨2⟩),
    .set ⟨a.anchor, ⟨0⟩, ⟨2⟩⟩ ⟨1⟩ (.link ⟨1⟩),
    .listPush ⟨b.anchor, ⟨1⟩, ⟨0⟩⟩ ⟨4294967297⟩ (.link ⟨2⟩),
    .listPush ⟨b.anchor, ⟨1⟩, ⟨0⟩⟩ ⟨4294967297⟩ (.link ⟨1⟩)].map .call

/-- The first table is cleared although each removal cuts a link from what is
removed next, or to it. -/
theorem linksBothWays_cleared :
    let e := (inMemory {}).through linksBothWays
    let h : TableHandle := ⟨⟨⟨1⟩, 0⟩, ⟨0⟩⟩
    ∃ t s' e', e.transaction? ⟨1⟩ = some t ∧ Edit.Gives h.clear e () e'
      ∧ (e'.transaction? ⟨1⟩).map (·.view.changes.toList)
        = some (t.view.changes.toList
          ++ [.removeObject ⟨0⟩ ⟨1⟩, .removeObject ⟨0⟩ ⟨2⟩])
      ∧ t.view.snapshot.Cleared ⟨0⟩ [⟨1⟩, ⟨2⟩] s' := by
  intro e h
  let n := (Annals.opening []).through (inMemory {}) linksBothWays
  have htyped : TypedRun (inMemory {}) linksBothWays := by
    simp [linksBothWays, TypedRun, Event.Typed]
  have hlength : (instructions (n.seen ⟨1⟩)).length = 13 := by decide +kernel
  have hfew (k : TableKey) :
      objectsCreated k (instructions (n.seen ⟨1⟩)) ≤ 2 ^ 64 := by
    have hcount : objectsCreated k (instructions (n.seen ⟨1⟩))
        ≤ (instructions (n.seen ⟨1⟩)).length := List.countP_le_length
    omega
  have hrole : (e.transaction? ⟨1⟩).map (·.role)
      = some (.writer .active true) := by decide +kernel
  have hkeys : (e.transaction? ⟨1⟩).bind (fun t =>
      (t.view.snapshot.table? ⟨0⟩).map (·.rows.keys))
        = some #[⟨2⟩, ⟨1⟩] := by decide +kernel
  have hvalid : h.isValid e = true := by decide +kernel
  obtain ⟨t, ht, hwriter⟩ := Option.map_eq_some_iff.1 hrole
  obtain ⟨table, s', e', htable, -, -, hgives, hsame, hcleared⟩ :=
    clear_empties_table Reached.empty none _ htyped (h := h) ht
      (by rw [hwriter]; exact nofun) hvalid hfew
  have hsorted : table.objectKeys = [⟨1⟩, ⟨2⟩] := by
    have hslots : table.rows.keys = #[⟨2⟩, ⟨1⟩] := by
      rw [ht, Option.bind_some, show ⟨0⟩ = h.key from rfl, htable] at hkeys
      exact Option.some.inj hkeys
    have hle : ObjectKey.le ⟨2⟩ ⟨1⟩ = false := by decide
    simp [Table.objectKeys, Rows.sortedKeys, hslots, List.mergeSort, hle]
  rw [hsorted] at hsame hcleared
  refine ⟨t, s', e', ht, hgives, ?_, hcleared⟩
  rw [hsame.transaction?_eq]
  simp [transaction?_withTransaction, View.recorded, h]

end Engine

end Colonnade
