/-
What an active writer has done so far. `Pending` says that its changes, in
order and under the limits of the engine, lead from the current snapshot to
the snapshot of its view, and that no key in either is negative. Each write
adds one instruction to both sides at once, and a write that is refused adds
to neither.

When the writer commits, the changes become a record. `Pending.leadsTo` says
what the log makes of that record: if it can be written at all, the log
leads on to the snapshot that is published.

Chain: `Engine.Recoverable` asks this of the active writer.
-/
import Colonnade.Engine.Lookup
import Colonnade.Proofs.History.Replayed

namespace Colonnade

-- ===================================================== writing to a view

namespace View

variable {limits : Limits} {build : Snapshot → Except Error Instruction}
  {v v' : View}

/-- A write adds one instruction to a writing view, and it was carried
out. -/
structure Wrote (limits : Limits)
    (build : Snapshot → Except Error Instruction) (v : View)
    (i : Instruction) (v' : View) : Prop where
  writing : v.mode = .writing
  built : build v.snapshot = .ok i
  applied : Snapshot.Applied limits v.snapshot i v'.snapshot
  changes_eq : v'.changes = v.changes.push i
  mode_eq : v'.mode = v.mode
  generation_eq : v'.generation = v.generation

/-- What is recorded was built and carried out, whatever room there was. -/
theorem gives_record {room : Room} {i : Instruction}
    (hmode : v.mode = .writing)
    (h : Edit.Gives (record room limits build) v i v') :
    Wrote limits build v i v' := by
  simp only [record, Edit.gives_bind, Edit.gives_get, Edit.gives_lift,
    Edit.gives_focus, Edit.gives_modify, Edit.gives_pure, exists_unit] at h
  obtain ⟨_, _, ⟨rfl, rfl⟩, _, _, ⟨hbuilt, rfl⟩, _, ⟨s, happ, rfl⟩, _, rfl,
    rfl, rfl⟩ := h
  exact ⟨hmode, hbuilt, (Snapshot.applyWithin_gives_iff.1 happ).1, rfl, rfl,
    rfl⟩

/-- What can be built and carried out can be recorded. -/
theorem record_gives {i : Instruction} {s : Snapshot}
    (hbuilt : build v.snapshot = .ok i)
    (happ : Edit.Gives (Snapshot.apply limits i) v.snapshot () s) :
    Edit.Gives (record .ample limits build) v i
      { v with snapshot := s, changes := v.changes.push i } := by
  simp only [record, Edit.gives_bind, Edit.gives_get, Edit.gives_lift,
    Edit.gives_focus, Edit.gives_modify, Edit.gives_pure, exists_unit]
  exact ⟨_, _, ⟨rfl, rfl⟩, _, _, ⟨hbuilt, rfl⟩, _, ⟨s, happ, rfl⟩, _, rfl,
    rfl, rfl⟩

/-- What cannot be recorded leaves the view alone. -/
theorem atomic_record : Edit.Atomic (record .ample limits build) :=
  .of_get_bind fun _ => .lift_bind fun i =>
    .bind_total (.focus (Snapshot.atomic_apply limits i) fun _ => rfl)
      fun _ _ => ⟨_, _, rfl⟩

/-- A write that succeeds adds an instruction; one that does not leaves the
view alone. -/
theorem write_cases {generation : UInt64}
    {result : Option (Except Error Instruction)}
    (h : v.write limits generation build = (result, v')) :
    (∃ i, result = some (.ok i) ∧ Wrote limits build v i v')
      ∨ v' = v ∧ ∀ i, result ≠ some (.ok i) := by
  unfold write writeWithin at h
  split at h
  next =>
    split at h
    next =>
      cases h
      exact .inr ⟨rfl, nofun⟩
    next hmode =>
      cases hrun : (record .ample limits build).run v with
      | ok i w =>
          rw [hrun] at h
          cases h
          exact .inl ⟨i, rfl, gives_record (Decidable.not_not.1 hmode) hrun⟩
      | error err w =>
          rw [hrun] at h
          cases h
          exact .inr ⟨atomic_record _ _ _ hrun, nofun⟩
  next =>
    cases h
    exact .inr ⟨rfl, nofun⟩

end View

-- =============================================== what a writer has done

namespace Transaction

/-- Whether a transaction is a writer that has not ended. -/
def IsWriting (t : Transaction) : Prop :=
  ∃ holdsSlot, t.role = .writer .active holdsSlot

/-- How a writer got from the current snapshot to its own. -/
structure Pending (current : Snapshot) (limits : Limits) (t : Transaction) :
    Prop where
  pinned_eq : t.pinned = current.version
  applied : Edit.Gives (Snapshot.applyAll limits t.view.changes.toList)
    current () t.view.snapshot
  changes : ∀ i ∈ t.view.changes.toList, i.KeysNonneg
  keys : t.view.snapshot.KeysNonneg

variable {current : Snapshot} {limits : Limits} {t : Transaction}

/-- A writer that begins has done nothing. -/
theorem pending_begin (hkeys : current.KeysNonneg) (role : Role) :
    Pending current limits
      ⟨{ mode := .writing, snapshot := current }, current.version, role⟩ where
  pinned_eq := rfl
  applied := Edit.gives_pure.2 ⟨rfl, rfl⟩
  changes _ h := by simp at h
  keys := hkeys

/-- A write adds its instruction to the changes. -/
theorem Pending.wrote (h : Pending current limits t)
    {build : Snapshot → Except Error Instruction} {i : Instruction}
    {v : View} (hwrote : View.Wrote limits build t.view i v)
    (hnew : ∀ table key, i = .createObject table key → 0 ≤ key.raw) :
    Pending current limits { t with view := v } := by
  have hi : i.KeysNonneg := h.keys.instruction hwrote.applied hnew
  have hchanges : v.changes.toList = t.view.changes.toList ++ [i] := by
    rw [hwrote.changes_eq, Array.toList_push]
  constructor
  · exact h.pinned_eq
  · show Edit.Gives (Snapshot.applyAll limits v.changes.toList) _ _ _
    rw [hchanges, Snapshot.gives_applyAll_append]
    exact ⟨_, h.applied, Snapshot.gives_applyAll_singleton.2
      (Snapshot.apply_gives_iff.2 hwrote.applied)⟩
  · show ∀ j ∈ v.changes.toList, j.KeysNonneg
    rw [hchanges]
    intro j hj
    rcases List.mem_append.1 hj with hj | hj
    · exact h.changes j hj
    · exact List.mem_singleton.1 hj ▸ hi
  · exact h.keys.applied hwrote.applied hi

/-- A log that leads to the current snapshot leads on to what is published,
once the record of the changes is in it. -/
theorem Pending.leadsTo (h : Pending current limits t) {bytes data : Bytes}
    (hlog : HistoryLog.LeadsTo bytes current)
    (hencode : Wire.encode Wire.newestFormat
      ⟨current.version.next, t.view.changes.toList⟩ = .ok data) :
    HistoryLog.LeadsTo (bytes ++ data)
      { t.view.snapshot with version := current.version.next } :=
  hlog.append_encoded rfl h.applied h.changes hencode

end Transaction

end Colonnade
