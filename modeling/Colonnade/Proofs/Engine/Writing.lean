/-
What a write leaves where it fails. An instruction checks everything that it
asks for before it changes anything, and where one part of a snapshot is
changed through another (a column of a table of a snapshot) the part is put
back whether the change was made or not. What is asked for on the way is
room, and where it is refused an instruction stops in the middle.

Of the instructions only a creation can be in the middle of something then:
it gives one column after the other a cell. `write_all_or_nothing_iff` says
that a write that fails changes the view exactly if it is a creation that
breaks off behind the first column, and that the changes that were recorded
stay as they were; so the working copy and the record of what was done to it
come apart there and nowhere else. `creation_breaks_off` shows it on a table
of two columns.

Nothing is asked of the snapshot or the view. They may be ones that no
transaction could have, the instruction may name keys that were never handed
out, and the view may be of any mode and the handle of any generation.

Chain: over `Engine.Pending`; a transaction publishes what is recorded here.
-/
import Colonnade.Proofs.Engine.Pending

namespace Colonnade.View

variable {room : Room} {limits : Limits} {v v' : View}
  {generation : UInt64} {build : Snapshot → Except Error Instruction}

-- ============================================== how recording comes out

/-- A record that breaks off: the instruction was built and carried out in
part, and nothing tells of it. -/
structure BrokenOff (room : Room) (build : Snapshot → Except Error Instruction)
    (v : View) (err : Error) (v' : View) : Prop where
  broken : ∃ i, build v.snapshot = .ok i
    ∧ v.snapshot.BrokenOff room i err v'.snapshot
  alike : v' = { v with snapshot := v'.snapshot }

/-- What is built is carried out, and recorded if that succeeds. -/
theorem run_record {i : Instruction} (hbuilt : build v.snapshot = .ok i) :
    (record room limits build).run v
      = match (Snapshot.applyWithin room limits i).run v.snapshot with
        | .ok _ s => .ok i
          { v with snapshot := s, changes := v.changes.push i }
        | .error err s => .error err { v with snapshot := s } := by
  have hthere : (liftM (build v.snapshot) : Edit View Instruction).run v
      = .ok i v := by
    rw [hbuilt]
    rfl
  unfold record
  simp only [EStateM.run_bind, EStateM.run_get, hthere]
  unfold Edit.focus
  dsimp only [EStateM.run]
  cases Snapshot.applyWithin room limits i v.snapshot <;> rfl

/-- What cannot be built is not carried out. -/
theorem run_record_unbuilt {err : Error}
    (hunbuilt : build v.snapshot = .error err) :
    (record room limits build).run v = .error err v := by
  have hthere : (liftM (build v.snapshot) : Edit View Instruction).run v
      = .error err v := by
    rw [hunbuilt]
    rfl
  simp only [record, EStateM.run_bind, EStateM.run_get, hthere]

/-- A record that fails changes the view exactly if it breaks off. -/
theorem record_changes_iff {err : Error} :
    ((record room limits build).run v = .error err v' ∧ v' ≠ v)
      ↔ v.BrokenOff room build err v' := by
  constructor
  · rintro ⟨hrun, hne⟩
    cases hbuilt : build v.snapshot with
    | error err' =>
        rw [run_record_unbuilt hbuilt] at hrun
        cases hrun
        exact absurd rfl hne
    | ok i =>
        rw [run_record hbuilt] at hrun
        cases happly : (Snapshot.applyWithin room limits i).run v.snapshot with
        | ok _ s =>
            rw [happly] at hrun
            cases hrun
        | error err' s =>
            rw [happly] at hrun
            cases hrun
            have hne' : s ≠ v.snapshot := by
              rintro rfl
              exact hne rfl
            exact ⟨⟨i, hbuilt, Snapshot.applyWithin_changes_iff.1
              ⟨happly, hne'⟩⟩, rfl⟩
  · rintro ⟨⟨i, hbuilt, hbroken⟩, halike⟩
    have hfails : (Snapshot.applyWithin room limits i).run v.snapshot
          = .error err v'.snapshot ∧ v'.snapshot ≠ v.snapshot :=
      Snapshot.applyWithin_changes_iff.2 hbroken
    refine ⟨?_, fun h => hfails.2 (congrArg View.snapshot h)⟩
    rw [run_record hbuilt, hfails.1, halike]

/-- A record that fails leaves everything of the view but its snapshot. -/
theorem alike_of_record_error {err : Error}
    (hrun : (record room limits build).run v = .error err v') :
    v' = { v with snapshot := v'.snapshot } := by
  by_cases hsame : v' = v
  · rw [hsame]
  · exact (record_changes_iff.1 ⟨hrun, hsame⟩).alike

-- =============================================== how writing comes out

/-- A handle whose time is over is not answered. -/
theorem writeWithin_late (hadmits : v.admits generation = false) :
    v.writeWithin room limits generation build = (none, v) := by
  unfold writeWithin
  rw [hadmits]
  rfl

/-- A view that is not for writing refuses. -/
theorem writeWithin_idle (hadmits : v.admits generation = true)
    (hmode : v.mode ≠ .writing) :
    v.writeWithin room limits generation build
      = (some (.error (.illegalState .notWriting)), v) := by
  unfold writeWithin
  rw [if_pos hadmits, if_pos hmode]

/-- A view for writing records. -/
theorem writeWithin_writing (hadmits : v.admits generation = true)
    (hmode : v.mode = .writing) :
    v.writeWithin room limits generation build
      = match (record room limits build).run v with
        | .ok i v => (some (.ok i), v)
        | .error err v => (some (.error err), v) := by
  refine ((if_pos hadmits).trans (if_neg (not_not.2 hmode))).trans ?_
  cases (record room limits build).run v <;> rfl

/-- Whatever room there is, an instruction that fails changes the snapshot
exactly if it is a creation that breaks off. A write that is refused leaves
the view as it was; one that fails leaves the recorded changes as they were,
and changes the snapshot exactly if its instruction breaks off; and one that
succeeds records the one instruction that turned the working copy into what
it is. With room for everything nothing breaks off. -/
theorem write_all_or_nothing_iff (room : Room) (limits : Limits) :
    (∀ i s err s',
        ((Snapshot.applyWithin room limits i).run s = .error err s' ∧ s' ≠ s)
          ↔ s.BrokenOff room i err s')
      ∧ (∀ generation build (v : View),
        match v.writeWithin room limits generation build with
        | (none, v') => v.admits generation = false ∧ v' = v
        | (some (.error err), v') => v.admits generation = true
            ∧ v' = { v with snapshot := v'.snapshot }
            ∧ (v' ≠ v ↔ v.mode = .writing ∧ v.BrokenOff room build err v')
        | (some (.ok i), v') => v.admits generation = true
            ∧ Wrote limits build v i v'
            ∧ Edit.Gives (Snapshot.applyWithin room limits i) v.snapshot ()
              v'.snapshot)
      ∧ ∀ s i err s', ¬ Snapshot.BrokenOff .ample s i err s' := by
  refine ⟨fun _ _ _ _ => Snapshot.applyWithin_changes_iff,
    fun generation build v => ?_, fun _ _ _ _ =>
      Snapshot.not_brokenOff_ample⟩
  cases hadmits : v.admits generation with
  | false =>
      rw [writeWithin_late hadmits]
      exact ⟨rfl, rfl⟩
  | true =>
  by_cases hmode : v.mode = .writing
  · rw [writeWithin_writing hadmits hmode]
    cases hrun : (record room limits build).run v with
    | ok i v' =>
        -- what was built is told by the record, and what it did by its run
        have hwrote : Wrote limits build v i v' := gives_record hmode hrun
        refine ⟨rfl, hwrote, ?_⟩
        rw [run_record hwrote.built] at hrun
        cases happly : (Snapshot.applyWithin room limits i).run v.snapshot with
        | ok _ s =>
            rw [happly] at hrun
            cases hrun
            exact happly
        | error err s =>
            rw [happly] at hrun
            cases hrun
    | error err v' =>
        have hchanges : ((record room limits build).run v = .error err v'
              ∧ v' ≠ v) ↔ v.BrokenOff room build err v' := record_changes_iff
        exact ⟨rfl, alike_of_record_error hrun,
          fun hne => ⟨hmode, hchanges.1 ⟨hrun, hne⟩⟩,
          fun h => (hchanges.2 h.2).2⟩
  · rw [writeWithin_idle hadmits hmode]
    exact ⟨rfl, rfl, fun hne => absurd rfl hne, fun h => absurd h.1 hmode⟩

-- ============================================ a creation that breaks off

/-- A table of two columns. -/
def twoColumns : List Instruction :=
  [.addTable ⟨0⟩ "t", .addColumn ⟨0⟩ ⟨1⟩ (.scalar "a" .int false),
    .addColumn ⟨0⟩ ⟨2⟩ (.scalar "b" .int false)]

/-- The snapshot with that table. -/
def paired : Snapshot :=
  ((Snapshot.applyAll .none twoColumns).after? .empty).getD .empty

/-- Room for a row and for a cell in one column. -/
def oneCell : Room := ⟨(· < 2)⟩

/-- How many rows each table has, and how many cells its columns. -/
def sizes (s : Snapshot) : List (Nat × List Nat) :=
  s.tableList.map fun t => (t.size, t.columns.map Column.size)

/-- Two objects, a five in the second, and the first removed. -/
def fiveKept : List Instruction :=
  [.createObject ⟨0⟩ ⟨0⟩, .createObject ⟨0⟩ ⟨1⟩, .set ⟨0⟩ ⟨1⟩ ⟨1⟩ (.int 5),
    .removeObject ⟨0⟩ ⟨0⟩]

/-- What the second object holds in the first column after that. -/
def five? (s : Snapshot) : Option Value := do
  let s ← (Snapshot.applyAll .none fiveKept).after? s
  let t ← s.table? ⟨0⟩
  (t.valueOf ⟨1⟩ ⟨1⟩).toOption

/-- A reached snapshot that an instruction changes and fails: the second
column gets no room and the first keeps its new cell, which no row has.
Nothing of it is recorded. From then on the first column is a cell ahead of
the rows, so that removing an object takes another one's value away, where
replaying what was recorded keeps it. -/
theorem creation_breaks_off :
    Edit.Gives (Snapshot.applyAll .none twoColumns) .empty () paired
      ∧ sizes paired = [(0, [0, 0])]
      ∧ ∃ s', (Snapshot.applyWithin oneCell .none (.createObject ⟨0⟩ ⟨0⟩)).run
            paired = .error (.outOfMemory "column 'b'" 1) s'
        ∧ sizes s' = [(0, [1, 0])]
        ∧ View.writeWithin oneCell .none 0
            (fun _ => .ok (.createObject ⟨0⟩ ⟨0⟩))
            { mode := .writing, snapshot := paired }
          = (some (.error (.outOfMemory "column 'b'" 1)),
            { mode := .writing, snapshot := s' })
        ∧ five? paired = some (.int 5) ∧ five? s' = some (.int 0) := by
  have hreached : ((Snapshot.applyAll .none twoColumns).after? .empty).isSome
      = true := by decide +kernel
  obtain ⟨s, hs⟩ := Option.isSome_iff_exists.1 hreached
  obtain ⟨_, hgives⟩ := Edit.after?_eq_some.1 hs
  have hpaired : paired = s := by
    unfold paired
    rw [hs]
    rfl
  have hbroken : (match (Snapshot.applyWithin oneCell .none
        (.createObject ⟨0⟩ ⟨0⟩)).run paired with
      | .ok _ _ => none
      | .error err s' => some (err, sizes s', five? s'))
      = some (.outOfMemory "column 'b'" 1, [(0, [1, 0])],
        some (.int 0)) := by decide +kernel
  cases hrun : (Snapshot.applyWithin oneCell .none
      (.createObject ⟨0⟩ ⟨0⟩)).run paired with
  | ok _ s' =>
      rw [hrun] at hbroken
      cases hbroken
  | error err s' =>
      rw [hrun] at hbroken
      simp only [Option.some.injEq, Prod.mk.injEq] at hbroken
      obtain ⟨rfl, hsizes, hfive⟩ := hbroken
      refine ⟨hpaired ▸ hgives, by decide +kernel, s', rfl, hsizes, ?_,
        by decide +kernel, hfive⟩
      rw [writeWithin_writing rfl rfl, run_record rfl, hrun]

end Colonnade.View
