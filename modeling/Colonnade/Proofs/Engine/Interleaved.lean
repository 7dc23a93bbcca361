/-
A commit with writes between its steps. Handles of a transaction can be used
while the transaction commits, and the commit does not hold the view from
its first step to its last. It takes the changes out; it looks at the
snapshot; it publishes what it took and what it saw; it closes the view.
Each of the four is one step, and a write through a handle is another, so a
run is any list of such moves (`Move`). With no writes among them the steps
are those of `Engine.commit` (`run_uninterrupted`).

A write that comes after the changes were taken and before the snapshot was
looked at is late. The list `late` holds the writes of that kind that
succeeded; it is empty if the commit looks as soon as it has taken
(`late_run_of_adjacent`).

Chain: `Engine.Committed` follows what such a run publishes and logs.
-/
import Colonnade.Proofs.Engine.Run

namespace Colonnade.Engine

-- ============================================================= the moves

/-- How far a commit has come. -/
inductive Stage where
  | begun
  | taken (changes : List Instruction)
  | looked (changes : List Instruction) (working : Snapshot)
  | published (record : CommitRecord) (next : Snapshot)
  | closed (record : CommitRecord) (next : Snapshot)
  | failed

/-- What was published, and the record of it. -/
def Stage.outcome? : Stage → Option (CommitRecord × Snapshot)
  | published record next => some (record, next)
  | closed record next => some (record, next)
  | _ => none

/-- An engine in which a transaction commits. The writes that succeeded
until the snapshot was looked at are `written`, and those among them that
came after the changes were taken are `late`. -/
structure Committing where
  engine : Engine
  stage : Stage
  written : List Instruction
  late : List Instruction

namespace Committing

/-- The next step of the commit. -/
def step (id : TransactionId) (c : Committing) : Committing :=
  match c.stage with
  | .begun =>
    match (takeChanges id).run c.engine with
    | .ok changes engine => { c with engine, stage := .taken changes }
    | .error _ engine => { c with engine, stage := .failed }
  | .taken changes =>
    match c.engine.requireTransaction id with
    | .ok t => { c with stage := .looked changes t.view.snapshot }
    | .error _ => { c with stage := .failed }
  | .looked changes working =>
    match (conclude id working changes).run c.engine with
    | .ok next engine =>
      { c with
        engine
        stage := .published ⟨c.engine.version.next, changes⟩ next }
    | .error _ engine => { c with engine, stage := .failed }
  | .published record next =>
    match (mapView id (View.replace next .closed true)).run c.engine with
    | .ok _ engine => { c with engine, stage := .closed record next }
    | .error _ engine => { c with engine, stage := .failed }
  | .closed _ _ => c
  | .failed => c

/-- A write that succeeded. -/
def noted (i : Instruction) (c : Committing) : Committing :=
  match c.stage with
  | .begun => { c with written := c.written ++ [i] }
  | .taken _ =>
    { c with written := c.written ++ [i], late := c.late ++ [i] }
  | _ => c

/-- A write through a handle of the transaction. -/
def write (id : TransactionId) (generation : UInt64) (stale : Error)
    (build : Snapshot → Except Error Instruction) (c : Committing) :
    Committing :=
  match (Anchor.write ⟨id, generation⟩ stale build).run c.engine with
  | .ok i engine => { c.noted i with engine }
  | .error _ engine => { c with engine }

end Committing

/-- The next step of the commit, or a write by somebody else. -/
inductive Move where
  | commit
  | write (generation : UInt64) (stale : Error)
      (build : Snapshot → Except Error Instruction)

namespace Committing

def move (id : TransactionId) (c : Committing) : Move → Committing
  | .commit => c.step id
  | .write generation stale build => c.write id generation stale build

def run (id : TransactionId) (c : Committing) (moves : List Move) :
    Committing :=
  moves.foldl (move id) c

/-- A commit that is about to take its first step; what the transaction has
written so far is recorded in its view. -/
def start (e : Engine) (t : Transaction) : Committing :=
  ⟨e, .begun, t.view.changes.toList, []⟩

/-- Whether a write creates no object under a negative key. -/
def Fits (id : TransactionId) (c : Committing) : Move → Prop
  | .commit => True
  | .write _ _ build => ∀ t, c.engine.transaction? id = some t →
      CreatesNonneg build t.view.snapshot

/-- The same of every write of a run. -/
def NoKeyWraps (id : TransactionId) : Committing → List Move → Prop
  | _, [] => True
  | c, m :: ms => c.Fits id m ∧ NoKeyWraps id (c.move id m) ms

-- ============================================== steps without any writes

variable {e : Engine} {id : TransactionId} {t : Transaction}

/-- Without writes in between, the steps are those of a commit. -/
theorem run_uninterrupted (ht : e.transaction? id = some t)
    (hw : t.IsWriting) :
    ((start e t).run id [.commit, .commit, .commit, .commit]).engine
      = (Call.commit id).step e := by
  have hcommit : (Call.commit id).step e
      = match (conclude id t.view.snapshot t.view.changes.toList).run
          (takenFrom e id t) with
        | .ok next engine =>
          match (mapView id (View.replace next .closed true)).run engine with
          | .ok _ engine => engine
          | .error _ engine => engine
        | .error _ engine => engine := by
    unfold Call.step Call.run Engine.commit
    rw [EStateM.run_bind, EStateM.run_bind, run_publishChanges ht hw]
    cases (conclude id t.view.snapshot t.view.changes.toList).run
      (takenFrom e id t) <;> rfl
  rw [hcommit]
  unfold run start
  simp only [List.foldl_cons, List.foldl_nil, move, step,
    run_takeChanges ht, requireTransaction_takenFrom]
  cases (conclude id t.view.snapshot t.view.changes.toList).run
      (takenFrom e id t) <;> rfl

-- =========================================== taking and looking in one

variable {c : Committing}

/-- Writing does not take a commit on. -/
theorem stage_write (generation : UInt64) (stale : Error)
    (build : Snapshot → Except Error Instruction) :
    (c.write id generation stale build).stage = c.stage := by
  obtain ⟨e, stage, written, late⟩ := c
  unfold write noted
  split
  next => cases stage <;> rfl
  next => rfl

theorem late_step : (c.step id).late = c.late := by
  unfold step
  cases c.stage with
  | begun | taken | looked | published =>
      dsimp only
      split <;> rfl
  | closed | failed => rfl

/-- Only a write between taking and looking is late. -/
theorem late_write (generation : UInt64) (stale : Error)
    (build : Snapshot → Except Error Instruction)
    (hstage : ∀ changes, c.stage ≠ .taken changes) :
    (c.write id generation stale build).late = c.late := by
  unfold write noted
  split
  next =>
    cases hc : c.stage with
    | taken changes => exact (hstage changes hc).elim
    | begun | looked | published | closed | failed => rfl
  next => rfl

/-- Whether the snapshot was looked at, or never will be. -/
def Past (c : Committing) : Prop :=
  c.stage ≠ .begun ∧ ∀ changes, c.stage ≠ .taken changes

/-- Behind the look at the snapshot no move is late. -/
theorem Past.move (h : c.Past) (m : Move) :
    (c.move id m).Past ∧ (c.move id m).late = c.late := by
  cases m with
  | commit =>
      refine ⟨?_, late_step⟩
      unfold Past Committing.move step
      cases hstage : c.stage with
      | begun => exact (h.1 hstage).elim
      | taken changes => exact (h.2 changes hstage).elim
      | looked | published =>
          dsimp only
          split <;> exact ⟨nofun, nofun⟩
      | closed | failed =>
          dsimp only
          rw [hstage]
          exact ⟨nofun, nofun⟩
  | write generation stale build =>
      refine ⟨?_, late_write generation stale build h.2⟩
      unfold Past Committing.move
      rw [stage_write]
      exact h

/-- Behind the look at the snapshot no run is late. -/
theorem Past.late_run (h : c.Past) (moves : List Move) :
    (c.run id moves).late = c.late := by
  induction moves generalizing c with
  | nil => rfl
  | cons m ms ih =>
      have hmove : (c.move id m).Past ∧ (c.move id m).late = c.late :=
        h.move m
      exact (ih hmove.1).trans hmove.2

/-- Two steps are to take the changes and to look at the snapshot. -/
theorem past_step_step (hbegun : c.stage = .begun) :
    ((c.step id).step id).Past := by
  have hfailed (c : Committing) (h : c.stage = .failed) : c.Past := by
    unfold Past
    rw [h]
    exact ⟨nofun, nofun⟩
  have htaken (c : Committing) (changes : List Instruction)
      (h : c.stage = .taken changes) : (c.step id).Past := by
    unfold Past step
    rw [h]
    dsimp only
    split <;> exact ⟨nofun, nofun⟩
  cases hrun : (takeChanges id).run c.engine with
  | ok changes e' =>
      refine htaken _ changes ?_
      unfold step
      rw [hbegun]
      dsimp only
      rw [hrun]
  | error err e' =>
      have hstep : (c.step id).stage = .failed := by
        unfold step
        rw [hbegun]
        dsimp only
        rw [hrun]
      exact ((hfailed _ hstep).move .commit).1

/-- Nothing is late if the commit looks as soon as it has taken. -/
theorem late_run_of_adjacent {before after : List Move}
    (hbegun : c.stage = .begun) (hlate : c.late = [])
    (hbefore : ∀ m ∈ before, m ≠ .commit) :
    (c.run id (before ++ .commit :: .commit :: after)).late = [] := by
  induction before generalizing c with
  | nil =>
      have hpast : ((c.step id).step id).Past := past_step_step hbegun
      exact (hpast.late_run after).trans
        (late_step.trans (late_step.trans hlate))
  | cons m ms ih =>
      obtain ⟨hm, hms⟩ := List.forall_mem_cons.1 hbefore
      cases m with
      | commit => exact (hm rfl).elim
      | write generation stale build =>
          refine ih ((stage_write ..).trans hbegun) ?_ hms
          refine (late_write generation stale build ?_).trans hlate
          rw [hbegun]
          nofun

end Committing

end Colonnade.Engine
