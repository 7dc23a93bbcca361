/-
Calls on many transactions at once. What a call does under one lock is one
step, and between two steps of a call anything may happen to other
transactions, and through handles to its own. A commit publishes, with what
it published made current; it frees the writer slot; it gives the view what
it published; and if it goes on to read, it pins that version and takes the
pin off the version that it began on. To move on, a reader has its pin moved
in one step and is shown the new version in the next. Whoever is dropped
closes the view, frees the slot if it is a writer, and takes the pin off.

`Traffic` is an engine with the calls that are under way on it, and a run is
any list of `Move`s: the first step of a call, or the next step of one that
is under way. No two calls run on one transaction at a time, since a call has
the transaction to itself. A move that cannot be made, as when the slot is
taken, changes nothing, so a run may also say where somebody waits. Without
others in between, the steps are those of `Engine` (`run_uninterrupted`).

The engine counts how many versions were reclaimed; which ones they were is
kept here beside it, in `counted`.

Chain: `Engine.Courses` says what a move does to the pins, and
`Engine.Handover` follows them along a run.
-/
import Colonnade.Proofs.Engine.Events
import Colonnade.Proofs.Pins
import Mathlib.Logic.Function.Basic

namespace Colonnade

namespace Engine

/-- The engine after an edit, whether it succeeds or fails. -/
def leave {α : Type} (x : Edit Engine α) (e : Engine) : Engine :=
  match x.run e with
  | .ok _ e' => e'
  | .error _ e' => e'

/-- Publishes what a transaction has changed, and nothing else. -/
def publishTaken (id : TransactionId) : Edit Engine Snapshot := do
  let changes ← takeChanges id
  let working := (← (← get).requireTransaction id).view.snapshot
  publish working changes

-- ============================================================= the moves

namespace Traffic

/-- How far a call on a transaction has come. A commit that goes on to read
is told from one that does not, and a transaction that is to be dropped from
one that stays. -/
inductive Phase where
  | published (next : Snapshot) (goesOn : Bool)
  | released (next : Snapshot) (goesOn : Bool)
  | shown (next : Snapshot)
  | repinned (base : Version)
  | moved (next : Snapshot)
  | refused (leaves : Bool)
  | closed (leaves : Bool)
  | leaving

/-- The first step of a call, the next step of the call on a transaction, or
a call through a handle. -/
inductive Move where
  | beginRead
  | acquire
  | enter
  | commit (id : TransactionId) (goesOn : Bool)
  | rollback (id : TransactionId)
  | advance (id : TransactionId)
  | drop (id : TransactionId)
  | proceed (id : TransactionId)
  | handle (c : Call)

/-- Whether a move may publish a version. -/
def Move.commits : Move → Bool
  | commit _ _ => true
  | _ => false

end Traffic

open Traffic

/-- An engine with calls under way. Somebody may have taken the writer slot
and not have entered yet. -/
structure Traffic where
  engine : Engine
  under : TransactionId → Option Phase := fun _ => none
  entering : Bool := false
  counted : List Version := []

namespace Traffic

/-- The engine as a step leaves it, and how far the call on a transaction has
come. -/
def mark (id : TransactionId) (phase : Option Phase) (e : Engine)
    (c : Traffic) : Traffic :=
  { c with engine := e, under := Function.update c.under id phase }

/-- Counts versions as reclaimed. -/
def tell (gone : List Version) (c : Traffic) : Traffic :=
  { c with counted := c.counted ++ gone }

-- ======================================================== the first steps

/-- Takes the writer slot if it is free. -/
def acquire (c : Traffic) : Traffic :=
  match acquireWriter.run c.engine with
  | .ok true e => { c with engine := e, entering := true }
  | _ => c

/-- Begins the transaction that the slot was taken for. -/
def enter (c : Traffic) : Traffic :=
  if c.entering then
    { c with
      entering := false
      engine := c.engine.leave do
        let _ ← openView .writing (.writer .active true)
        count fun s => { s with writeTransactions := s.writeTransactions + 1 } }
  else c

/-- Closes the view of a transaction that is to be dropped. -/
def drop (id : TransactionId) (c : Traffic) : Traffic :=
  match c.engine.transaction? id with
  | none => c
  | some t =>
    let closed := c.engine.leave (mapView id View.close)
    match t.role with
    | .writer .active _ => c.mark id (some (.closed true)) closed
    | _ => c.mark id (some .leaving) closed

/-- Publishes what an active writer has changed. Whoever wanted to go on to
read and cannot is dropped. -/
def commit (id : TransactionId) (goesOn : Bool) (c : Traffic) : Traffic :=
  match c.engine.requireActive id with
  | .error _ => if goesOn then c.drop id else c
  | .ok _ =>
    match (publishTaken id).run c.engine with
    | .ok next e =>
      (c.mark id (some (.published next goesOn)) e).tell
        (c.engine.pins.superseded next.version)
    | .error _ e => c.mark id (some (.refused goesOn)) e

/-- Closes the view of an active writer. -/
def rollback (id : TransactionId) (c : Traffic) : Traffic :=
  match c.engine.requireActive id with
  | .error _ => c
  | .ok _ =>
    c.mark id (some (.closed false)) (c.engine.leave (mapView id View.close))

/-- Moves the pin of a transaction to the current version. -/
def advance (id : TransactionId) (c : Traffic) : Traffic :=
  match c.engine.transaction? id with
  | none => c
  | some t =>
    let version := c.engine.version
    if version = t.pinned then c
    else
      let repinned := c.engine.leave do
        pin version
        put id { t with pinned := version }
        unpin t.pinned
      (c.mark id (some (.moved c.engine.current)) repinned).tell
        ((c.engine.pins.pin version).lapsed t.pinned)

-- ========================================================= the next steps

/-- Makes the next step of the call on a transaction. -/
def proceed (id : TransactionId) (c : Traffic) : Traffic :=
  match c.under id with
  | none => c
  | some (.published next goesOn) =>
    c.mark id (some (.released next goesOn))
      (c.engine.leave (finish id .committed))
  | some (.released next false) =>
    c.mark id none
      (c.engine.leave (mapView id (View.replace next .closed true)))
  | some (.released next true) =>
    c.mark id (some (.shown next))
      (c.engine.leave (mapView id (View.replace next .reading false)))
  | some (.shown next) =>
    match c.engine.transaction? id with
    | none => c.mark id none c.engine
    | some t =>
      c.mark id (some (.repinned t.pinned)) (c.engine.leave do
        pin next.version
        put id { t with pinned := next.version, role := .reader })
  | some (.repinned base) =>
    (c.mark id none (c.engine.leave (unpin base))).tell
      (c.engine.pins.lapsed base)
  | some (.moved next) =>
    c.mark id none (c.engine.leave do
      mapView id (View.replace next .reading true)
      count fun s => { s with advances := s.advances + 1 })
  | some (.refused leaves) =>
    c.mark id (some (.closed leaves))
      (c.engine.leave (mapView id View.close))
  | some (.closed leaves) =>
    c.mark id (if leaves then some .leaving else none) (c.engine.leave do
      finish id .rolledBack
      count fun s => { s with rollbacks := s.rollbacks + 1 })
  | some .leaving =>
    match c.engine.transaction? id with
    | none => c.mark id none c.engine
    | some t =>
      (c.mark id none (c.engine.leave do
        modify fun e => { e with transactions := e.transactions.erase id }
        unpin t.pinned)).tell (c.engine.pins.lapsed t.pinned)

/-- Begins a call on a transaction, unless one is under way. -/
def begin (id : TransactionId) (first : Traffic → Traffic) (c : Traffic) :
    Traffic :=
  if (c.under id).isSome then c else first c

def move (c : Traffic) : Move → Traffic
  | .beginRead => { c with engine := c.engine.leave Engine.beginRead }
  | .acquire => c.acquire
  | .enter => c.enter
  | .commit id goesOn => c.begin id (commit id goesOn)
  | .rollback id => c.begin id (rollback id)
  | .advance id => c.begin id (advance id)
  | .drop id => c.begin id (drop id)
  | .proceed id => c.proceed id
  | .handle call =>
    if call.turnsOver then c else { c with engine := call.step c.engine }

def run (c : Traffic) (moves : List Move) : Traffic := moves.foldl move c

/-- An engine on which no call is under way. -/
def quiet (e : Engine) : Traffic := { engine := e }

end Traffic

end Engine

open Engine Traffic

/-- The moves of a call that nobody comes in between. Those that are not
needed, since the call has ended, change nothing. -/
def Call.moves : Call → List Traffic.Move
  | beginRead => [.beginRead]
  | beginWrite => [.acquire, .enter]
  | commit id => [.commit id false, .proceed id, .proceed id]
  | commitAndRead id =>
    [.commit id true, .proceed id, .proceed id, .proceed id, .proceed id]
  | rollback id => [.rollback id, .proceed id]
  | drop id => [.drop id, .proceed id, .proceed id]
  | advance id => [.advance id, .proceed id]
  | call => [.handle call]

namespace Engine

variable {e : Engine} {id : TransactionId} {t : Transaction}

-- ================================================ what the steps leave

/-- A step that succeeds leaves the engine it gives. -/
theorem leave_of_ok {α : Type} {x : Edit Engine α} {a : α} {e' : Engine}
    (hrun : x.run e = .ok a e') : leave x e = e' := by
  unfold leave
  rw [hrun]

/-- A step that fails leaves the engine it fails in. -/
theorem leave_of_error {α : Type} {x : Edit Engine α} {err : Error}
    {e' : Engine} (hrun : x.run e = .error err e') : leave x e = e' := by
  unfold leave
  rw [hrun]

/-- Behind a step that succeeds, what is left is left by the next one. -/
theorem leave_bind {α β : Type} {x : Edit Engine α} {f : α → Edit Engine β}
    {a : α} {e' : Engine} (hrun : x.run e = .ok a e') :
    leave (x >>= f) e = leave (f a) e' := by
  unfold leave
  rw [EStateM.run_bind, hrun]

/-- Behind a step that fails nothing more happens. -/
theorem leave_bind_error {α β : Type} {x : Edit Engine α}
    {f : α → Edit Engine β} {err : Error} {e' : Engine}
    (hrun : x.run e = .error err e') : leave (x >>= f) e = e' := by
  unfold leave
  rw [EStateM.run_bind, hrun]

theorem leave_done {α : Type} (x : Edit Engine α) (e : Engine) :
    leave (do let _ ← x) e = leave x e := by
  unfold leave
  rw [run_done]
  cases x.run e <;> rfl

/-- A call leaves what its operation leaves. -/
theorem step_eq_leave (call : Call) : call.step e = leave call.run e := by
  unfold Call.step leave
  cases call.run.run e <;> rfl

/-- A transaction that is gone has no view to change. -/
theorem leave_mapView_none (hnone : e.transaction? id = none)
    (f : View → View) : leave (mapView id f) e = e := by
  unfold leave mapView
  rw [EStateM.run_modify]
  dsimp only
  rw [hnone]

/-- Changing a view changes it in its own transaction only. -/
theorem transaction?_mapView (f : View → View) (a : TransactionId) :
    (leave (mapView id f) e).transaction? a
      = if a = id then
          (e.transaction? id).map fun t => { t with view := f t.view }
        else e.transaction? a := by
  cases ht : e.transaction? id with
  | none =>
      rw [leave_mapView_none ht]
      split
      next heq => rw [heq, ht]; rfl
      next => rfl
  | some t =>
      rw [leave_of_ok (run_mapView ht f)]
      exact transaction?_withTransaction a

/-- A transaction that has finished, if it is one that writes. -/
def finished (state : TransactionState) (t : Transaction) : Transaction :=
  match t.role with
  | .writer _ _ => { t with role := .writer state false }
  | .reader => t

/-- A transaction that is gone is not ended again. -/
theorem leave_finish_none (hnone : e.transaction? id = none)
    (state : TransactionState) : leave (finish id state) e = e := by
  unfold leave finish
  rw [EStateM.run_modify]
  dsimp only
  rw [hnone]

/-- Ending changes nothing about a reader. -/
theorem leave_finish_reader (ht : e.transaction? id = some t)
    (hrole : t.role = .reader) (state : TransactionState) :
    leave (finish id state) e = e := by
  unfold leave finish
  rw [EStateM.run_modify]
  dsimp only
  rw [ht]
  dsimp only
  rw [hrole]

/-- Ending a writer frees the slot that it holds. -/
theorem leave_finish_writer {was : TransactionState} {holdsSlot : Bool}
    (ht : e.transaction? id = some t) (hrole : t.role = .writer was holdsSlot)
    (state : TransactionState) :
    leave (finish id state) e
      = { e.withTransaction id (finished state t) with
          writerBusy := e.writerBusy && !holdsSlot } := by
  unfold leave finish finished
  rw [EStateM.run_modify]
  dsimp only
  rw [ht]
  dsimp only
  rw [hrole]
  rfl

/-- Ending a transaction ends no other. -/
theorem transaction?_finish (state : TransactionState) (a : TransactionId) :
    (leave (finish id state) e).transaction? a
      = if a = id then (e.transaction? id).map (finished state)
        else e.transaction? a := by
  cases ht : e.transaction? id with
  | none =>
      rw [leave_finish_none ht]
      split
      next heq => rw [heq, ht]; rfl
      next => rfl
  | some t =>
      cases hrole : t.role with
      | reader =>
          have hkept : finished state t = t := by
            unfold finished
            rw [hrole]
          rw [leave_finish_reader ht hrole, Option.map_some, hkept]
          split
          next heq => rw [heq, ht]
          next => rfl
      | writer was holdsSlot =>
          rw [leave_finish_writer ht hrole]
          exact transaction?_withTransaction a

theorem pinned_finished (state : TransactionState) :
    (finished state t).pinned = t.pinned := by
  unfold finished
  cases t.role <;> rfl

/-- What has ended does not write. -/
theorem idle_finished {state : TransactionState} (hstate : state ≠ .active)
    (t : Transaction) : ¬ (finished state t).IsWriting := by
  unfold finished
  rintro ⟨holdsSlot, hrole⟩
  split at hrole
  next => exact hstate (Role.writer.inj hrole).1
  next hreader => exact nomatch hreader.symm.trans hrole

/-- It is only the pin that a transaction leaves behind. -/
theorem dropped_congr {u : Transaction} (hpinned : t.pinned = u.pinned) :
    e.dropped id t = e.dropped id u := by
  unfold dropped
  rw [hpinned]

/-- An aborted transaction is rolled back and its view closed. -/
theorem transaction?_abort (ht : e.transaction? id = some t) :
    (leave (abort id) e).transaction? id
      = some (finished .rolledBack { t with view := t.view.close }) := by
  show (leave (finish id .rolledBack)
    (leave (mapView id View.close) e)).transaction? id = _
  rw [transaction?_finish, if_pos rfl, transaction?_mapView, if_pos rfl, ht]
  rfl

/-- The taken changes are published with the snapshot that is there by then.
-/
theorem run_publishTaken (ht : e.transaction? id = some t) :
    (publishTaken id).run e
      = (publish t.view.snapshot t.view.changes.toList).run
        (takenFrom e id t) := by
  unfold publishTaken
  rw [EStateM.run_bind, run_takeChanges ht]
  dsimp only
  rw [EStateM.run_bind, EStateM.run_get]
  dsimp only
  rw [requireTransaction_takenFrom]
  rfl

/-- How a commit goes on once it has published, or has not. -/
theorem run_publishChanges_taken (ht : e.transaction? id = some t)
    (hw : t.IsWriting) :
    (publishChanges id).run e
      = match (publishTaken id).run e with
        | .ok next e' => .ok next (leave (finish id .committed) e')
        | .error err e' => .error err (leave (abort id) e') := by
  rw [run_publishChanges ht hw, run_publishTaken ht]
  unfold conclude
  rw [EStateM.run_bind, Edit.run_attempt]
  cases (publish t.view.snapshot t.view.changes.toList).run
      (takenFrom e id t) <;> rfl

/-- Publishing what a transaction has changed makes that current, or leaves
a log to which nothing could be appended. -/
theorem publishTaken_cases (ht : e.transaction? id = some t) :
    (∃ grown log, (publishTaken id).run e = .ok (e.nextOf t)
        (published { takenFrom e id t with log } (e.nextOf t)
          t.view.changes.toList.length grown))
      ∨ ∃ err log, (publishTaken id).run e
        = .error err { takenFrom e id t with log } := by
  rw [run_publishTaken ht]
  cases hlog : appendTo (e.recordOf t) e.log with
  | mk result log =>
      cases result with
      | ok grown => exact .inl ⟨grown, log, run_publish_ok hlog⟩
      | error err => exact .inr ⟨err, log, run_publish_error hlog⟩

namespace Traffic

variable {c : Traffic}

-- ================================================ where a call stands

/-- The engine, and how far the call on a transaction has come. -/
structure Stands (c : Traffic) (id : TransactionId) (phase : Option Phase)
    (e : Engine) : Prop where
  under_eq : c.under id = phase
  engine_eq : c.engine = e

/-- A call stands where it was marked. -/
theorem stands_mark (c : Traffic) (id : TransactionId)
    (phase : Option Phase) (e : Engine) :
    (c.mark id phase e).Stands id phase e := ⟨Function.update_self .., rfl⟩

/-- Telling of lapsed versions moves no call. -/
theorem Stands.tell {phase : Option Phase} (h : c.Stands id phase e)
    (gone : List Version) : (c.tell gone).Stands id phase e :=
  ⟨h.under_eq, h.engine_eq⟩

namespace Stands

variable {next : Snapshot} {goesOn leaves : Bool} {base : Version}

/-- Nothing follows once a call has ended. -/
theorem ended (h : c.Stands id none e) :
    (c.move (.proceed id)).Stands id none e := by
  unfold move proceed
  dsimp only
  rw [h.under_eq]
  exact h

/-- Behind publishing, the slot is freed. -/
theorem published (h : c.Stands id (some (.published next goesOn)) e) :
    (c.move (.proceed id)).Stands id (some (.released next goesOn))
      (leave (finish id .committed) e) := by
  unfold move proceed
  dsimp only
  rw [h.under_eq, h.engine_eq]
  exact stands_mark ..

/-- A commit that does not go on closes its view and is over. -/
theorem released (h : c.Stands id (some (.released next false)) e) :
    (c.move (.proceed id)).Stands id none
      (leave (mapView id (View.replace next .closed true)) e) := by
  unfold move proceed
  dsimp only
  rw [h.under_eq, h.engine_eq]
  exact stands_mark ..

/-- A commit that goes on shows the version that it has published. -/
theorem goingOn (h : c.Stands id (some (.released next true)) e) :
    (c.move (.proceed id)).Stands id (some (.shown next))
      (leave (mapView id (View.replace next .reading false)) e) := by
  unfold move proceed
  dsimp only
  rw [h.under_eq, h.engine_eq]
  exact stands_mark ..

/-- Behind showing a version it is pinned. -/
theorem shown (h : c.Stands id (some (.shown next)) e)
    (ht : e.transaction? id = some t) :
    (c.move (.proceed id)).Stands id (some (.repinned t.pinned))
      (leave (do
        pin next.version
        put id { t with pinned := next.version, role := .reader }) e) := by
  unfold move proceed
  dsimp only
  rw [h.under_eq, h.engine_eq]
  dsimp only
  rw [ht]
  exact stands_mark ..

/-- The pin of the version that was left is the last thing given up. -/
theorem repinned (h : c.Stands id (some (.repinned base)) e) :
    (c.move (.proceed id)).Stands id none (leave (unpin base) e) := by
  unfold move proceed
  dsimp only
  rw [h.under_eq, h.engine_eq]
  exact (stands_mark ..).tell _

/-- Behind moving the pin of a reader, its view moves. -/
theorem moved (h : c.Stands id (some (.moved next)) e) :
    (c.move (.proceed id)).Stands id none (leave (do
      mapView id (View.replace next .reading true)
      count fun s => { s with advances := s.advances + 1 }) e) := by
  unfold move proceed
  dsimp only
  rw [h.under_eq, h.engine_eq]
  exact stands_mark ..

/-- Behind a refused commit the view is closed. -/
theorem refused (h : c.Stands id (some (.refused leaves)) e) :
    (c.move (.proceed id)).Stands id (some (.closed leaves))
      (leave (mapView id View.close) e) := by
  unfold move proceed
  dsimp only
  rw [h.under_eq, h.engine_eq]
  exact stands_mark ..

/-- Behind closing its view a refused transaction ends. -/
theorem closed (h : c.Stands id (some (.closed leaves)) e) :
    (c.move (.proceed id)).Stands id (if leaves then some .leaving else none)
      (leave (do
        finish id .rolledBack
        count fun s => { s with rollbacks := s.rollbacks + 1 }) e) := by
  unfold move proceed
  dsimp only
  rw [h.under_eq, h.engine_eq]
  exact stands_mark ..

/-- A transaction that leaves is dropped. -/
theorem leaving (h : c.Stands id (some .leaving) e)
    (ht : e.transaction? id = some t) :
    (c.move (.proceed id)).Stands id none (e.dropped id t) := by
  unfold move proceed
  dsimp only
  rw [h.under_eq, h.engine_eq]
  dsimp only
  rw [ht]
  exact (stands_mark ..).tell _

end Stands

-- ============================================= steps with none in between

/-- Whoever leaves with the view closed is rolled back, and is gone. -/
theorem Stands.aborted
    (h : c.Stands id (some (.closed true)) (leave (mapView id View.close) e))
    (ht : e.transaction? id = some t) :
    ((c.move (.proceed id)).move (.proceed id)).Stands id none
      ((leave (abort id) e).dropped id t) := by
  have hleaving : (c.move (.proceed id)).Stands id (some .leaving)
      (leave (abort id) e) := h.closed
  have hgone := hleaving.leaving (transaction?_abort ht)
  rw [dropped_congr (pinned_finished .rolledBack)] at hgone
  exact hgone

theorem stands_drop_none (hnone : e.transaction? id = none) :
    ((quiet e).drop id).Stands id none e := by
  unfold Traffic.drop
  dsimp only [quiet]
  rw [hnone]
  exact ⟨rfl, rfl⟩

/-- The first step of dropping a writer that is active. -/
theorem stands_drop_active (ht : e.transaction? id = some t)
    (hw : t.IsWriting) :
    ((quiet e).drop id).Stands id (some (.closed true))
      (leave (mapView id View.close) e) := by
  obtain ⟨holdsSlot, hrole⟩ := hw
  unfold Traffic.drop
  dsimp only [quiet]
  rw [ht]
  dsimp only
  rw [hrole]
  exact stands_mark ..

/-- Dropping any other transaction closes the view, which is forgotten when
the transaction goes. -/
theorem drop_idle_moves (ht : e.transaction? id = some t)
    (hidle : ¬ t.IsWriting) :
    ∃ e', Same e' (e.dropped id t)
      ∧ (((quiet e).drop id).move (.proceed id)).Stands id none e' := by
  let closed : Transaction := { t with view := t.view.close }
  have hview : leave (mapView id View.close) e
      = e.withTransaction id closed := leave_of_ok (run_mapView ht View.close)
  have hfirst : ((quiet e).drop id).Stands id (some .leaving)
      (e.withTransaction id closed) := by
    unfold Traffic.drop
    dsimp only [quiet]
    rw [ht]
    dsimp only
    rw [hview]
    split
    next holdsSlot hrole => exact (hidle ⟨holdsSlot, hrole⟩).elim
    next => exact stands_mark ..
  refine ⟨(e.withTransaction id closed).dropped id closed,
    ⟨rfl, rfl, rfl, rfl, rfl, rfl, rfl, fun a => ?_⟩,
    hfirst.leaving (transaction?_self e id closed)⟩
  rw [transaction?_dropped, transaction?_dropped]
  split
  next => rfl
  next hne => rw [transaction?_withTransaction, if_neg hne]

/-- The moves of dropping come to dropping. -/
theorem drop_moves (e : Engine) (id : TransactionId) :
    Same ((quiet e).run (Call.drop id).moves).engine
      (leave (Engine.drop id) e) := by
  show Same ((((quiet e).drop id).move (.proceed id)).move
    (.proceed id)).engine _
  cases ht : e.transaction? id with
  | none =>
      have hnone := stands_drop_none ht
      rw [leave_of_ok (run_drop_none ht), hnone.ended.ended.engine_eq]
      exact .refl e
  | some t =>
      by_cases hw : t.IsWriting
      · have hdrop : leave (Engine.drop id) e
            = (leave (abort id) e).dropped id t := by
          obtain ⟨holdsSlot, hrole⟩ := hw
          unfold leave Engine.drop
          rw [EStateM.run_bind, EStateM.run_get]
          dsimp only
          rw [ht]
          dsimp only
          rw [hrole]
          rfl
        rw [hdrop, ((stands_drop_active ht hw).aborted ht).engine_eq]
        exact .refl _
      · obtain ⟨e', hsame, hnone⟩ := drop_idle_moves ht hw
        rw [leave_of_ok (run_drop_idle ht hw), hnone.ended.engine_eq]
        exact hsame

/-- The moves of rolling back come to rolling back. -/
theorem rollback_moves (e : Engine) (id : TransactionId) :
    ((quiet e).run (Call.rollback id).moves).engine
      = leave (Engine.rollback id) e := by
  show (((quiet e).rollback id).move (.proceed id)).engine = _
  unfold Traffic.rollback leave Engine.rollback
  rw [EStateM.run_bind, EStateM.run_get]
  dsimp only [quiet]
  cases e.requireActive id with
  | error err => rfl
  | ok t => exact (stands_mark ..).closed.engine_eq

/-- The moves of advancing come to advancing. -/
theorem advance_moves (e : Engine) (id : TransactionId) :
    Same ((quiet e).run (Call.advance id).moves).engine
      (leave (Engine.advance id) e) := by
  show Same (((quiet e).advance id).move (.proceed id)).engine _
  unfold leave Traffic.advance
  dsimp only [quiet]
  cases ht : e.transaction? id with
  | none =>
      obtain ⟨err, hrun⟩ := run_advance_none ht
      rw [hrun]
      exact .refl e
  | some t =>
      dsimp only
      by_cases hpinned : e.version = t.pinned
      · rw [run_advance_still ht hpinned, if_pos hpinned]
        exact .refl e
      · rw [run_advance_moved ht hpinned, if_neg hpinned]
        let repinned : Engine := (e.withTransaction id
          { t with pinned := e.version }).repinned t.pinned e.version
        have hmoved : (((quiet e).mark id (some (.moved e.current))
            repinned).tell ((e.pins.pin e.version).lapsed t.pinned)).Stands id
              (some (.moved e.current)) repinned := (stands_mark ..).tell _
        have hfound : repinned.transaction? id
            = some { t with pinned := e.version } := transaction?_self e id _
        have hshown : leave (do
            mapView id (View.replace e.current .reading true)
            count fun s => { s with advances := s.advances + 1 }) repinned
            = leave (count fun s => { s with advances := s.advances + 1 })
              (repinned.withTransaction id (e.moved t)) := by
          unfold leave
          rw [EStateM.run_bind, run_mapView hfound]
          rfl
        refine (hmoved.moved.engine_eq.trans hshown) ▸ ?_
        exact ⟨rfl, rfl, rfl, rfl, rfl, rfl, rfl,
          transaction?_twice e id _ (e.moved t)⟩

/-- Nothing is published for a transaction that does not write. -/
theorem publishChanges_refused {err : Error}
    (hactive : e.requireActive id = .error err) :
    (publishChanges id).run e = .error err e := by
  unfold publishChanges
  rw [EStateM.run_bind, EStateM.run_get]
  dsimp only
  rw [hactive]
  rfl

/-- Who cannot commit and wanted to go on to read is dropped. -/
theorem commit_of_error {err : Error}
    (hactive : e.requireActive id = .error err) :
    (quiet e).commit id true = (quiet e).drop id := by
  unfold Traffic.commit
  dsimp only [quiet]
  rw [hactive]
  rfl

/-- A commit that is logged has published. -/
theorem stands_commit_published (goesOn : Bool) {next : Snapshot}
    {made : Engine} (hactive : e.requireActive id = .ok t)
    (hrun : (publishTaken id).run e = .ok next made) :
    ((quiet e).commit id goesOn).Stands id (some (.published next goesOn))
      made := by
  unfold Traffic.commit
  dsimp only [quiet]
  rw [hactive, hrun]
  exact (stands_mark ..).tell _

/-- A commit that is not logged is refused. -/
theorem stands_commit_refused (goesOn : Bool) {err : Error} {kept : Engine}
    (hactive : e.requireActive id = .ok t)
    (hrun : (publishTaken id).run e = .error err kept) :
    ((quiet e).commit id goesOn).Stands id (some (.refused goesOn))
      kept := by
  unfold Traffic.commit
  dsimp only [quiet]
  rw [hactive, hrun]
  exact stands_mark ..

/-- The moves of a commit come to the commit. -/
theorem commit_moves (e : Engine) (id : TransactionId) :
    ((quiet e).run (Call.commit id).moves).engine
      = leave (Engine.commit id) e := by
  show ((((quiet e).commit id false).move (.proceed id)).move
    (.proceed id)).engine = _
  unfold Engine.commit
  cases hactive : e.requireActive id with
  | error err =>
      have hcommit : (quiet e).commit id false = quiet e := by
        unfold Traffic.commit
        dsimp only [quiet]
        rw [hactive]
        rfl
      rw [hcommit, leave_bind_error (publishChanges_refused hactive)]
      rfl
  | ok t =>
      obtain ⟨ht, hw⟩ := requireActive_eq_ok.1 hactive
      have hpublish := run_publishChanges_taken ht hw
      cases hrun : (publishTaken id).run e with
      | ok next made =>
          rw [hrun] at hpublish
          have hstands := stands_commit_published false hactive hrun
          rw [leave_bind hpublish, hstands.published.released.engine_eq]
          rfl
      | error err kept =>
          rw [hrun] at hpublish
          have hstands := stands_commit_refused false hactive hrun
          rw [leave_bind_error hpublish, hstands.refused.closed.engine_eq]
          rfl

/-- A commit that has published goes on to read. -/
theorem run_commitAndRead_published {next : Snapshot} {made : Engine}
    {u : Transaction} (ht : e.transaction? id = some t)
    (hrun : (publishChanges id).run e = .ok next made)
    (hu : (leave (mapView id (View.replace next .reading false))
      made).transaction? id = some u) :
    leave (Engine.commitAndRead id) e
      = ((leave (mapView id (View.replace next .reading false))
        made).withTransaction id
          { u with pinned := next.version, role := .reader }).repinned
            t.pinned next.version := by
  let shown := leave (mapView id (View.replace next .reading false)) made
  have hfound : ({ shown with pins := shown.pins.pin next.version }
      : Engine).requireTransaction id = .ok u :=
    requireTransaction_eq_ok.2 hu
  have hattempt : (Edit.attempt (publishChanges id)).run e
      = .ok (.ok next) made := by
    rw [Edit.run_attempt, hrun]
  unfold Engine.commitAndRead
  rw [leave_bind (EStateM.run_get e), requireTransaction_eq_ok.2 ht]
  show leave (Edit.attempt (publishChanges id) >>= _) e = _
  rw [leave_bind hattempt]
  show leave (do
      let u ← liftM (({ shown with pins := shown.pins.pin next.version }
        : Engine).requireTransaction id)
      put id { u with pinned := next.version, role := .reader }
      unpin t.pinned) { shown with pins := shown.pins.pin next.version } = _
  rw [hfound]
  rfl

/-- A commit that could not be published drops the transaction. -/
theorem run_commitAndRead_refused {kept : Engine} {err : Error}
    (ht : e.transaction? id = some t)
    (hrun : (publishChanges id).run e = .error err kept) :
    leave (Engine.commitAndRead id) e = leave (Engine.drop id) kept := by
  have hattempt : (Edit.attempt (publishChanges id)).run e
      = .ok (.error err) kept := by
    rw [Edit.run_attempt, hrun]
  unfold Engine.commitAndRead
  rw [leave_bind (EStateM.run_get e), requireTransaction_eq_ok.2 ht]
  show leave (Edit.attempt (publishChanges id) >>= _) e = _
  rw [leave_bind hattempt]
  unfold leave
  dsimp only
  rw [EStateM.run_bind]
  cases (Engine.drop id).run kept <;> rfl

/-- Whoever does not write is dropped. -/
theorem commitAndRead_moves_idle {err : Error}
    (hactive : e.requireActive id = .error err) :
    Same ((quiet e).run (Call.commitAndRead id).moves).engine
      (leave (Engine.commitAndRead id) e) := by
  show Same ((((((quiet e).commit id true).move (.proceed id)).move
    (.proceed id)).move (.proceed id)).move (.proceed id)).engine _
  rw [commit_of_error hactive]
  cases ht : e.transaction? id with
  | none =>
      obtain ⟨err', hrun⟩ := run_commitAndRead_none ht
      have hnone := stands_drop_none ht
      rw [hnone.ended.ended.ended.ended.engine_eq, leave_of_error hrun]
      exact .refl e
  | some t =>
      have hidle : ¬ t.IsWriting := fun hw => by
        rw [requireActive_eq_ok.2 ⟨ht, hw⟩] at hactive
        cases hactive
      obtain ⟨e', hsame, hnone⟩ := drop_idle_moves ht hidle
      rw [hnone.ended.ended.ended.engine_eq,
        run_commitAndRead_refused ht (publishChanges_refused hactive),
        leave_of_ok (run_drop_idle ht hidle)]
      exact hsame

/-- Whoever has published goes on to read. -/
theorem commitAndRead_moves_published {log : Option HistoryLog} {grown : Nat}
    (hactive : e.requireActive id = .ok t)
    (hrun : (publishTaken id).run e = .ok (e.nextOf t)
      (published { takenFrom e id t with log } (e.nextOf t)
        t.view.changes.toList.length grown)) :
    ((quiet e).run (Call.commitAndRead id).moves).engine
      = leave (Engine.commitAndRead id) e := by
  show ((((((quiet e).commit id true).move (.proceed id)).move
    (.proceed id)).move (.proceed id)).move (.proceed id)).engine = _
  obtain ⟨ht, hw⟩ := requireActive_eq_ok.1 hactive
  have hpublish := run_publishChanges_taken ht hw
  rw [hrun] at hpublish
  let taken : Transaction :=
    { t with view := { t.view with changes := #[] } }
  let shown : Transaction :=
    { finished .committed taken with
      view := View.replace (e.nextOf t) .reading false
        (finished .committed taken).view }
  have hstands :=
    (stands_commit_published true hactive hrun).published.goingOn
  have hshown : (leave (mapView id (View.replace (e.nextOf t) .reading
      false)) (leave (finish id .committed) (published
        { takenFrom e id t with log } (e.nextOf t)
          t.view.changes.toList.length grown))).transaction? id
      = some shown := by
    rw [transaction?_mapView, if_pos rfl, transaction?_finish,
      if_pos rfl,
      show (published { takenFrom e id t with log } (e.nextOf t)
        t.view.changes.toList.length grown).transaction? id = some taken
          from transaction?_self e id taken]
    rfl
  have hpinned : shown.pinned = t.pinned :=
    pinned_finished (t := taken) .committed
  rw [(hstands.shown hshown).repinned.engine_eq,
    run_commitAndRead_published ht hpublish hshown, hpinned]
  rfl

/-- Whoever could not publish is rolled back and dropped. -/
theorem commitAndRead_moves_failed {log : Option HistoryLog} {err : Error}
    (hactive : e.requireActive id = .ok t)
    (hrun : (publishTaken id).run e
      = .error err { takenFrom e id t with log }) :
    ((quiet e).run (Call.commitAndRead id).moves).engine
      = leave (Engine.commitAndRead id) e := by
  show ((((((quiet e).commit id true).move (.proceed id)).move
    (.proceed id)).move (.proceed id)).move (.proceed id)).engine = _
  obtain ⟨ht, hw⟩ := requireActive_eq_ok.1 hactive
  have hpublish := run_publishChanges_taken ht hw
  rw [hrun] at hpublish
  let taken : Transaction :=
    { t with view := { t.view with changes := #[] } }
  have hkept : ({ takenFrom e id t with log } : Engine).transaction? id
      = some taken := transaction?_self e id taken
  have hdrop := run_drop_idle (transaction?_abort hkept)
    (idle_finished (by decide) _)
  have hstands := (stands_commit_refused true hactive hrun).refused
  rw [(hstands.aborted hkept).ended.engine_eq,
    run_commitAndRead_refused ht hpublish, leave_of_ok hdrop,
    dropped_congr (pinned_finished .rolledBack)]
  rfl

/-- The moves of a commit that goes on reading come to it. -/
theorem commitAndRead_moves (e : Engine) (id : TransactionId) :
    Same ((quiet e).run (Call.commitAndRead id).moves).engine
      (leave (Engine.commitAndRead id) e) := by
  cases hactive : e.requireActive id with
  | error err => exact commitAndRead_moves_idle hactive
  | ok t =>
      rcases publishTaken_cases (requireActive_eq_ok.1 hactive).1 with
        ⟨grown, log, hrun⟩ | ⟨err, log, hrun⟩
      · exact commitAndRead_moves_published hactive hrun ▸ .refl _
      · exact commitAndRead_moves_failed hactive hrun ▸ .refl _

/-- The writer slot is taken if it is free. -/
theorem run_acquireWriter (e : Engine) :
    acquireWriter.run e = if e.writerBusy then .ok false e
      else .ok true { e with writerBusy := true } := by
  unfold acquireWriter
  rw [EStateM.run_bind, EStateM.run_get]
  dsimp only
  split <;> rfl

/-- The moves of beginning to write come to beginning to write. -/
theorem beginWrite_moves (e : Engine) :
    ((quiet e).run Call.beginWrite.moves).engine = leave beginWrite? e := by
  show (quiet e).acquire.enter.engine = _
  unfold Traffic.acquire
  dsimp only [quiet]
  rw [run_acquireWriter]
  cases hbusy : e.writerBusy with
  | true =>
      rw [leave_of_ok (run_beginWrite_busy hbusy)]
      rfl
  | false =>
      rw [leave_of_ok (run_beginWrite_free hbusy)]
      rfl

/-- Without others in between, the steps of a call are those of the
engine. -/
theorem run_uninterrupted (e : Engine) (call : Call) :
    Same ((quiet e).run call.moves).engine (call.step e) := by
  rw [step_eq_leave]
  cases call with
  | beginRead => exact .refl _
  | beginWrite =>
      rw [beginWrite_moves e]
      exact leave_done beginWrite? e ▸ .refl _
  | commit id =>
      rw [commit_moves e id]
      exact leave_done (Engine.commit id) e ▸ .refl _
  | commitAndRead id => exact commitAndRead_moves e id
  | rollback id =>
      rw [rollback_moves e id]
      exact .refl _
  | drop id => exact drop_moves e id
  | advance id => exact leave_done (Engine.advance id) e ▸ advance_moves e id
  | addTable | getOrAddTable | removeTable | addColumn | removeColumn
  | createObject | removeObject | clear | readTable | set | setNull
  | listInsert | listPush | listSet | listRemove | listClear | remove
  | readObject =>
      rw [← step_eq_leave]
      exact .refl _

end Traffic

end Engine

end Colonnade
