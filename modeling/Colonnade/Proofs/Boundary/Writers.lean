/-
Who may write in a session. A session lends out a handle for each
transaction that it begins, and takes the handle back before it ends the
transaction, so the transactions of its engine are those under its handles,
each once, and each as it began: one that reads is open for reading, and one
that writes is active and holds the writer slot (`Attended`). The slot is
therefore taken exactly while there is a handle to give it back with.

This holds whatever the operations are given, and whatever becomes of the
log meanwhile. A commit that the log refuses ends the writer as a rollback
would; its handle is gone, and the next writer can begin.

Chain: `Boundary.Operations` has what goes through handles, `Engine.Posts`
what comes of ending a transaction.
-/
import Colonnade.Proofs.Boundary.Operations
import Colonnade.Proofs.Engine.Posts

namespace Colonnade.Boundary

/-- What a transaction does as long as it is lent out. -/
def TransactionKind.role : TransactionKind → Role
  | .read => .reader
  | .write => .writer .active true

/-- The same with what its view is open for. -/
def TransactionKind.post (kind : TransactionKind) : Role × ViewMode :=
  (kind.role, kind.role.mode)

namespace Session

variable {s : Session} {e e' : Engine} {lent : Arena LentTransaction}
  {id : TransactionId} {kind : TransactionKind} {txn : Int64} {α : Type}

-- ============================================================= attended

/-- Whether the transactions of an engine are those that are lent out, each
once and each at the post that it was lent out at. -/
structure Attended (e : Engine) (lent : Arena LentTransaction) : Prop where
  serial : e.Serial
  formed : lent.Formed
  post?_iff : ∀ id p, e.post? id = some p
    ↔ ∃ i kind, lent.occupant? i = some ⟨id, kind⟩ ∧ kind.post = p
  once : ∀ i j id kind kind', lent.occupant? i = some ⟨id, kind⟩ →
    lent.occupant? j = some ⟨id, kind'⟩ → i = j

/-- Writers are attended as long as their posts stay. -/
theorem Attended.of_posts (h : Attended e lent) (hserial : e'.Serial)
    (hposts : ∀ a, e'.post? a = e.post? a) : Attended e' lent :=
  ⟨hserial, h.formed, fun a p => hposts a ▸ h.post?_iff a p, h.once⟩

/-- A transaction that begins is lent out. -/
theorem Attended.insert (h : Attended e lent) (kind : TransactionKind)
    (hserial : e'.Serial) (hnew : e.post? id = none)
    (hposts : ∀ a, e'.post? a
      = if a = id then some kind.post else e.post? a) :
    Attended e' (lent.insert ⟨id, kind⟩).2 := by
  obtain ⟨i, g, -, hfills⟩ := h.formed.insert ⟨id, kind⟩
  obtain ⟨hvacant, hoccupant⟩ := hfills.occupant?
  -- a new transaction had no post, so no number was lent for it
  have hunlent (j : Nat) (k : TransactionKind) :
      lent.occupant? j ≠ some ⟨id, k⟩ := by
    intro hj
    have := (h.post?_iff id k.post).2 ⟨j, k, hj, rfl⟩
    rw [hnew] at this
    cases this
  refine ⟨hserial, hfills.formed, fun a p => ?_, fun j j' a k k' hj hj' => ?_⟩
  · rw [hposts]
    by_cases heq : a = id
    · subst heq
      rw [if_pos rfl]
      constructor
      · intro hp
        exact ⟨i, kind, (hoccupant i).trans (if_pos rfl), Option.some.inj hp⟩
      · rintro ⟨j, k, hj, rfl⟩
        rw [hoccupant] at hj
        split at hj
        next =>
          cases hj
          rfl
        next => exact absurd hj (hunlent j k)
    · rw [if_neg heq, h.post?_iff]
      constructor
      · rintro ⟨j, k, hj, hp⟩
        have hne : j ≠ i := by
          rintro rfl
          rw [hvacant] at hj
          cases hj
        exact ⟨j, k, ((hoccupant j).trans (if_neg hne)).trans hj, hp⟩
      · rintro ⟨j, k, hj, hp⟩
        rw [hoccupant] at hj
        split at hj
        next =>
          cases hj
          exact absurd rfl heq
        next => exact ⟨j, k, hj, hp⟩
  · rw [hoccupant] at hj hj'
    split at hj <;> split at hj'
    next hi hi' => exact hi.trans hi'.symm
    next =>
      cases hj
      exact absurd hj' (hunlent j' k')
    next =>
      cases hj'
      exact absurd hj (hunlent j k)
    next => exact h.once j j' a k k' hj hj'

/-- A transaction that is taken out of the engine is taken back. -/
theorem Attended.remove (h : Attended e lent)
    (hget : lent.get? txn = some ⟨id, kind⟩) (hwithout : e.Without id e') :
    Attended e' (lent.remove txn).2 := by
  rcases lent.remove_cases txn with ⟨hnone, -⟩ | ⟨i, x, -, hx, -, hvacates⟩
  · rw [hget] at hnone
    cases hnone
  obtain rfl := Option.some.inj (hget.symm.trans hx)
  obtain ⟨hoccupied, hoccupant⟩ := hvacates.occupant?
  refine ⟨hwithout.serial, hvacates.formed h.formed, fun a p => ?_,
    fun j j' a k k' hj hj' => ?_⟩
  · rw [hwithout.post?_eq]
    split
    next heq =>
      subst heq
      refine ⟨nofun, ?_⟩
      rintro ⟨j, k, hj, -⟩
      rw [hoccupant] at hj
      split at hj
      next => cases hj
      next hne => exact absurd (h.once j i _ k kind hj hoccupied) hne
    next hne =>
      rw [h.post?_iff]
      refine exists_congr fun j => exists_congr fun k => ?_
      rw [hoccupant]
      split
      next heq =>
        subst heq
        rw [hoccupied]
        refine ⟨?_, fun h => nomatch h.1⟩
        rintro ⟨heq, -⟩
        cases heq
        exact absurd rfl hne
      next => rfl
  · rw [hoccupant] at hj hj'
    split at hj
    next => cases hj
    next =>
      split at hj'
      next => cases hj'
      next => exact h.once j j' a k k' hj hj'

/-- What a handle stands for is a transaction at its post. -/
theorem Attended.transaction (h : Attended e lent)
    (hget : lent.get? txn = some ⟨id, kind⟩) :
    ∃ t, e.transaction? id = some t ∧ t.role = kind.role
      ∧ t.view.mode = kind.role.mode := by
  obtain ⟨i, -, hi⟩ := Arena.occupant?_of_get? hget
  obtain ⟨t, ht, hpost⟩ :=
    Engine.post?_eq_some.1 ((h.post?_iff id kind.post).2 ⟨i, kind, hi, rfl⟩)
  exact ⟨t, ht, congrArg Prod.fst hpost, congrArg Prod.snd hpost⟩

-- =================================================== what is carried out

/-- A step of the engine that succeeds is passed on. -/
theorem run_onEngine_ok {step : Edit Engine α} {a : α}
    (hrun : step.run s.engine = .ok a e) :
    (onEngine step).run s = .ok a { s with engine := e } := by
  show onEngine step s = _
  unfold onEngine
  rw [hrun]

/-- A step of the engine that fails is passed on as its fault. -/
theorem run_onEngine_error {step : Edit Engine α} {err : Error}
    (hrun : step.run s.engine = .error err e) :
    (onEngine step).run s = .error (.core err) { s with engine := e } := by
  show onEngine step s = _
  unfold onEngine
  rw [hrun]

/-- A lent transaction is taken out of its arena. -/
theorem run_takeTransaction {t : LentTransaction}
    (hget : s.transactions.get? txn = some t) :
    (takeTransaction txn).run s = .ok t
      { s with transactions := (s.transactions.remove txn).2 } := by
  unfold takeTransaction
  rw [EStateM.run_bind, EStateM.run_get]
  dsimp only
  rcases s.transactions.remove_cases txn with
    ⟨hnone, -⟩ | ⟨i, x, -, hx, hremoved, -⟩
  · rw [hget] at hnone
    cases hnone
  · obtain rfl := Option.some.inj (hget.symm.trans hx)
    cases hremove : s.transactions.remove txn with
    | mk taken left =>
        rw [hremove] at hremoved
        obtain rfl : taken = some _ := hremoved
        rfl

/-- A session without a handle that it has taken back. -/
def tookBack (s : Session) (txn : Int64) (e : Engine) : Session :=
  { s with engine := e, transactions := (s.transactions.remove txn).2 }

/-- Ending a writer by its handle: what comes of it is told, and the handle
is taken back whatever it is. -/
theorem run_endWrite_ok {finish : TransactionId → Edit Engine α} {a : α}
    (hget : s.transactions.get? txn = some ⟨id, .write⟩)
    (hfinish : (finish id).run s.engine = .ok a e)
    (hdrop : (Engine.drop id).run e = .ok () e') :
    (endWrite txn finish).run s = .ok a (s.tookBack txn e') := by
  unfold endWrite
  rw [EStateM.run_bind, run_transactionOf hget]
  dsimp only
  rw [EStateM.run_bind, run_takeTransaction hget]
  dsimp only
  refine run_onEngine_ok ?_
  rw [EStateM.run_bind, Edit.run_attempt, hfinish]
  dsimp only
  rw [EStateM.run_bind, hdrop]
  rfl

/-- A writer that could not be ended is dropped, and the fault passed on. -/
theorem run_endWrite_error {finish : TransactionId → Edit Engine α}
    {err : Error} (hget : s.transactions.get? txn = some ⟨id, .write⟩)
    (hfinish : (finish id).run s.engine = .error err e)
    (hdrop : (Engine.drop id).run e = .ok () e') :
    (endWrite txn finish).run s = .error (.core err) (s.tookBack txn e') := by
  unfold endWrite
  rw [EStateM.run_bind, run_transactionOf hget]
  dsimp only
  rw [EStateM.run_bind, run_takeTransaction hget]
  dsimp only
  refine run_onEngine_error ?_
  rw [EStateM.run_bind, Edit.run_attempt, hfinish]
  dsimp only
  rw [EStateM.run_bind, hdrop]
  rfl

/-- Closing takes the transaction back and drops it. -/
theorem run_close (hget : s.transactions.get? txn = some ⟨id, kind⟩)
    (hdrop : (Engine.drop id).run s.engine = .ok () e) :
    (close txn).run s = .ok () (s.tookBack txn e) := by
  unfold close
  rw [EStateM.run_bind, run_takeTransaction hget]
  exact run_onEngine_ok hdrop

/-- While another writes nothing is lent. -/
theorem run_beginWrite_busy (hbusy : s.engine.writerBusy = true) :
    beginWrite?.run s = .ok none s := by
  unfold beginWrite?
  rw [EStateM.run_bind, run_onEngine_ok (Engine.run_beginWrite_busy hbusy)]
  rfl

/-- A session with a transaction begun and lent out. -/
def lentOut (s : Session) (kind : TransactionKind) (e : Engine) : Session :=
  { s with
    engine := e
    transactions := (s.transactions.insert ⟨s.engine.nextId, kind⟩).2 }

/-- A writer is lent if nobody writes. -/
theorem run_beginWrite_free (hfree : s.engine.writerBusy = false) :
    beginWrite?.run s
      = .ok (some (s.transactions.insert ⟨s.engine.nextId, .write⟩).1)
        (s.lentOut .write s.engine.begun) := by
  unfold beginWrite?
  rw [EStateM.run_bind, run_onEngine_ok (Engine.run_beginWrite_free hfree)]
  rfl

/-- What comes of an operation whose answer is left aside. -/
theorem Operation.step_of_ok {op : Operation} {call : Call α}
    (hop : op.run = (do let _ ← call)) {a : α} {s' : Session}
    (hrun : call.run s = .ok a s') : op.step s = s' := by
  unfold step
  rw [hop, EStateM.run_bind, hrun]
  rfl

/-- An operation that fails leaves the session it fails in. -/
theorem Operation.step_of_error {op : Operation} {call : Call α}
    (hop : op.run = (do let _ ← call)) {f : Fault} {s' : Session}
    (hrun : call.run s = .error f s') : op.step s = s' := by
  unfold step
  rw [hop, EStateM.run_bind, hrun]

-- ==================================================== one that is given

section Attended

variable (h : Attended s.engine s.transactions)

include h

/-- Committing by a handle that is lent out for writing. -/
theorem Attended.run_commit
    (hget : s.transactions.get? txn = some ⟨id, .write⟩) :
    ∃ e', s.engine.Without id e'
      ∧ ((∃ v, (commit txn).run s = .ok v (s.tookBack txn e'))
        ∨ ∃ err, (commit txn).run s = .error (.core err) (s.tookBack txn e')
          ∧ err.kind ≠ .illegalState) := by
  obtain ⟨t, ht, hrole, -⟩ := h.transaction hget
  rcases h.serial.commit_leaves ht hrole with
    ⟨v, left, hrun, hleaves⟩ | ⟨err, left, hrun, hmild, hleaves⟩
  · obtain ⟨e', hdrop, hwithout⟩ := hleaves.drops
    exact ⟨e', hwithout, .inl ⟨v, run_endWrite_ok hget hrun hdrop⟩⟩
  · obtain ⟨e', hdrop, hwithout⟩ := hleaves.drops
    exact ⟨e', hwithout,
      .inr ⟨err, run_endWrite_error hget hrun hdrop, hmild⟩⟩

/-- Rolling back takes the writer back and leaves none. -/
theorem Attended.run_rollback
    (hget : s.transactions.get? txn = some ⟨id, .write⟩) :
    ∃ e', s.engine.Without id e'
      ∧ (rollback txn).run s = .ok () (s.tookBack txn e') := by
  obtain ⟨t, ht, hrole, -⟩ := h.transaction hget
  obtain ⟨left, hrun, hleaves⟩ := h.serial.rollback_leaves ht hrole
  obtain ⟨e', hdrop, hwithout⟩ := hleaves.drops
  exact ⟨e', hwithout, run_endWrite_ok hget hrun hdrop⟩

/-- Closing takes a transaction back and leaves it no more. -/
theorem Attended.run_close
    (hget : s.transactions.get? txn = some ⟨id, kind⟩) :
    ∃ e', s.engine.Without id e'
      ∧ (close txn).run s = .ok () (s.tookBack txn e') := by
  obtain ⟨t, ht, -, -⟩ := h.transaction hget
  obtain ⟨e', hdrop, hwithout⟩ := h.serial.drops ht
  exact ⟨e', hwithout, Session.run_close hget hdrop⟩

/-- Adding a table by a handle that is lent out for writing. -/
theorem Attended.addTable_mild
    (hget : s.transactions.get? txn = some ⟨id, .write⟩) {name : String}
    {f : Fault} {s' : Session}
    (hrun : (addTable txn name).run s = .error f s') :
    ∃ err, f = .core err ∧ err.kind ≠ .illegalState := by
  obtain ⟨t, ht, hrole, hmode⟩ := h.transaction hget
  unfold addTable at hrun
  rw [EStateM.run_bind, run_transactionOf hget] at hrun
  dsimp only at hrun
  rw [EStateM.run_bind] at hrun
  cases hadd : (Engine.addTable id name).run s.engine with
  | ok a e =>
      rw [run_onEngine_ok hadd] at hrun
      cases hrun
  | error err e =>
      rw [run_onEngine_error hadd] at hrun
      cases hrun
      exact ⟨err, rfl, Engine.addTable_mild ht hrole hmode hadd⟩

-- ============================================================ operations

/-- Beginning lends a transaction out, if it does anything. -/
theorem Attended.step_begin :
    Attended (Operation.beginRead.step s).engine
        (Operation.beginRead.step s).transactions
      ∧ Attended (Operation.beginWrite.step s).engine
        (Operation.beginWrite.step s).transactions := by
  have hnew := h.serial.post?_nextId
  constructor
  · have hserial := (Engine.aside_opened h.serial.fresh { s.engine.stats with
      readTransactions := s.engine.stats.readTransactions + 1 }).serial
        h.serial
    exact h.insert .read hserial hnew (Engine.post?_opened _ _ _)
  · cases hbusy : s.engine.writerBusy with
    | true =>
        rw [Operation.step_of_ok rfl (run_beginWrite_busy hbusy)]
        exact h
    | false =>
        rw [Operation.step_of_ok rfl (run_beginWrite_free hbusy)]
        exact h.insert .write (h.serial.begun hbusy) hnew
          (Engine.post?_opened _ _ _)

/-- What ends a transaction by its handle takes the handle back. -/
theorem Attended.step_end {op : Operation}
    (hop : op = .commit txn ∨ op = .rollback txn ∨ op = .close txn)
    (hget : s.transactions.get? txn = some ⟨id, kind⟩)
    (hkind : kind = .write ∨ op = .close txn) :
    ∃ e', s.engine.Without id e' ∧ op.step s = s.tookBack txn e' := by
  have hclose : ∃ e', s.engine.Without id e'
      ∧ (Operation.close txn).step s = s.tookBack txn e' := by
    obtain ⟨e', hwithout, hrun⟩ := h.run_close hget
    refine ⟨e', hwithout, ?_⟩
    unfold Operation.step Operation.run
    rw [hrun]
  rcases hkind with rfl | rfl
  · rcases hop with rfl | rfl | rfl
    · obtain ⟨e', hwithout, ⟨v, hrun⟩ | ⟨err, hrun, -⟩⟩ := h.run_commit hget
      · exact ⟨e', hwithout, Operation.step_of_ok rfl hrun⟩
      · exact ⟨e', hwithout, Operation.step_of_error rfl hrun⟩
    · obtain ⟨e', hwithout, hrun⟩ := h.run_rollback hget
      refine ⟨e', hwithout, ?_⟩
      unfold Operation.step Operation.run
      rw [hrun]
    · exact hclose
  · exact hclose

/-- A commit and a rollback keep writers attended, however they come out. -/
theorem Attended.step_endWrite {op : Operation}
    (hop : op = .commit txn ∨ op = .rollback txn) :
    Attended (op.step s).engine (op.step s).transactions := by
  by_cases hmisses : s.NoTransaction .write txn
  · have hmisses : op.Misses s := by rcases hop with rfl | rfl <;> exact hmisses
    rw [hmisses.step_eq]
    exact h
  · unfold NoTransaction at hmisses
    push Not at hmisses
    obtain ⟨id, hget⟩ := hmisses
    obtain ⟨e', hwithout, hstep⟩ :=
      h.step_end (hop.imp_right .inl) hget (.inl rfl)
    rw [hstep]
    exact h.remove hget hwithout

/-- Closing keeps writers attended. -/
theorem Attended.step_close :
    Attended ((Operation.close txn).step s).engine
      ((Operation.close txn).step s).transactions := by
  cases hget : s.transactions.get? txn with
  | none =>
      have hmisses : (Operation.close txn).Misses s := hget
      rw [hmisses.step_eq]
      exact h
  | some t =>
      obtain ⟨e', hwithout, hstep⟩ :=
        h.step_end (.inr (.inr rfl)) hget (.inr rfl)
      rw [hstep]
      exact h.remove hget hwithout

/-- Advancing keeps writers attended. -/
theorem Attended.step_advance :
    Attended ((Operation.advance txn).step s).engine
      ((Operation.advance txn).step s).transactions := by
  by_cases hmisses : (Operation.advance txn).Misses s
  · rw [hmisses.step_eq]
    exact h
  · unfold Operation.Misses NoTransaction at hmisses
    push Not at hmisses
    obtain ⟨id, hget⟩ := hmisses
    obtain ⟨t, ht, hrole, hmode⟩ := h.transaction hget
    obtain ⟨moved, e', hrun, hserial, hposts⟩ :=
      h.serial.advances ht hrole hmode
    have hadvance : (advance txn).run s
        = .ok moved { s with engine := e' } := by
      unfold advance
      rw [EStateM.run_bind, run_transactionOf hget]
      exact run_onEngine_ok hrun
    rw [Operation.step_of_ok rfl hadvance]
    exact h.of_posts hserial hposts

/-- Every operation keeps the transactions attended to. -/
theorem Attended.step (op : Operation) :
    Attended (op.step s).engine (op.step s).transactions := by
  cases hop : op.turnsOver with
  | false =>
      have hlasting : Engine.Lasting fun e =>
          e.Serial ∧ ∀ a, e.post? a = s.engine.post? a := by
        intro e e' he hstep
        exact ⟨Engine.lasting_serial e e' he.1 hstep,
          Engine.lasting_posts _ e e' he.2 hstep⟩
      have hends := Operation.throughHandles hop _ hlasting s.transactions s
        ⟨⟨h.serial, fun _ => rfl⟩, rfl⟩
      have hstep : ((op.step s).engine.Serial
          ∧ ∀ a, (op.step s).engine.post? a = s.engine.post? a)
          ∧ (op.step s).transactions = s.transactions := by
        unfold Operation.step
        cases hrun : op.run.run s with
        | ok a s' =>
            rw [hrun] at hends
            exact hends
        | error f s' =>
            rw [hrun] at hends
            exact hends
      rw [hstep.2]
      exact h.of_posts hstep.1.1 hstep.1.2
  | true =>
      cases op with
      | beginRead => exact h.step_begin.1
      | beginWrite => exact h.step_begin.2
      | commit txn => exact h.step_endWrite (.inl rfl)
      | rollback txn => exact h.step_endWrite (.inr rfl)
      | close txn => exact h.step_close
      | advance txn => exact h.step_advance
      | _ => cases hop

end Attended

-- ======================================================= what it comes to

/-- Whether a handle is one to a write transaction. -/
def Writes (s : Session) (txn : Int64) : Prop :=
  ∃ id, s.transactions.get? txn = some ⟨id, .write⟩

/-- At most one transaction is lent out for writing, it is active, and the
writer slot is taken exactly if there is one. -/
structure OneWriter (s : Session) : Prop where
  active : ∀ i id, s.transactions.occupant? i = some ⟨id, .write⟩ →
    ∃ t, s.engine.transaction? id = some t ∧ t.role = .writer .active true
  single : ∀ i j id id', s.transactions.occupant? i = some ⟨id, .write⟩ →
    s.transactions.occupant? j = some ⟨id', .write⟩ → i = j
  busy_iff : s.engine.writerBusy = true
    ↔ ∃ i id, s.transactions.occupant? i = some ⟨id, .write⟩

/-- Whoever has a handle for writing can use it and give it back, and whoever
has none can get one if nobody else has. -/
structure NeverWedged (s : Session) : Prop where
  begins : ∃ txn? s', beginWrite?.run s = .ok txn? s'
    ∧ (txn?.isSome ↔ s.engine.writerBusy = false)
  begins_iff : s.transactions.slots.size ≤ Arena.slotCount →
    ((∃ txn s', beginWrite?.run s = .ok (some txn) s')
      ↔ ∀ txn, ¬ s.Writes txn)
  lends : ∀ txn s', beginWrite?.run s = .ok (some txn) s' →
    s'.transactions.slots.size ≤ Arena.slotCount → s'.Writes txn
  rollsBack : ∀ txn, s.Writes txn → ∃ s', (rollback txn).run s = .ok () s'
  commits : ∀ txn, s.Writes txn → ∀ f s',
    (commit txn).run s = .error f s' →
      ∃ err, f = .core err ∧ err.kind ≠ .illegalState
  addsTables : ∀ txn, s.Writes txn → ∀ name f s',
    (addTable txn name).run s = .error f s' →
      ∃ err, f = .core err ∧ err.kind ≠ .illegalState
  frees : ∀ txn, s.Writes txn → ∀ op : Operation,
    op = .commit txn ∨ op = .rollback txn ∨ op = .close txn →
      (op.step s).engine.writerBusy = false
        ∧ (op.step s).transactions.get? txn = none
  misses : ∀ op : Operation, op.Misses s → op.step s = s

/-- Each transaction that is lent out for writing is the writer. -/
theorem Attended.writer (h : Attended e lent) {i : Nat}
    (hi : lent.occupant? i = some ⟨id, .write⟩) :
    ∃ t, e.transaction? id = some t ∧ t.role = .writer .active true := by
  obtain ⟨t, ht, hpost⟩ := Engine.post?_eq_some.1
    ((h.post?_iff id _).2 ⟨i, .write, hi, rfl⟩)
  exact ⟨t, ht, congrArg Prod.fst hpost⟩

/-- Of attended writers there is at most one. -/
theorem Attended.oneWriter (h : Attended s.engine s.transactions) :
    s.OneWriter where
  active i id hi := h.writer hi
  single i j id id' hi hj := by
    obtain ⟨t, ht, hrole⟩ := h.writer hi
    obtain ⟨u, hu, hrole'⟩ := h.writer hj
    obtain ⟨-, -, hsole, -⟩ := h.serial.active hu ⟨_, hrole'⟩
    obtain rfl := hsole id t ht ⟨_, hrole⟩
    exact h.once i j id .write .write hi hj
  busy_iff := by
    constructor
    · intro hbusy
      cases h.serial.slot with
      | free hfree _ => rw [hbusy] at hfree; cases hfree
      | @held id t _ ht hrole _ _ =>
          obtain ⟨i, kind, hi, hpost⟩ :=
            (h.post?_iff id _).1 (Engine.post?_eq_some.2 ⟨t, ht, rfl⟩)
          have hkind : kind.role = .writer .active true :=
            (congrArg Prod.fst hpost).trans hrole
          cases kind with
          | read => cases hkind
          | write => exact ⟨i, id, hi⟩
    · rintro ⟨i, id, hi⟩
      obtain ⟨t, ht, hrole⟩ := h.writer hi
      exact (h.serial.active ht ⟨_, hrole⟩).1

/-- With the handle of the writer taken back nobody writes. -/
theorem Attended.frees (h : Attended s.engine s.transactions)
    (hget : s.transactions.get? txn = some ⟨id, .write⟩)
    (hwithout : s.engine.Without id e) :
    e.writerBusy = false ∧ (s.tookBack txn e).transactions.get? txn = none := by
  rcases s.transactions.remove_cases txn with
    ⟨hnone, -⟩ | ⟨i, x, hindex, hx, -, hvacates⟩
  · rw [hget] at hnone
    cases hnone
  obtain rfl := Option.some.inj (hget.symm.trans hx)
  obtain ⟨hoccupied, hoccupant⟩ := hvacates.occupant?
  constructor
  · have hafter : (s.tookBack txn e).OneWriter :=
      Attended.oneWriter (h.remove hget hwithout)
    refine Bool.eq_false_iff.2 fun hbusy => ?_
    obtain ⟨j, id', hj⟩ := hafter.busy_iff.1 hbusy
    have hj : (s.transactions.remove txn).2.occupant? j = _ := hj
    rw [hoccupant] at hj
    split at hj
    next => cases hj
    next hne => exact hne (h.oneWriter.single j i id' id hj hoccupied)
  · refine Option.eq_none_iff_forall_not_mem.2 fun x hmem => ?_
    obtain ⟨j, hj, hslot⟩ := Arena.get?_eq_some.1 hmem
    obtain rfl := Option.some.inj (hindex.symm.trans hj)
    have hslot : (s.transactions.remove txn).2.slots[i]? = _ := hslot
    rw [hvacates.slots_eq, if_pos rfl] at hslot
    exact nomatch congrArg ArenaSlot.value (Option.some.inj hslot)

/-- Where writers are attended nobody is stuck. -/
theorem Attended.neverWedged (h : Attended s.engine s.transactions) :
    s.NeverWedged where
  begins := by
    cases hbusy : s.engine.writerBusy with
    | true => exact ⟨_, _, run_beginWrite_busy hbusy, by simp⟩
    | false => exact ⟨_, _, run_beginWrite_free hbusy, by simp⟩
  begins_iff hslots := by
    -- while there are slots, to have a writer lent is to have the slot taken
    have hwrites : (∃ txn, s.Writes txn) ↔ s.engine.writerBusy = true := by
      rw [h.oneWriter.busy_iff]
      constructor
      · rintro ⟨txn, id, hget⟩
        obtain ⟨i, -, hi⟩ := Arena.occupant?_of_get? hget
        exact ⟨i, id, hi⟩
      · rintro ⟨i, id, hi⟩
        obtain ⟨txn, hget⟩ := h.formed.get?_of_occupant? hslots hi
        exact ⟨txn, id, hget⟩
    rw [← not_exists, hwrites]
    cases hbusy : s.engine.writerBusy with
    | true =>
        rw [run_beginWrite_busy hbusy]
        simp
    | false =>
        rw [run_beginWrite_free hbusy]
        simp
  lends txn s' hrun hslots := by
    cases hbusy : s.engine.writerBusy with
    | true =>
        rw [run_beginWrite_busy hbusy] at hrun
        cases hrun
    | false =>
        rw [run_beginWrite_free hbusy] at hrun
        cases hrun
        exact ⟨_, h.formed.get?_insert hslots⟩
  rollsBack := by
    rintro txn ⟨id, hget⟩
    obtain ⟨e', -, hrun⟩ := h.run_rollback hget
    exact ⟨_, hrun⟩
  commits := by
    rintro txn ⟨id, hget⟩ f s' hrun
    obtain ⟨e', -, ⟨v, hok⟩ | ⟨err, herror, hmild⟩⟩ := h.run_commit hget
    · rw [hok] at hrun
      cases hrun
    · rw [herror] at hrun
      cases hrun
      exact ⟨err, rfl, hmild⟩
  addsTables := by
    rintro txn ⟨id, hget⟩ name f s' hrun
    exact h.addTable_mild hget hrun
  frees := by
    rintro txn ⟨id, hget⟩ op hop
    obtain ⟨e', hwithout, hstep⟩ := h.step_end hop hget (.inl rfl)
    rw [hstep]
    exact h.frees hget hwithout
  misses op hmisses := hmisses.step_eq

-- ================================================================= runs

/-- One thing that happens to a session: an operation, or whatever may
become of the log behind its engine. -/
inductive Event where
  | call (op : Operation)
  | logged (f : HistoryLog → HistoryLog)

/-- The session after an event. -/
def Event.step (s : Session) : Event → Session
  | call op => op.step s
  | logged f =>
    { s with engine := { s.engine with log := s.engine.log.map f } }

/-- The session after a run of events. -/
def through (s : Session) (events : List Event) : Session :=
  events.foldl Event.step s

/-- A session over a database, with nothing lent out yet. -/
def serving (engine : Engine) (config : Config) (path : Option String) :
    Session :=
  { engine, config, path }

/-- Before anything is lent nobody has to be attended. -/
theorem attended_starting (hserial : e.Serial)
    (hleft : ∀ id, e.transaction? id = none) : Attended e {} := by
  refine ⟨hserial, Arena.formed_empty, fun id p => ?_, nofun⟩
  unfold Engine.post?
  rw [hleft id]
  refine ⟨nofun, ?_⟩
  rintro ⟨i, kind, hi, -⟩
  cases hi

/-- Every run of a session keeps writers attended. -/
theorem Attended.through (h : Attended s.engine s.transactions)
    (events : List Event) :
    Attended (s.through events).engine (s.through events).transactions := by
  induction events generalizing s with
  | nil => exact h
  | cons ev evs ih =>
      cases ev with
      | call op => exact ih (h.step op)
      | logged f =>
          have hlogged : Attended { s.engine with log := s.engine.log.map f }
              s.transactions :=
            h.of_posts (h.serial.logged _) fun _ => rfl
          exact @ih { s with engine := { s.engine with
            log := s.engine.log.map f } } hlogged

/-- A session that nobody shares its database with is never without a way to
write. At every point of every run, whatever the operations are given and
whatever becomes of the log, at most one transaction is lent out for
writing, it is active, and the slot is taken exactly while there is one. So
a writer begins exactly if no handle is one to a writer; the handle can be
used until it is given back, which frees the slot, whether or not the
operation that gives it back succeeds; and an operation that has no use for
its handle changes nothing. -/
theorem writer_never_wedged (snapshot : Snapshot) (log : Option HistoryLog)
    (limits : Limits) (earlier : List Engine.Event)
    (hleft : ∀ id, ((Engine.starting snapshot log limits).through
      earlier).transaction? id = none)
    (config : Config) (path : Option String) (events : List Event) :
    let s := (serving ((Engine.starting snapshot log limits).through earlier)
      config path).through events
    s.OneWriter ∧ s.NeverWedged := by
  intro s
  have hserial : ((Engine.starting snapshot log limits).through
      earlier).Serial := (Engine.serial_starting snapshot log limits).through
  have h : Attended s.engine s.transactions :=
    Attended.through (attended_starting hserial hleft) events
  exact ⟨h.oneWriter, h.neverWedged⟩

/-- A table is added, the log fails to take it, and the next one writes. -/
def refusedOnce : List Event :=
  [.call .beginWrite, .call (.addTable (Arena.pack 1 0) "t"),
    .logged fun log =>
      { log with store := log.store.mapFaults (·.failAppendsAfter 0) },
    .call (.commit (Arena.pack 1 0)), .call .beginWrite,
    .call (.rollback (Arena.pack 1 0))]

/-- The handle of the first is gone, whatever is done with it, and the second
has the slot. -/
theorem writer_never_wedged_refusedOnce :
    let log := HistoryLog.ofStore (.faulty (.memory []) {}) {}
    let limits := ({} : Config).limits
    let s := (serving (Engine.starting .empty (some log) limits) {}
      none).through refusedOnce
    s.OneWriter ∧ s.NeverWedged ∧ s.engine.version = .initial
      ∧ s.transactions.entries = [(Arena.pack 2 0, ⟨⟨2⟩, .write⟩)]
      ∧ s.engine.writerBusy = true := by
  intro log limits s
  obtain ⟨hone, hwedged⟩ := writer_never_wedged .empty (some log) limits []
    (fun _ => Std.TreeMap.getElem?_emptyc) {} none refusedOnce
  exact ⟨hone, hwedged, by decide +kernel, by decide +kernel,
    by decide +kernel⟩

end Session

end Colonnade.Boundary
