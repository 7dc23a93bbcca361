/-
What the counters of an engine say. Every event has a bill: what it adds to
each counter. Bills are added up along a run, so no counter ever decreases;
and what has to be shown of the counters is shown of the bill of one event,
where it is a matter of a few numbers.

A bill has a commit and its instructions exactly for the record that the
event commits, and the version goes up by as much. Of those who have begun to
write it keeps account by the writer slot: a bill has a writer begun exactly
if the slot is taken by the event, and a commit or a rollback exactly if it
is given back. The bytes are those that the log has grown by. A commit that
fails makes the log longer and shorter again, and is billed a rollback and no
bytes.

Chain: over `Engine.Events`, which has the outcome of every call, and
`Engine.Formats`, which has what the log holds.
-/
import Colonnade.Proofs.Engine.Formats

namespace Colonnade

-- ============================================================ the counters

/-- Counters that are at least as far as others, each of them. -/
structure Stats.Le (a b : Stats) : Prop where
  readTransactions : a.readTransactions ≤ b.readTransactions
  writeTransactions : a.writeTransactions ≤ b.writeTransactions
  commits : a.commits ≤ b.commits
  rollbacks : a.rollbacks ≤ b.rollbacks
  advances : a.advances ≤ b.advances
  instructions : a.instructions ≤ b.instructions
  historyBytes : a.historyBytes ≤ b.historyBytes
  staleHandleUses : a.staleHandleUses ≤ b.staleHandleUses
  versionsReclaimed : a.versionsReclaimed ≤ b.versionsReclaimed

/-- Counters with a bill added. -/
def Stats.plus (a b : Stats) : Stats where
  readTransactions := a.readTransactions + b.readTransactions
  writeTransactions := a.writeTransactions + b.writeTransactions
  commits := a.commits + b.commits
  rollbacks := a.rollbacks + b.rollbacks
  advances := a.advances + b.advances
  instructions := a.instructions + b.instructions
  historyBytes := a.historyBytes + b.historyBytes
  staleHandleUses := a.staleHandleUses + b.staleHandleUses
  versionsReclaimed := a.versionsReclaimed + b.versionsReclaimed

namespace Stats

instance : LE Stats := ⟨Stats.Le⟩

instance : Add Stats := ⟨Stats.plus⟩

variable (a b c : Stats)

theorem nothing_add : ({} : Stats) + a = a := by
  show Stats.plus {} a = a
  simp only [plus, Nat.zero_add]

theorem add_assoc : a + b + c = a + (b + c) := by
  show Stats.plus (Stats.plus a b) c = Stats.plus a (Stats.plus b c)
  simp only [plus, Nat.add_assoc]

theorem le_add : a ≤ a + b := by
  constructor <;> exact Nat.le_add_right _ _

end Stats

/-- Whether a transaction is a writer that has not ended. -/
def Transaction.isActive (t : Transaction) : Bool :=
  t.role matches .writer .active _

/-- A transaction is active if it writes. -/
theorem Transaction.isActive_iff {t : Transaction} :
    t.isActive = true ↔ t.IsWriting := by
  unfold isActive IsWriting
  split
  next hrole => exact ⟨fun _ => ⟨_, hrole⟩, fun _ => rfl⟩
  next hno => exact ⟨nofun, fun ⟨holdsSlot, hrole⟩ => (hno _ hrole).elim⟩

namespace Engine

open History (Stamped)
open Trial.Faults (stored)

variable {e e' e'' : Engine} {id : TransactionId} {t : Transaction}
  {ev : Event} {events : List Event} {bill bill' : Stats}
  {rs rs' : List CommitRecord} {format : UInt16} {bytes : Bytes}

/-- How many transactions write. -/
def activeWriters (e : Engine) : Nat :=
  e.transactions.values.countP (·.isActive)

/-- The slot is taken exactly while one does. -/
theorem Serial.activeWriters_eq (h : e.Serial) :
    e.activeWriters = e.writerBusy.toNat := by
  unfold activeWriters
  cases h.slot with
  | free hfree hnone =>
      rw [hfree]
      refine List.countP_eq_zero.2 fun t ht hactive => ?_
      obtain ⟨id, ht⟩ := OrderedMap.mem_values.1 ht
      exact hnone id t ht (Transaction.isActive_iff.1 hactive)
  | held hbusy ht hrole hsole =>
      rw [hbusy]
      exact OrderedMap.countP_values_eq_one ht
        (Transaction.isActive_iff.2 ⟨true, hrole⟩)
        fun a u hu hactive => hsole a u hu (Transaction.isActive_iff.1 hactive)

-- ================================================================== bills

/-- What is added to the counters between two engines, when these records
were committed in between. -/
structure Billed (e : Engine) (bill : Stats) (rs : List CommitRecord)
    (e' : Engine) : Prop where
  stats_eq : e'.stats = e.stats + bill
  commits_eq : bill.commits = rs.length
  instructions_eq :
    bill.instructions = (rs.flatMap (·.instructions)).length
  version_eq : e'.version.raw = e.version.raw + UInt64.ofNat rs.length
  writers_eq : e.writerBusy.toNat + bill.writeTransactions
    = bill.commits + bill.rollbacks + e'.writerBusy.toNat

namespace Billed

/-- Two steps are billed one after the other. -/
theorem trans (h : e.Billed bill rs e') (h' : e'.Billed bill' rs' e'') :
    e.Billed (bill + bill') (rs ++ rs') e'' where
  stats_eq := by rw [h'.stats_eq, h.stats_eq, Stats.add_assoc]
  commits_eq := by
    show bill.commits + bill'.commits = _
    rw [h.commits_eq, h'.commits_eq, List.length_append]
  instructions_eq := by
    show bill.instructions + bill'.instructions = _
    rw [h.instructions_eq, h'.instructions_eq, List.flatMap_append,
      List.length_append]
  version_eq := by
    rw [h'.version_eq, h.version_eq, List.length_append, UInt64.ofNat_add,
      UInt64.add_assoc]
  writers_eq := by
    show _ + (bill.writeTransactions + bill'.writeTransactions)
      = bill.commits + bill'.commits + (bill.rollbacks + bill'.rollbacks) + _
    have hfirst := h.writers_eq
    have hsecond := h'.writers_eq
    omega

/-- A step is billed the same where the engine is the same. -/
theorem of_same (h : e.Billed bill rs e') (hsame : Same e'' e') :
    e.Billed bill rs e'' where
  stats_eq := hsame.stats_eq.trans h.stats_eq
  commits_eq := h.commits_eq
  instructions_eq := h.instructions_eq
  version_eq := by
    unfold version
    rw [hsame.current_eq]
    exact h.version_eq
  writers_eq := hsame.writerBusy_eq ▸ h.writers_eq

/-- What neither commits nor begins or ends a writer. -/
theorem aside (hstats : e'.stats = e.stats + bill)
    (hcurrent : e'.current = e.current)
    (hbusy : e'.writerBusy = e.writerBusy)
    (hnone : bill.commits = 0 ∧ bill.instructions = 0
      ∧ bill.writeTransactions = 0 ∧ bill.rollbacks = 0) :
    e.Billed bill [] e' := by
  obtain ⟨hcommits, hinstructions, hwriters, hrollbacks⟩ := hnone
  refine ⟨hstats, hcommits, hinstructions, ?_, ?_⟩
  · unfold version
    rw [hcurrent]
    exact (UInt64.add_zero _).symm
  · rw [hbusy, hcommits, hrollbacks, hwriters]
    omega

theorem refl (e : Engine) : e.Billed {} [] e :=
  aside rfl rfl rfl ⟨rfl, rfl, rfl, rfl⟩

/-- The log is not among what is counted. -/
theorem relogged (h : e.Billed bill rs e') (log : Option HistoryLog) :
    e.Billed bill rs { e' with log } :=
  { h with }

/-- A writer that begins is billed as one. -/
theorem began (hfree : e.writerBusy = false) :
    e.Billed { writeTransactions := 1 } [] e.begun where
  stats_eq := rfl
  commits_eq := rfl
  instructions_eq := rfl
  version_eq := (UInt64.add_zero _).symm
  writers_eq := by
    rw [hfree]
    rfl

/-- A commit is billed with its instructions. -/
theorem advanced (hbusy : e.writerBusy = true) (id : TransactionId)
    (t u : Transaction) (log : Option HistoryLog) (grown : Nat) :
    e.Billed
      { commits := 1, instructions := t.view.changes.size
        historyBytes := grown
        versionsReclaimed := (e.pins.setCurrent e.version.next).2 }
      [e.recordOf t] (e.advanced id t u log grown) where
  stats_eq := rfl
  commits_eq := rfl
  instructions_eq := by simp [recordOf]
  version_eq := rfl
  writers_eq := by
    rw [hbusy]
    rfl

/-- An aborted writer is billed as rolled back. -/
theorem aborted (hbusy : e.writerBusy = true) (id : TransactionId)
    (t : Transaction) :
    e.Billed { rollbacks := 1 } [] (e.aborted id t) where
  stats_eq := rfl
  commits_eq := rfl
  instructions_eq := rfl
  version_eq := (UInt64.add_zero _).symm
  writers_eq := by
    rw [hbusy]
    rfl

/-- A dropped transaction is billed with the versions that lapse. -/
theorem dropped (e : Engine) (id : TransactionId) (t : Transaction) :
    e.Billed { versionsReclaimed := (e.pins.unpin t.pinned).2 } []
      (e.dropped id t) :=
  aside rfl rfl rfl ⟨rfl, rfl, rfl, rfl⟩

/-- A pin that moves is billed with the versions that lapse. -/
theorem repinned (e : Engine) (v w : Version) :
    e.Billed { versionsReclaimed := ((e.pins.pin w).unpin v).2 } []
      (e.repinned v w) :=
  aside rfl rfl rfl ⟨rfl, rfl, rfl, rfl⟩

/-- Handles can only have come too late, however often. -/
theorem handled (h : Relation.ReflTransGen Handled e e') :
    ∃ bill, e.Billed bill [] e' ∧ bill.historyBytes = 0 := by
  have hlasting : Lasting fun e' =>
      ∃ bill, e.Billed bill [] e' ∧ bill.historyBytes = 0 := by
    intro e₁ e₂ hsofar hstep
    obtain ⟨bill, hbilled, hbytes⟩ := hsofar
    cases hstep with
    | counted =>
        have hlate : e₁.Billed { staleHandleUses := 1 } [] { e₁ with
            stats := { e₁.stats with
              staleHandleUses := e₁.stats.staleHandleUses + 1 } } :=
          aside rfl rfl rfl ⟨rfl, rfl, rfl, rfl⟩
        exact ⟨_, hbilled.trans hlate, hbytes⟩
    | kept ht => exact ⟨bill, { hbilled with }, hbytes⟩
    | wrote ht hwrote => exact ⟨bill, { hbilled with }, hbytes⟩
  exact hlasting.star h ⟨{}, refl e, rfl⟩

end Billed

/-- The bytes on a bill are those by which appending the record has made the
log longer. -/
inductive Grows (e : Engine) : Option CommitRecord → Nat → Engine → Prop
  | nothing {e' : Engine} : Grows e none 0 e'
  | record {r : CommitRecord} {grown : Nat} {e' : Engine}
      (hlog : appendTo r e.log = (.ok grown, e'.log)) :
      Grows e (some r) grown e'

/-- What an event is billed. -/
def Event.Costs (e : Engine) (ev : Event) (bill : Stats) : Prop :=
  e.Billed bill (ev.record? e).toList (ev.step e)
    ∧ Grows e (ev.record? e) bill.historyBytes (ev.step e)

/-- Every call is billed by how it comes out. -/
theorem Outcome.billed {c : Call} {r : EStateM.Result Error Engine Unit}
    (houtcome : Outcome e c r) (h : e.Serial) (hrun : c.run.run e = r) :
    ∃ bill, (Event.call c).Costs e bill := by
  unfold Event.Costs
  show ∃ bill, Billed e bill _ (c.step e) ∧ Grows e _ _ (c.step e)
  have hbusy {id : TransactionId} {t : Transaction}
      (ht : e.transaction? id = some t)
      (hrole : t.role = .writer .active true) : e.writerBusy = true :=
    (h.active ht ⟨true, hrole⟩).1
  cases houtcome with
  | handled hc hstar =>
      obtain ⟨bill, hbilled, hbytes⟩ := Billed.handled hstar
      rw [record?_of_none (Call.commits?_of_handled hc)]
      exact ⟨bill, hbilled, hbytes.symm ▸ .nothing⟩
  | idle hc _ =>
      rw [record?_of_none hc, step_of_ok hrun]
      exact ⟨{}, .refl e, .nothing⟩
  | failed _ =>
      rw [record?_of_error hrun, step_of_error hrun]
      exact ⟨{}, .refl e, .nothing⟩
  | reading =>
      rw [record?_of_none rfl, step_of_ok hrun]
      exact ⟨{ readTransactions := 1 },
        .aside rfl rfl rfl ⟨rfl, rfl, rfl, rfl⟩, .nothing⟩
  | writing hfree =>
      rw [record?_of_none rfl, step_of_ok hrun]
      exact ⟨_, .began hfree, .nothing⟩
  | @committed id t log grown e' ht hrole hlog hsame =>
      have hlog' : e'.log = log := hsame.log_eq
      rw [record?_of_ok rfl hrun ht, step_of_ok hrun]
      exact ⟨_, (Billed.advanced (hbusy ht hrole) id t _ log grown).of_same
        hsame, .record (hlog'.symm ▸ hlog)⟩
  | @refused id t log err e' ht hrole hlog hsame =>
      -- The log has been cut back to where it was, so there are no bytes.
      rw [record?_of_error hrun, step_of_error hrun]
      exact ⟨_, ((Billed.aborted (hbusy ht hrole) id t).relogged log).of_same
        hsame, .nothing⟩
  | @handedOff id t log grown e' ht hrole hlog hsame =>
      have hlog' : e'.log = log := hsame.log_eq
      have hboth := (Billed.advanced (hbusy ht hrole) id t (e.reader t) log
        grown).trans (.repinned _ t.pinned (e.nextOf t).version)
      rw [record?_of_ok rfl hrun ht, step_of_ok hrun]
      exact ⟨_, hboth.of_same hsame, .record (hlog'.symm ▸ hlog)⟩
  | @lost id t log err e' ht hrole hlog hsame =>
      have hboth := (Billed.aborted (hbusy ht hrole) id t).trans
        (.dropped _ id t)
      rw [record?_of_error hrun, step_of_error hrun]
      exact ⟨_, (hboth.relogged log).of_same hsame, .nothing⟩
  | consumed ht hidle =>
      rw [record?_of_error hrun, step_of_error hrun]
      exact ⟨_, .dropped e _ _, .nothing⟩
  | @rolledBack id t e' ht hrole hsame =>
      rw [record?_of_none rfl, step_of_ok hrun]
      exact ⟨_, (Billed.aborted (hbusy ht hrole) id t).of_same hsame,
        .nothing⟩
  | dropped ht hidle =>
      rw [record?_of_none rfl, step_of_ok hrun]
      exact ⟨_, .dropped e _ _, .nothing⟩
  | @droppedWriter id t e' ht hrole hsame =>
      have hboth := (Billed.aborted (hbusy ht hrole) id t).trans
        (.dropped _ id t)
      rw [record?_of_none rfl, step_of_ok hrun]
      exact ⟨_, hboth.of_same hsame, .nothing⟩
  | @moved id t ht hpinned =>
      rw [record?_of_none rfl, step_of_ok hrun]
      refine ⟨{ advances := 1, versionsReclaimed :=
          ((e.pins.pin e.version).unpin t.pinned).2 },
        .aside rfl rfl rfl ⟨rfl, rfl, rfl, rfl⟩, .nothing⟩

/-- Every event has its bill. -/
theorem Serial.costs (h : e.Serial) (ev : Event) : ∃ bill, ev.Costs e bill := by
  cases ev with
  | call c => exact (h.outcome c).billed h rfl
  | turn f => exact ⟨{}, .aside rfl rfl rfl ⟨rfl, rfl, rfl, rfl⟩, .nothing⟩

-- ======================================================== along a run

/-- A log that was appended to has grown by the bytes that it has more. -/
theorem length_of_appendTo {r : CommitRecord} {grown : Nat} {bytes' : Bytes}
    (h : e.LogHolds format bytes) (h' : e'.LogHolds format bytes')
    (hlog : appendTo r e.log = (.ok grown, e'.log)) :
    grown = bytes'.length - bytes.length := by
  obtain ⟨before, hbefore, hholds⟩ := h
  obtain ⟨after, hafter, hholds'⟩ := h'
  rw [hbefore, hafter] at hlog
  unfold appendTo at hlog
  dsimp only at hlog
  cases hrun : (HistoryLog.appendCommit r).run before with
  | error err log =>
      rw [hrun] at hlog
      cases hlog
  | ok offset log =>
      rw [hrun] at hlog
      cases hlog
      unfold HistoryLog.size
      rw [hholds.exact.size_eq, hholds'.exact.size_eq, hholds.bytes_eq,
        hholds'.bytes_eq]

/-- The bytes on the bill of an event are those of the frame that it adds to
the log, if it adds one. -/
theorem Serial.costs_frame (h : e.Serial) (hholds : e.LogHolds format bytes)
    (ev : Event) :
    ∃ bill data, e.Billed bill (ev.record? e).toList (ev.step e)
      ∧ Stamped format (ev.record? e).toList data
      ∧ (ev.step e).LogHolds format (bytes ++ data)
      ∧ bill.historyBytes = data.length := by
  obtain ⟨bill, hbilled, hgrows⟩ := h.costs ev
  obtain ⟨bytes', hadds, hholds'⟩ := h.adds_frame hholds ev
  generalize ev.record? e = record? at hbilled hgrows hadds
  cases hadds with
  | nothing =>
      refine ⟨bill, [], hbilled, .nil, (List.append_nil bytes).symm ▸ hholds', ?_⟩
      generalize bill.historyBytes = grown at hgrows
      cases hgrows
      rfl
  | @frame r data hencode =>
      refine ⟨bill, data, hbilled, Stamped.nil.append hencode, hholds', ?_⟩
      generalize bill.historyBytes = grown at hgrows
      cases hgrows with
      | record hlog =>
          rw [length_of_appendTo hholds hholds' hlog, List.length_append]
          omega

/-- The bills of a run add up. -/
theorem Serial.costs_through (h : e.Serial) (hholds : e.LogHolds format bytes)
    (events : List Event) :
    ∃ bill data, e.Billed bill (committed e events) (e.through events)
      ∧ Stamped format (committed e events) data
      ∧ (e.through events).LogHolds format (bytes ++ data)
      ∧ bill.historyBytes = data.length := by
  induction events generalizing e bytes with
  | nil =>
      exact ⟨{}, [], .refl e, .nil, (List.append_nil bytes).symm ▸ hholds, rfl⟩
  | cons ev evs ih =>
      obtain ⟨bill, data, hbilled, hstamped, hholds', hbytes⟩ :=
        h.costs_frame hholds ev
      obtain ⟨bill', data', hbilled', hstamped', hholds'', hbytes'⟩ :=
        ih ((h.step ev).serial h) hholds'
      refine ⟨bill + bill', data ++ data', hbilled.trans hbilled',
        hstamped.trans hstamped', ?_, ?_⟩
      · rw [← List.append_assoc]
        exact hholds''
      · rw [List.length_append, ← hbytes, ← hbytes']
        rfl

/-- An opened engine has counted nothing, and its log holds frames that its
version is the number of. -/
theorem opened_over {store store' : Store} {config : Config}
    (hexact : store.Exact) (hopen : openOver store config = (.ok e, store')) :
    ∃ bytes, e.Serial ∧ e.stats = {} ∧ e.writerBusy = false
      ∧ e.LogHolds config.formatVersion bytes
      ∧ e.version.raw.toNat ≤ bytes.length := by
  obtain ⟨s, log, hrecover, rfl, -⟩ := openOver_eq_ok.1 hopen
  obtain ⟨bytes, hholds, records, hframed, hseen⟩ :=
    HistoryLog.leadsTo_of_recover hexact hrecover
  refine ⟨bytes, serial_starting .., rfl, rfl, ⟨log, rfl, hholds⟩, ?_⟩
  have hversion : s.version = ⟨UInt64.ofNat records.length⟩ :=
    Snapshot.version_of_replays hseen
  refine Nat.le_trans ?_ hframed.length_le
  show s.version.raw.toNat ≤ _
  rw [hversion]
  exact Nat.mod_le _ _

/-- What the counters of an engine are, when since it was opened as `start`
these records have been committed. -/
structure Balances (format : UInt16) (start : Engine) (rs : List CommitRecord)
    (e : Engine) : Prop where
  commits_eq : e.stats.commits = rs.length
  version_eq :
    e.version.raw = start.version.raw + UInt64.ofNat e.stats.commits
  /-- The version is a word, which has no room to wrap around in a store that
  can be addressed. -/
  toNat_version_eq : (stored e).length ≤ maxSize →
    e.version.raw.toNat = start.version.raw.toNat + e.stats.commits
  writeTransactions_eq : e.stats.writeTransactions
    = e.stats.commits + e.stats.rollbacks + e.activeWriters
  instructions_eq :
    e.stats.instructions = (rs.flatMap (·.instructions)).length
  length_stored_eq :
    (stored e).length = (stored start).length + e.stats.historyBytes
  stored_eq :
    ∃ data, stored e = stored start ++ data ∧ Stamped format rs data

/-- The bill of a run is what the counters are after it, and they balance. -/
theorem Billed.balances {start : Engine} {data : Bytes}
    (hbilled : start.Billed bill rs e) (hserial : e.Serial)
    (hnothing : start.stats = {}) (hfree : start.writerBusy = false)
    (hroom : start.version.raw.toNat ≤ (stored start).length)
    (hstored : stored e = stored start ++ data)
    (hstamped : Stamped format rs data)
    (hbytes : bill.historyBytes = data.length) :
    Balances format start rs e := by
  have hbill : e.stats = bill := by
    rw [hbilled.stats_eq, hnothing, Stats.nothing_add]
  have hcommits : e.stats.commits = rs.length := hbill ▸ hbilled.commits_eq
  have hversion : e.version.raw
      = start.version.raw + UInt64.ofNat e.stats.commits :=
    hcommits ▸ hbilled.version_eq
  -- Each frame takes a byte at least, so there are no more commits than bytes.
  refine ⟨hcommits, hversion, fun hsize => ?_, ?_,
    hbill ▸ hbilled.instructions_eq, ?_, data, hstored, hstamped⟩
  · have hmax : maxSize = 2 ^ 64 - 1 := by decide
    have hfits : rs.length ≤ data.length := hstamped.length_le
    rw [hstored, List.length_append] at hsize
    rw [hversion, UInt64.toNat_add, UInt64.toNat_ofNat']
    omega
  · have hwriters : start.writerBusy.toNat + bill.writeTransactions
        = bill.commits + bill.rollbacks + e.writerBusy.toNat :=
      hbilled.writers_eq
    rw [hfree, Bool.toNat_false, Nat.zero_add] at hwriters
    rw [hserial.activeWriters_eq, hbill]
    exact hwriters
  · rw [hstored, List.length_append, hbill, hbytes]

/-- The counters balance. Over a store with a fault switch, whatever it holds
and however the switch is turned, at every point between calls: the commits
counted are those that have succeeded, and the version is by so many beyond
the one that was opened; every writer that was begun has been committed or
rolled back or is active; the instructions counted are those of the records
committed; and the bytes counted are those by which the store has grown,
which are the frames of these records. No counter ever decreases. A `write`
goes through events as well, so all of this holds after it too. The counters
are numbers without end; kept in words of 64 bits they say this as long as
each of them is below 2^64. -/
theorem counters_balance {bytes : Bytes} {faults : Faults} {config : Config}
    {start : Engine} {store : Store}
    (hopen : openOver (.faulty (.memory bytes) faults) config
      = (.ok start, store)) (events : List Event) :
    let e := start.through events
    Balances config.formatVersion start (committed start events) e
      ∧ (∀ more, e.stats ≤ (start.through (events ++ more)).stats)
      ∧ ∀ (α : Type) (f : TransactionId → Edit Engine α) outcome within,
        (e.writerBusy = false → (Edit.attempt (f e.nextId)).run e.begun
          = .ok outcome (e.begun.through within)) →
        ∃ (result : Except Error α) (after : List Event), (write f).run e
          = (liftM result : Edit Engine α).run
              (start.through (events ++ after)) := by
  intro e
  have hexact : (Store.faulty (.memory bytes) faults).Exact := trivial
  obtain ⟨base, hstart, hnothing, hfree, hholds, hroom⟩ :=
    opened_over hexact hopen
  have hserial : e.Serial := hstart.through
  obtain ⟨bill, data, hbilled, hstamped, hholds', hbytes⟩ :=
    hstart.costs_through hholds events
  have hbefore : stored start = base := hholds.stored_eq
  have hafter : stored e = stored start ++ data :=
    hbefore ▸ hholds'.stored_eq
  refine ⟨hbilled.balances hserial hnothing hfree (hbefore ▸ hroom) hafter
    hstamped hbytes, fun more => ?_, fun α f outcome within hf => ?_⟩
  · obtain ⟨bill', -, hmore, -⟩ := hserial.costs_through hholds' more
    rw [through_append, hmore.stats_eq]
    exact Stats.le_add _ _
  · obtain ⟨result, after, hrun⟩ := write_through hserial hf
    exact ⟨result, after, through_append start events after ▸ hrun⟩

/-- The second commit gives out and costs a rollback; the third is handed
off to a reader, and the last writer is still at it. -/
def worksOn : List Event :=
  givesOut ++ [.call (.commit ⟨2⟩), .turn (·.heal), .call .beginWrite,
    .call (.addTable ⟨3⟩ "v"), .call (.commitAndRead ⟨3⟩), .call .beginWrite]

/-- There are two commits in four writers, and the bytes are those of two
frames. -/
theorem counters_balance_worksOn :
    let e := switched.through worksOn
    Balances Wire.newestFormat switched (committed switched worksOn) e
      ∧ (committed switched worksOn).length = 2
      ∧ (e.stats.commits, e.stats.rollbacks, e.activeWriters) = (2, 1, 1)
      ∧ e.stats.historyBytes = (stored e).length := by
  intro e
  have hbalances : Balances _ switched (committed switched worksOn) e :=
    (counters_balance openOver_switched worksOn).1
  have hnew : (stored switched).length = 0 := rfl
  have hgrown := hbalances.length_stored_eq
  rw [hnew, Nat.zero_add] at hgrown
  exact ⟨hbalances, by decide +kernel, by decide +kernel, hgrown.symm⟩

end Engine

end Colonnade
