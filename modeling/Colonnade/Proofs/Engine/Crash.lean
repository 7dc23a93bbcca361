/-
Recovery after a crash. What commits have written and a crash has cut, at
whatever byte, opens to the state after the commits that were whole before
the cut: their records replay as they did, and the torn end is cut off. The
version that this comes to can be counted beforehand from the places where
the commits end, which is what a trial of recovery compares with.

Chain: `History.Cut` has what reading makes of a cut, `Engine.Ledger` what
the log of an engine holds.
-/
import Colonnade.Proofs.Engine.Ledger
import Colonnade.Trial.Crash

namespace Colonnade

open History (Entry Visited Written entries kept lastStop)

-- ============================================================ visiting

namespace History

variable {σ : Type} {step : CommitRecord → σ → σ → Prop}
  {visit : Nat → CommitRecord → Edit σ Unit} {s s' : σ}

/-- What a visitor makes of the entries is what it makes of the records. -/
theorem gives_entries
    (hvisit : ∀ n r s s', step r s s' → Edit.Gives (visit n r) s () s')
    {rs : List CommitRecord} (h : Visited step rs s s') (offset : Nat) :
    Edit.Gives ((entries offset rs).forM fun n => visit n.start n.record)
      s () s' := by
  induction h generalizing offset with
  | nil s => exact Edit.gives_pure.2 ⟨rfl, rfl⟩
  | cons hstep _ ih =>
      exact Edit.gives_forM_cons.2 ⟨_, hvisit _ _ _ _ hstep, ih _⟩

/-- The first of some records are visited first. -/
theorem Visited.before {before later : List CommitRecord}
    (h : Visited step (before ++ later) s s') :
    ∃ t, Visited step before s t := by
  induction before generalizing s with
  | nil => exact ⟨s, .nil s⟩
  | cons r rs ih =>
      cases h with
      | cons hstep hrest =>
          obtain ⟨t, ht⟩ := ih hrest
          exact ⟨t, .cons hstep ht⟩

end History

-- ============================================================ recovery

namespace HistoryLog

/-- A log that was cut recovers to what its whole frames lead to, and only
these are left in it. -/
theorem recover_cut {rs : List CommitRecord} {bytes : Bytes} {s : Snapshot}
    (hwritten : Written rs bytes) (hkeys : History.KeysNonneg rs)
    (hreplays : Visited Snapshot.Replays rs .empty s) {cut : Nat}
    (hcut : cut ≤ bytes.length) {log : HistoryLog}
    (hexact : log.store.Exact) (hbytes : log.store.bytes = bytes.take cut) :
    ∃ before whole t log', Written before whole
      ∧ kept rs cut = entries 0 before
      ∧ Visited Snapshot.Replays before .empty t
      ∧ Edit.Gives recover log t log' ∧ Holds log.format whole log' := by
  obtain ⟨before, whole, tail, hto⟩ := hwritten.cut hkeys cut
  obtain ⟨later, rfl⟩ := hto.records_eq
  obtain ⟨t, hbefore⟩ := hreplays.before
  have hleft : log.store.bytes = whole ++ tail := hbytes.trans hto.left_eq
  have hstop : lastStop (entries 0 before) = whole.length :=
    (hto.written.stop_last 0).trans (Nat.zero_add _)
  have htail : cut - whole.length = tail.length := by
    have hlength := congrArg List.length hto.left_eq
    rw [List.length_take, List.length_append] at hlength
    omega
  have hvisit (n : Nat) (r : CommitRecord) (s s' : Snapshot)
      (hr : Snapshot.Replays r s s') :
      Edit.Gives (Snapshot.replayRecord n r) s () s' :=
    Snapshot.gives_replayRecord.2 hr
  have hread := History.read_cut hwritten hkeys hcut hexact hbytes
    Snapshot.replayRecord
  rw [hto.kept_eq, hstop, htail] at hread
  obtain ⟨sum, hgives, hvalid, htorn⟩ : ∃ sum, Edit.Gives
      (History.read log.store Snapshot.replayRecord) .empty sum t
      ∧ sum.validLength = whole.length ∧ sum.tornTail = tail.length := by
    rw [hread]
    exact ⟨_, Edit.gives_bind.2 ⟨(), t, History.gives_entries hvisit hbefore 0,
      Edit.gives_pure.2 ⟨rfl, rfl⟩⟩, rfl, rfl⟩
  obtain ⟨log', hreplay, hholds⟩ :=
    gives_replay hexact hleft hgives hvalid htorn
  exact ⟨before, whole, t, log', hto.written, hto.kept_eq, hbefore,
    gives_recover.2 ⟨_, hreplay⟩, hholds⟩

end HistoryLog

-- ============================================================== the trial

namespace Trial

/-- The starts of all frames but the first, and the stop of the last, are
the stops of all. -/
theorem starts_and_stop (offset : Nat) (rs : List CommitRecord) :
    ((entries offset rs).map Entry.start).drop 1
        ++ (if 0 < rs.length
          then [((entries offset rs).getLast?.map Entry.stop).getD 0] else [])
      = (entries offset rs).map Entry.stop := by
  induction rs generalizing offset with
  | nil => rfl
  | cons r rs ih =>
      cases rs with
      | nil => rfl
      | cons next rs =>
          have hrest := ih (offset + Wire.frameSize r)
          simp only [entries, List.map_cons, List.getLast?_cons] at hrest ⊢
          simpa using hrest

/-- The commits of a log end where their frames stop. -/
theorem commitBoundaries_written {rs : List CommitRecord} {bytes : Bytes}
    (hwritten : Written rs bytes) (hkeys : History.KeysNonneg rs) :
    commitBoundaries bytes = .ok ((entries 0 rs).map Entry.stop) := by
  have hstarts (ns : List Entry) (before : List Nat) :
      (ns.forM fun n => (modify (· ++ [n.start]) : Edit (List Nat) Unit)).run
        before = .ok () (before ++ ns.map Entry.start) := by
    induction ns generalizing before with
    | nil => exact congrArg _ (List.append_nil before).symm
    | cons n ns ih =>
        have hrest := ih (before ++ [n.start])
        rw [List.append_assoc] at hrest
        exact hrest
  have hexact : (Store.memory bytes).Exact := trivial
  have hread := History.read_cut hwritten hkeys (Nat.le_refl _) hexact
    (List.take_length).symm fun offset _ =>
      (modify (· ++ [offset]) : Edit (List Nat) Unit)
  have hstops := starts_and_stop 0 rs
  unfold commitBoundaries
  dsimp only
  rw [hread, hwritten.kept_length (Nat.le_refl _), EStateM.run_bind, hstarts]
  dsimp only
  rw [History.length_entries, List.nil_append]
  exact congrArg Except.ok hstops

/-- A history that was cut anywhere opens, at the version that its commit
boundaries tell. -/
theorem reopenCut_written {rs : List CommitRecord} {bytes : Bytes}
    {s : Snapshot} (hwritten : Written rs bytes)
    (hkeys : History.KeysNonneg rs)
    (hreplays : Visited Snapshot.Replays rs .empty s) {cut : Nat}
    (hcut : cut ≤ bytes.length) :
    ∃ boundaries e, commitBoundaries bytes = .ok boundaries
      ∧ reopenCut bytes cut = .ok e
      ∧ e.version = expectedVersion boundaries cut := by
  have hexact : (HistoryLog.ofStore (.memory (bytes.take cut)) {}).store.Exact :=
    trivial
  obtain ⟨before, whole, t, log', -, hkept, hbefore, hrecover, -⟩ :=
    HistoryLog.recover_cut hwritten hkeys hreplays hcut hexact rfl
  have hopen := Engine.openOver_eq_ok.2 ⟨t, log', hrecover, rfl, rfl⟩
  refine ⟨_, _, commitBoundaries_written hwritten hkeys,
    congrArg Prod.fst hopen, ?_⟩
  have hcount : ((entries 0 rs).map Entry.stop).countP (· ≤ cut)
      = before.length := by
    rw [List.countP_map, List.countP_eq_length_filter,
      ← History.length_entries 0 before, ← hkept]
    rfl
  unfold expectedVersion
  rw [hcount]
  exact Snapshot.version_of_replays hbefore

end Trial

-- ========================================================== the histories

namespace Engine

variable {e : Engine}

/-- A database over what a crash has left of a history starts serial, and
with a ledger of what was whole. -/
theorem ledger_of_openOver {rs : List CommitRecord} {bytes : Bytes}
    {s : Snapshot} (hwritten : Written rs bytes)
    (hkeys : History.KeysNonneg rs)
    (hreplays : Visited Snapshot.Replays rs .empty s) {cut : Nat}
    (hcut : cut ≤ bytes.length) {store store' : Store} {config : Config}
    (hexact : store.Exact) (hbytes : store.bytes = bytes.take cut)
    (hformat : config.formatVersion = Wire.newestFormat)
    (hopen : openOver store config = (.ok e, store')) :
    e.Serial ∧ ∃ before, Ledger before e
      ∧ kept rs cut = entries 0 before := by
  obtain ⟨before, whole, t, log', hbefore, hkept, hreplayed, hrecover, hholds⟩ :=
    @HistoryLog.recover_cut _ _ _ hwritten hkeys hreplays _ hcut
      (.ofStore store config) hexact hbytes
  obtain ⟨s, log, hgives, rfl, -⟩ := openOver_eq_ok.1 hopen
  obtain ⟨rfl, rfl⟩ := hgives.unique hrecover
  exact ⟨serial_starting _ _ _, before, ⟨⟨whole, ⟨rfl, log, rfl,
    hformat ▸ hholds⟩, hbefore⟩, hreplayed⟩, hkept⟩

/-- A history that a database has written, in sessions that each go on from
where the one before has left off, or from what a crash has left of it. -/
inductive Recorded : Bytes → Prop
  | nothing : Recorded []
  | session {bytes : Bytes} {cut : Nat} {store store' : Store}
      {config : Config} {e : Engine} {events : List Event} {log : HistoryLog}
      (hbefore : Recorded bytes) (hcut : cut ≤ bytes.length)
      (hexact : store.Exact) (hbytes : store.bytes = bytes.take cut)
      (hformat : config.formatVersion = Wire.newestFormat)
      (hopen : openOver store config = (.ok e, store'))
      (hlog : (e.through events).log = some log)
      (hsize : log.store.bytes.length ≤ maxSize) :
      Recorded log.store.bytes

/-- It consists of records that replay. -/
theorem Recorded.written {bytes : Bytes} (h : Recorded bytes) :
    ∃ rs s, Written rs bytes ∧ History.KeysNonneg rs
      ∧ Visited Snapshot.Replays rs .empty s := by
  induction h with
  | nothing => exact ⟨[], .empty, .nil, nofun, .nil _⟩
  | @session _ _ _ _ _ e events _ _ hcut hexact hbytes hformat hopen hlog
      hsize ih =>
      obtain ⟨rs, s, hwritten, hkeys, hreplays⟩ := ih
      obtain ⟨hserial, before, hledger, -⟩ := ledger_of_openOver hwritten
        hkeys hreplays hcut hexact hbytes hformat hopen
      have hrun : Ledger (before ++ committed e events) (e.through events) :=
        hledger.through hserial
      obtain ⟨_, ⟨-, log, hsome, -, -, rfl⟩, hafter⟩ := hrun.holds
      obtain rfl := Option.some.inj (hlog.symm.trans hsome)
      exact ⟨_, _, hafter, keysNonneg_of_written hafter hsize hrun.replays,
        hrun.replays⟩

/-- Of records that were written, reading what a cut has left delivers
exactly those that are whole, in order, as they were and at the places where
they lie, and it succeeds and reports the rest as torn. So the history of a
database, cut anywhere, opens, and at the version that its commit boundaries
tell. -/
theorem cut_recovers_whole_commits :
    (∀ (rs : List CommitRecord) (bytes : Bytes), Written rs bytes →
      History.KeysNonneg rs → ∀ cut ≤ bytes.length, ∀ store : Store,
      store.Exact → store.bytes = bytes.take cut →
        (∀ (σ : Type) (visit : Nat → CommitRecord → Edit σ Unit),
          History.read store visit = (do
            (kept rs cut).forM fun n => visit n.start n.record
            return {
              records := (kept rs cut).length
              validLength := lastStop (kept rs cut)
              tornTail := cut - lastStop (kept rs cut)
              newestFormat :=
                if kept rs cut = [] then 0 else Wire.newestFormat }))
        ∧ ∀ n ∈ kept rs cut, Wire.encode Wire.newestFormat n.record
          = .ok ((bytes.drop n.start).take (n.stop - n.start)))
    ∧ ∀ bytes, Recorded bytes → ∀ cut ≤ bytes.length, ∃ boundaries e,
      Trial.commitBoundaries bytes = .ok boundaries
        ∧ Trial.reopenCut bytes cut = .ok e
        ∧ e.version = Trial.expectedVersion boundaries cut := by
  refine ⟨fun rs bytes hwritten hkeys cut hcut store hexact hbytes =>
    ⟨fun σ visit => ?_, fun n hn => ?_⟩, fun bytes hrecorded cut hcut => ?_⟩
  · exact History.read_cut hwritten hkeys hcut hexact hbytes visit
  · exact hwritten.located [] (List.mem_filter.1 hn).1
  · obtain ⟨rs, s, hwritten, hkeys, hreplays⟩ := hrecorded.written
    exact Trial.reopenCut_written hwritten hkeys hreplays hcut

/-- A history of one commit, cut anywhere. -/
theorem cut_recovers_whole_commits_firstCommit :
    ∃ bytes, Recorded bytes ∧ bytes ≠ [] ∧ ∀ cut ≤ bytes.length,
      ∃ boundaries e, Trial.commitBoundaries bytes = .ok boundaries
        ∧ Trial.reopenCut bytes cut = .ok e
        ∧ e.version = Trial.expectedVersion boundaries cut := by
  let e := fresh.through (firstCommit.map .call)
  have hkept : e.log.any (fun log => decide (log.store.bytes ≠ [])
      && decide (log.store.bytes.length ≤ maxSize)) = true := by
    decide +kernel
  obtain ⟨log, hlog, hbytes⟩ := (Option.any_eq_true _ _).1 hkept
  obtain ⟨hsome, hsize⟩ := Bool.and_eq_true_iff.1 hbytes
  have hexact : (Store.memory []).Exact := trivial
  have hrecorded : Recorded log.store.bytes :=
    .session .nothing (Nat.le_refl 0) hexact rfl rfl openOver_nil hlog
      (of_decide_eq_true hsize)
  exact ⟨_, hrecorded, of_decide_eq_true hsome,
    cut_recovers_whole_commits.2 _ hrecorded⟩

end Engine

end Colonnade
