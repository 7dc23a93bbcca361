/-
Databases opened in any format. The number of the format goes from the
configuration into every frame and is looked at by nobody who writes; who
reads knows one number. So a database in another format works as long as it
is open, and all that it has committed is refused when the log is opened
again, for the header of the first frame. In the known format it opens at
the version of the last commit, whatever the limits were.

`Ledger` has the known format in its definition. What is needed of the
others is less: that the log holds frames in that format (`Stamped`), which
every event keeps.

Chain: `Engine.Ledger` for the known format, `Engine.Untraced` for what is
stored.
-/
import Colonnade.Proofs.Engine.Untraced
import Colonnade.Proofs.History.Damaged

namespace Colonnade

open History (Visited)
open Trial.Faults (stored)

-- ==================================================== the last version

/-- The version of the last of some records. -/
def lastVersion (rs : List CommitRecord) : Version :=
  (rs.getLast?.map (·.version)).getD Snapshot.empty.version

/-- Replaying leads to the version of the last record. -/
theorem Snapshot.version_of_visited_last {rs : List CommitRecord}
    {s s' : Snapshot} (h : Visited Replays rs s s') :
    s'.version = (rs.getLast?.map (·.version)).getD s.version := by
  induction h with
  | nil s => rfl
  | @cons r rs s t u hstep _ ih =>
      obtain ⟨v, -, rfl⟩ := hstep.applied
      rw [ih, List.getLast?_cons]
      cases rs.getLast? <;> rfl

-- ================================================== frames in a format

namespace History

open Wire

/-- Bytes that are the frames of records in one format. -/
inductive Stamped (format : UInt16) : List CommitRecord → Bytes → Prop
  | nil : Stamped format [] []
  | append {rs : List CommitRecord} {r : CommitRecord} {bytes data : Bytes}
      (h : Stamped format rs bytes) (hencode : encode format r = .ok data) :
      Stamped format (rs ++ [r]) (bytes ++ data)

variable {format : UInt16} {rs : List CommitRecord} {bytes : Bytes}

/-- The frames of some records and then of others. -/
theorem Stamped.trans (h : Stamped format rs bytes)
    {rs' : List CommitRecord} {bytes' : Bytes}
    (h' : Stamped format rs' bytes') :
    Stamped format (rs ++ rs') (bytes ++ bytes') := by
  induction h' with
  | nil =>
      rw [List.append_nil, List.append_nil]
      exact h
  | append _ hencode ih =>
      rw [← List.append_assoc, ← List.append_assoc]
      exact ih.append hencode

/-- There are no more records than bytes. -/
theorem Stamped.length_le (h : Stamped format rs bytes) :
    rs.length ≤ bytes.length := by
  induction h with
  | nil => exact Nat.le_refl 0
  | @append rs r bytes data _ hencode ih =>
      have hroom : 0 < data.length := by
        rw [length_of_encode hencode]
        exact frameSize_pos r
      rw [List.length_append, List.length_append]
      exact Nat.add_le_add ih hroom

/-- They begin with one of them, unless there are none. -/
theorem Stamped.first (h : Stamped format rs bytes) :
    (rs = [] ∧ bytes = [])
      ∨ rs ≠ [] ∧ ∃ r data rest, encode format r = .ok data
        ∧ bytes = data ++ rest := by
  induction h with
  | nil => exact .inl ⟨rfl, rfl⟩
  | @append rs r bytes data _ hencode ih =>
      refine .inr ⟨by simp, ?_⟩
      rcases ih with ⟨-, rfl⟩ | ⟨-, r', data', rest, hencode', rfl⟩
      · exact ⟨r, data, [], hencode, (List.append_nil data).symm⟩
      · exact ⟨r', data', rest ++ data, hencode', List.append_assoc ..⟩

/-- The reader refuses the first frame in a format that it does not know. -/
theorem read_unknownFormat (hne : format ≠ newestFormat) {r : CommitRecord}
    {data : Bytes} (hencode : encode format r = .ok data) (rest : Bytes)
    {σ : Type} (visit : Nat → CommitRecord → Edit σ Unit) (s : σ) :
    (read (.memory (data ++ rest)) visit).run s
      = .error (.corrupt 0 (.unsupportedFormat format)) s := by
  have hsize := length_of_encode hencode
  have hpos := frameSize_pos r
  have hlarge : headerSize ≤ data.length := by
    rw [hsize]
    unfold frameSize
    omega
  have hlength : (data ++ rest).length = data.length + rest.length :=
    List.length_append
  have hexact : (Store.memory (data ++ rest)).Exact := trivial
  have hread : (Store.memory (data ++ rest)).readAt 0 headerSize
      = .ok (data.take headerSize) := by
    rw [hexact.readAt_eq (by show _ ≤ (data ++ rest).length; omega)]
    exact congrArg Except.ok (List.take_append_of_le_length hlarge)
  -- the format is looked at before the checksum of the header
  have hhead : Header.parse (data.take headerSize)
      = .error (.unsupportedFormat format) := by
    obtain ⟨-, hcount, rfl⟩ := encode_eq_ok.1 hencode
    have hlen := length_closed_headerBytes format (payloadBytes r).length
    unfold frame
    rw [show ∀ bs, closed bs = bs ++ u32Bytes (crc32 bs) from fun _ => rfl,
      List.append_assoc, List.take_left' hlen]
    exact parse_headerBytes_of_ne hne hcount
  have hframe : frameAt? (.memory (data ++ rest)) 0
      = .error (.corrupt 0 (.unsupportedFormat format)) := by
    have hroom : ¬ (Store.memory (data ++ rest)).size - 0 < headerSize := by
      show ¬ (data ++ rest).length - 0 < headerSize
      omega
    unfold frameAt?
    dsimp only
    rw [if_neg hroom, hread]
    show (ofRecord 0 (Header.parse (data.take headerSize)) >>= _) = _
    rw [hhead]
    rfl
  have hin : 0 < (Store.memory (data ++ rest)).size := by
    show 0 < (data ++ rest).length
    omega
  unfold read
  rw [readFrom_damaged hin hframe]
  rfl

end History

-- ====================================================== along a run

namespace Engine

open History (Stamped)

variable {e e' : Engine} {format : UInt16} {rs : List CommitRecord}
  {bytes : Bytes}

/-- What the log holds, in whatever format. -/
def LogHolds (format : UInt16) (bytes : Bytes) (e : Engine) : Prop :=
  ∃ log, e.log = some log ∧ log.Holds format bytes

/-- What an event adds to the log: the frame of its record, if it has
one. -/
inductive Adds (format : UInt16) (bytes : Bytes) :
    Option CommitRecord → Bytes → Prop
  | nothing : Adds format bytes none bytes
  | frame {r : CommitRecord} {data : Bytes}
      (hencode : Wire.encode format r = .ok data) :
      Adds format bytes (some r) (bytes ++ data)

theorem LogHolds.of_log_eq (h : e.LogHolds format bytes)
    (heq : e'.log = e.log) : e'.LogHolds format bytes := by
  unfold LogHolds
  rw [heq]
  exact h

theorem LogHolds.stored_eq (h : e.LogHolds format bytes) :
    stored e = bytes :=
  let ⟨_, hlog, hholds⟩ := h
  stored_of_holds hlog hholds

/-- Turning a switch leaves what the log holds. -/
theorem LogHolds.turned (h : e.LogHolds format bytes) (f : Faults → Faults) :
    (e.turned f).LogHolds format bytes := by
  obtain ⟨log, hlog, hholds⟩ := h
  refine ⟨_, ?_, hholds.mapFaults f⟩
  unfold Engine.turned
  rw [hlog]
  rfl

/-- A record that is appended adds its frame. -/
theorem LogHolds.appended {r : CommitRecord} {log : Option HistoryLog}
    {grown : Nat} (h : e.LogHolds format bytes)
    (hlog : appendTo r e.log = (.ok grown, log)) (heq : e'.log = log) :
    ∃ data, Wire.encode format r = .ok data
      ∧ e'.LogHolds format (bytes ++ data) := by
  obtain ⟨before, hbefore, hholds⟩ := h
  rw [hbefore] at hlog
  obtain ⟨data, after, hafter, hencode, hholds'⟩ := appendTo_ok hlog hholds
  exact ⟨data, hencode, after, heq.trans hafter, hholds'⟩

/-- One that is not appended adds nothing. -/
theorem LogHolds.refused {r : CommitRecord} {log : Option HistoryLog}
    {err : Error} (h : e.LogHolds format bytes)
    (hlog : appendTo r e.log = (.error err, log)) (heq : e'.log = log) :
    e'.LogHolds format bytes := by
  obtain ⟨before, hbefore, hholds⟩ := h
  rw [hbefore] at hlog
  obtain ⟨after, hafter, hholds'⟩ := appendTo_error hlog hholds
  exact ⟨after, heq.trans hafter, hholds'⟩

theorem lasting_logHolds (format : UInt16) (bytes : Bytes) :
    Lasting (LogHolds format bytes) := by
  intro e e' h hstep
  cases hstep <;> exact h

/-- An event adds the frame of what it commits, in the format of the log,
and nothing else. -/
theorem Serial.adds_frame (h : e.Serial) (hholds : e.LogHolds format bytes)
    (ev : Event) :
    ∃ bytes', Adds format bytes (ev.record? e) bytes'
      ∧ (ev.step e).LogHolds format bytes' := by
  cases ev with
  | turn f => exact ⟨bytes, .nothing, hholds.turned f⟩
  | call c =>
      have houtcome := h.outcome c
      show ∃ bytes', Adds format bytes _ bytes'
        ∧ (c.step e).LogHolds format bytes'
      cases hrun : c.run.run e with
      | error err e' =>
          rw [hrun] at houtcome
          rw [record?_of_error hrun, step_of_error hrun]
          refine ⟨bytes, .nothing, ?_⟩
          cases houtcome with
          | handled _ hstar =>
              rw [step_of_error hrun] at hstar
              exact (lasting_logHolds format bytes).star hstar hholds
          | failed => exact hholds
          | refused _ _ hlog hsame => exact hholds.refused hlog hsame.log_eq
          | lost _ _ hlog hsame => exact hholds.refused hlog hsame.log_eq
          | consumed => exact hholds.of_log_eq rfl
      | ok u e' =>
          rw [hrun] at houtcome
          rw [step_of_ok hrun]
          cases houtcome with
          | committed ht _ hlog hsame =>
              obtain ⟨data, hencode, hholds'⟩ :=
                hholds.appended hlog hsame.log_eq
              rw [record?_of_ok rfl hrun ht]
              exact ⟨_, .frame hencode, hholds'⟩
          | handedOff ht _ hlog hsame =>
              obtain ⟨data, hencode, hholds'⟩ :=
                hholds.appended hlog hsame.log_eq
              rw [record?_of_ok rfl hrun ht]
              exact ⟨_, .frame hencode, hholds'⟩
          -- what is done through transactions leaves the log alone
          | handled hc hstar =>
              rw [record?_of_none (Call.commits?_of_handled hc)]
              rw [step_of_ok hrun] at hstar
              exact ⟨bytes, .nothing,
                (lasting_logHolds format bytes).star hstar hholds⟩
          | idle hc =>
              rw [record?_of_none hc]
              exact ⟨bytes, .nothing, hholds⟩
          | reading | writing | dropped | moved =>
              rw [record?_of_none rfl]
              exact ⟨bytes, .nothing, hholds.of_log_eq rfl⟩
          | rolledBack _ _ hsame | droppedWriter _ _ hsame =>
              rw [record?_of_none rfl]
              exact ⟨bytes, .nothing, hholds.of_log_eq hsame.log_eq⟩

/-- After a run the log has the frames of what was committed before and of
what the run commits. -/
theorem Serial.stamped_through (h : e.Serial) (hstamped : Stamped format rs bytes)
    (hholds : e.LogHolds format bytes) (events : List Event) :
    ∃ bytes', Stamped format (rs ++ committed e events) bytes'
      ∧ (e.through events).LogHolds format bytes' := by
  induction events generalizing e rs bytes with
  | nil =>
      rw [committed, List.append_nil]
      exact ⟨bytes, hstamped, hholds⟩
  | cons ev evs ih =>
      obtain ⟨bytes', hadds, hholds'⟩ := h.adds_frame hholds ev
      have hserial : (ev.step e).Serial := (h.step ev).serial h
      rw [committed, ← List.append_assoc]
      refine ih hserial ?_ hholds'
      generalize ev.record? e = record? at hadds
      cases hadds with
      | nothing =>
          rw [Option.toList_none, List.append_nil]
          exact hstamped
      | frame hencode => exact hstamped.append hencode

-- ============================================================ reopening

/-- A new database over empty memory. -/
def opening (config : Config) : Engine :=
  starting .empty (some (.ofStore (.memory []) config)) config.limits

/-- Opening empty memory succeeds with every configuration. -/
theorem openOver_empty (config : Config) :
    openOver (.memory []) config = (.ok (opening config), .memory []) := by
  have hexact : (HistoryLog.ofStore (.memory []) config).store.Exact := trivial
  have hrecover := HistoryLog.recover_of_leadsTo hexact HistoryLog.leadsTo_nil
  exact openOver_eq_ok.2 ⟨_, _, hrecover, rfl, rfl⟩

/-- What was committed in an unknown format is refused when it is opened. -/
theorem openOver_unknownFormat {bytes : Bytes}
    (hstamped : Stamped format rs bytes) (hne : format ≠ Wire.newestFormat)
    (hrs : rs ≠ []) (config : Config) :
    openOver (.memory bytes) config
      = (.error (.corrupt 0 (.unsupportedFormat format)), .memory bytes) := by
  rcases hstamped.first with ⟨hnone, -⟩ | ⟨-, r, data, rest, hencode, rfl⟩
  · exact absurd hnone hrs
  · have hread := History.read_unknownFormat hne hencode rest
      Snapshot.replayRecord .empty
    have hrecover : HistoryLog.recover.run
        (.ofStore (.memory (data ++ rest)) config) = .error _ _ :=
      HistoryLog.run_recover_error hread
    unfold openOver
    rw [hrecover]
    rfl

/-- Every configuration opens empty memory. What its commits have stored
opens again, at the version of the last of them, exactly if the format is
the one that the reader knows or nothing was committed; limits play no part.
Otherwise every opening is refused, and leaves the bytes. -/
theorem reopens_iff_knownFormat (config : Config) (events : List Event) :
    let e := (opening config).through events
    let rs := committed (opening config) events
    openOver (.memory []) config = (.ok (opening config), .memory [])
    ∧ ((stored e).length ≤ maxSize → ∀ config',
      ((∃ e', openOver (.memory (stored e)) config'
            = (.ok e', .memory (stored e)) ∧ e'.version = lastVersion rs)
        ↔ config.formatVersion = Wire.newestFormat ∨ rs = [])
      ∧ (config.formatVersion ≠ Wire.newestFormat → rs ≠ [] →
        openOver (.memory (stored e)) config'
          = (.error (.corrupt 0 (.unsupportedFormat config.formatVersion)),
            .memory (stored e)))) := by
  intro e rs
  have hserial : (opening config).Serial := serial_starting ..
  have hempty : (opening config).LogHolds config.formatVersion [] :=
    ⟨_, rfl, rfl, trivial, rfl⟩
  obtain ⟨bytes, hstamped, log, hlog, hholds⟩ :=
    hserial.stamped_through .nil hempty events
  rw [List.nil_append] at hstamped
  have hstored : stored e = bytes := stored_of_holds hlog hholds
  refine ⟨openOver_empty config, fun hsize config' => ⟨⟨?_, ?_⟩, ?_⟩⟩
  · rintro ⟨e', hopen, -⟩
    by_contra hneither
    obtain ⟨hne, hrs⟩ := not_or.1 hneither
    rw [hstored, openOver_unknownFormat hstamped hne hrs] at hopen
    cases hopen
  · rintro (hformat | hrs)
    · have hexact : (Store.memory []).Exact := trivial
      obtain ⟨-, hledger⟩ :=
        ledger_of_nil hexact rfl hformat (openOver_empty config)
      have hrun : Ledger rs e := hledger.through hserial
      obtain ⟨e', hopen, hcurrent⟩ := hrun.reopens hsize config'
      refine ⟨e', hopen, ?_⟩
      unfold version
      rw [hcurrent]
      exact Snapshot.version_of_visited_last hrun.replays
    -- nothing was committed, so there is no frame whose format could be
    -- refused
    · rcases hstamped.first with ⟨-, hnil⟩ | ⟨hsome, -⟩
      · rw [hstored, hnil, hrs]
        exact ⟨_, openOver_empty config', rfl⟩
      · exact absurd hrs hsome
  · intro hne hrs
    rw [hstored]
    exact openOver_unknownFormat hstamped hne hrs config'

/-- A new database in a format, after a writer has committed a table. -/
def afterFirst (format : UInt16) : Engine :=
  (opening { formatVersion := format }).through (firstCommit.map .call)

/-- One commit in the known format opens again; one in the next is
refused. -/
theorem reopens_iff_knownFormat_firstCommit :
    (∃ e', openOver (.memory (stored (afterFirst 1))) {}
        = (.ok e', .memory (stored (afterFirst 1))) ∧ e'.version = ⟨1⟩)
      ∧ openOver (.memory (stored (afterFirst 2))) {}
        = (.error (.corrupt 0 (.unsupportedFormat 2)),
          .memory (stored (afterFirst 2))) := by
  have hknown : (stored (afterFirst 1)).length ≤ maxSize := by decide +kernel
  have hother : (stored (afterFirst 2)).length ≤ maxSize := by decide +kernel
  have hlast : lastVersion (committed (opening { formatVersion := 1 })
      (firstCommit.map .call)) = ⟨1⟩ := by decide +kernel
  have hsome : committed (opening { formatVersion := 2 })
      (firstCommit.map .call) ≠ [] := by decide +kernel
  constructor
  · obtain ⟨e', hopen, hversion⟩ :=
      ((reopens_iff_knownFormat { formatVersion := 1 }
        (firstCommit.map .call)).2 hknown {}).1.2 (.inl rfl)
    exact ⟨e', hopen, hversion.trans hlast⟩
  · exact ((reopens_iff_knownFormat { formatVersion := 2 }
      (firstCommit.map .call)).2 hother {}).2 (by decide) hsome

/-- The commit succeeds, and what it stored does not open. -/
theorem commit_in_format_two_lost :
    (committed (opening { formatVersion := 2 })
        (firstCommit.map .call)).map (·.version) = [⟨1⟩]
      ∧ ¬ ∃ e' store, openOver (.memory (stored (afterFirst 2))) {}
        = (.ok e', store) := by
  refine ⟨by decide +kernel, ?_⟩
  have hfails : (openOver (.memory (stored (afterFirst 2))) {}).1.isOk
      = false := by decide +kernel
  rintro ⟨e', store, hopen⟩
  rw [hopen] at hfails
  cases hfails

end Engine

end Colonnade
