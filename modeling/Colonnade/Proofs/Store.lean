/-
Stores that are what they say. A store is `Exact` if its size is the number
of bytes it holds and it can be cut: memory always is, a file is while
nobody else writes to it, and a fault switch in front of one changes when it
fails and not what it holds.

An exact store stays exact whatever is done to it. An append adds its bytes
or, failing, some of them, and a cut takes the end off; so a log that cuts
back after a failed append has exactly the bytes it had.

Chain: `History.Framed` reads and writes logs over exact stores.
-/
import Colonnade.Proofs.Edit
import Colonnade.History.Log

namespace Colonnade

namespace Store

/-- Whether the size of the store is that of its bytes, and it can be
cut. -/
def Exact : Store → Prop
  | memory _ => True
  | file f => f.knownSize = f.contents.length
  | faulty inner _ => inner.Exact
  | uncuttable _ => False

variable {s : Store}

theorem Exact.size_eq (h : s.Exact) : s.size = s.bytes.length := by
  induction s with
  | memory bs => rfl
  | file f => exact h
  | faulty inner faults ih => exact ih h
  | uncuttable inner => exact h.elim

/-- Reading a range that is there gives its bytes. -/
theorem Exact.readAt_eq (h : s.Exact) {offset length : Nat}
    (hle : offset + length ≤ s.bytes.length) :
    s.readAt offset length = .ok ((s.bytes.drop offset).take length) := by
  have hadd : addSizes offset length ≤ offset + length := Nat.min_le_left ..
  induction s with
  | memory bs =>
      have hle : offset + length ≤ bs.length := hle
      have hout : (decide (bs.length < offset)
          || decide (bs.length < addSizes offset length)) = false := by
        simp only [Bool.or_eq_false_iff, decide_eq_false_iff_not]
        omega
      unfold readAt
      rw [hout]
      rfl
  | file f =>
      have hle : offset + length ≤ f.contents.length := hle
      have hsize : f.knownSize = f.contents.length := h
      have hout : (decide (f.knownSize < offset)
          || decide (f.knownSize < addSizes offset length)) = false := by
        simp only [Bool.or_eq_false_iff, decide_eq_false_iff_not]
        omega
      have hfound : ((f.contents.drop offset).take length).length
          = length := by
        rw [List.length_take, List.length_drop]
        omega
      unfold readAt
      rw [hout]
      by_cases hzero : length = 0
      · subst hzero
        rfl
      · have hbeq : (length == 0) = false := by simpa using hzero
        simp only [hbeq, Bool.false_eq_true, if_false, hfound,
          Nat.lt_irrefl]
        rfl
  | faulty inner faults ih => exact ih h hle
  | uncuttable inner => exact h.elim

/-- An append adds the bytes, or it fails and adds some of them. -/
theorem Exact.append (h : s.Exact) (data : Bytes) :
    Edit.Meets (fun _ s' => s'.Exact ∧ s'.bytes = s.bytes ++ data)
      (fun s' => s'.Exact ∧ ∃ part, s'.bytes = s.bytes ++ part)
      (s.append data) := by
  induction s generalizing data with
  | memory bs => exact ⟨trivial, rfl⟩
  | file f =>
      unfold Store.append
      cases data with
      | nil => exact ⟨h, (List.append_nil _).symm⟩
      | cons b bs =>
          refine ⟨?_, rfl⟩
          show f.knownSize + _ = _
          rw [List.length_append, show f.knownSize = _ from h]
  | faulty inner faults ih =>
      unfold Store.append
      by_cases hrefuses : faults.refuses data.length = true
      · rw [if_pos hrefuses]
        by_cases hroom : faults.room = 0
        · rw [if_pos hroom]
          exact ⟨h, [], (List.append_nil _).symm⟩
        · rw [if_neg hroom]
          have hinner := ih h (data.take faults.room)
          cases hrun : inner.append (data.take faults.room) with
          | ok a s' =>
              rw [hrun] at hinner
              exact ⟨hinner.1, _, hinner.2⟩
          | error err s' =>
              rw [hrun] at hinner
              exact hinner
      · rw [if_neg hrefuses]
        have hinner := ih h data
        cases hrun : inner.append data with
        | ok a s' =>
            rw [hrun] at hinner
            exact hinner
        | error err s' =>
            rw [hrun] at hinner
            exact hinner
  | uncuttable inner => exact h.elim

/-- Flushing and syncing leave the bytes alone. -/
theorem Exact.settle (h : s.Exact) (operation : String) :
    Edit.Meets (fun _ s' => s'.Exact ∧ s'.bytes = s.bytes)
      (fun s' => s'.Exact ∧ s'.bytes = s.bytes) (s.settle operation) := by
  induction s with
  | memory bs => exact ⟨h, rfl⟩
  | file f => exact ⟨h, rfl⟩
  | faulty inner faults ih =>
      unfold Store.settle
      by_cases hfail : faults.failFlush = true
      · rw [if_pos hfail]
        exact ⟨h, rfl⟩
      · rw [if_neg hfail]
        have hinner := ih h
        cases hrun : inner.settle operation with
        | ok a s' =>
            rw [hrun] at hinner
            exact hinner
        | error err s' =>
            rw [hrun] at hinner
            exact hinner
  | uncuttable inner => exact h.elim

/-- A cut within the bytes succeeds. -/
theorem Exact.truncate (h : s.Exact) {n : Nat} (hn : n ≤ s.bytes.length) :
    ∃ s', s.truncate n = .ok () s' ∧ s'.Exact ∧ s'.bytes = s.bytes.take n := by
  induction s with
  | memory bs =>
      have hn : n ≤ bs.length := hn
      refine ⟨memory (bs.take n), ?_, trivial, rfl⟩
      unfold Store.truncate
      rw [if_neg (by omega)]
  | file f =>
      have hn : n ≤ f.contents.length := hn
      have hsize : f.knownSize = f.contents.length := h
      have hresize : OpenFile.resize f.contents n = f.contents.take n := by
        unfold OpenFile.resize
        rw [Nat.sub_eq_zero_of_le hn]
        exact List.append_nil _
      refine ⟨file ⟨OpenFile.resize f.contents n, n⟩, ?_, ?_, hresize⟩
      · unfold Store.truncate
        rw [if_neg (by omega)]
      · show n = (OpenFile.resize f.contents n).length
        rw [hresize, List.length_take]
        omega
  | faulty inner faults ih =>
      obtain ⟨s', hrun, hexact, hbytes⟩ := ih h hn
      refine ⟨faulty s' faults, ?_, hexact, hbytes⟩
      unfold Store.truncate
      rw [hrun]
      rfl
  | uncuttable inner => exact h.elim

/-- A fault switch can be turned at any time. -/
theorem Exact.mapFaults (h : s.Exact) (f : Faults → Faults) :
    (s.mapFaults f).Exact := by
  cases s with
  | memory | file | faulty => exact h
  | uncuttable inner => exact h.elim

theorem Exact.bytes_mapFaults (h : s.Exact) (f : Faults → Faults) :
    (s.mapFaults f).bytes = s.bytes := by
  cases s with
  | memory | file | faulty => rfl
  | uncuttable inner => exact h.elim

end Store

-- ================================================== logs over exact stores

namespace HistoryLog

/-- An append ends with the bytes added, or with some of them. -/
theorem append_ends (old data : Bytes) :
    Edit.Ends (fun s : Store => s.Exact ∧ s.bytes = old) (Store.append data)
      (fun _ s => s.Exact ∧ s.bytes = old ++ data)
      (fun s => s.Exact ∧ ∃ part, s.bytes = old ++ part) := by
  intro s hs
  rw [← hs.2]
  exact hs.1.append data

/-- What was added stays, whether or not it is seen on. -/
theorem settle_ends (old data : Bytes) (operation : String) :
    Edit.Ends (fun s : Store => s.Exact ∧ s.bytes = old ++ data)
      (Store.settle operation) (fun _ s => s.Exact ∧ s.bytes = old ++ data)
      (fun s => s.Exact ∧ ∃ part, s.bytes = old ++ part) := by
  intro s hs
  have h := hs.1.settle operation
  show Edit.Meets _ _ (s.settle operation)
  cases hrun : s.settle operation with
  | ok a s' =>
      rw [hrun] at h
      exact ⟨h.1, h.2.trans hs.2⟩
  | error err s' =>
      rw [hrun] at h
      exact ⟨h.1, data, h.2.trans hs.2⟩

/-- Writing adds the bytes, or it fails and adds some of them. -/
theorem write_ends (old data : Bytes) (sync : Bool) :
    Edit.Ends (fun s : Store => s.Exact ∧ s.bytes = old) (write data sync)
      (fun _ s => s.Exact ∧ s.bytes = old ++ data)
      (fun s => s.Exact ∧ ∃ part, s.bytes = old ++ part) := by
  unfold write
  refine (append_ends old data).bind fun offset =>
    (settle_ends old data "flush").bind fun _ => ?_
  split
  · exact (settle_ends old data "sync").bind fun _ => .pure fun _ h => h
  · exact .pure fun _ h => h

theorem run_onStore {α : Type} (step : EStateM StoreFault Store α)
    (log : HistoryLog) :
    (onStore step).run log
      = match step.run log.store with
        | .ok a store => .ok (.ok a) { log with store }
        | .error e store => .ok (.error e) { log with store } := rfl

/-- A step of the store ends as it does there; its refusal is a value. -/
theorem onStore_ends {α : Type} {P E : Store → Prop} {Q : α → Store → Prop}
    {F : HistoryLog → Prop} {step : EStateM StoreFault Store α}
    (h : Edit.Ends P step Q E) (format : UInt16) :
    Edit.Ends (fun log => log.format = format ∧ P log.store) (onStore step)
      (fun r log => log.format = format ∧ Edit.Handed Q E r log.store)
      F := by
  intro log hlog
  have hstep := h log.store hlog.2
  rw [run_onStore]
  cases hout : step.run log.store with
  | ok a store =>
      rw [hout] at hstep
      exact ⟨hlog.1, hstep⟩
  | error err store =>
      rw [hout] at hstep
      exact ⟨hlog.1, hstep⟩

/-- What a log was and holds. -/
structure Holds (format : UInt16) (bytes : Bytes) (log : HistoryLog) :
    Prop where
  format_eq : log.format = format
  exact : log.store.Exact
  bytes_eq : log.store.bytes = bytes

/-- Turning the fault switch changes nothing that the log holds. -/
theorem Holds.mapFaults {format : UInt16} {bytes : Bytes} {log : HistoryLog}
    (h : log.Holds format bytes) (f : Faults → Faults) :
    Holds format bytes { log with store := log.store.mapFaults f } where
  format_eq := h.format_eq
  exact := h.exact.mapFaults f
  bytes_eq := (h.exact.bytes_mapFaults f).trans h.bytes_eq

/-- Cutting off what was added leaves what was there before, and succeeds. -/
theorem truncate_ends (bytes : Bytes) :
    Edit.Ends (fun s : Store => s.Exact ∧ ∃ part, s.bytes = bytes ++ part)
      (Store.truncate bytes.length) (fun _ s => s.Exact ∧ s.bytes = bytes)
      (fun _ => False) := by
  rintro s ⟨hexact, part, hbytes⟩
  have hle : bytes.length ≤ s.bytes.length := by
    rw [hbytes, List.length_append]
    omega
  obtain ⟨s', hcut, hexact', hbytes'⟩ := hexact.truncate hle
  show Edit.Meets _ _ (s.truncate bytes.length)
  rw [hcut]
  refine ⟨hexact', ?_⟩
  rw [hbytes', hbytes, List.take_left]

/-- What was added to a log can be cut off again. -/
theorem run_truncate {log : HistoryLog} {bytes part : Bytes}
    (hexact : log.store.Exact) (hbytes : log.store.bytes = bytes ++ part) :
    ∃ log', (onStore (Store.truncate bytes.length)).run log = .ok (.ok ()) log'
      ∧ Holds log.format bytes log' := by
  have hle : bytes.length ≤ log.store.bytes.length := by
    rw [hbytes, List.length_append]
    omega
  obtain ⟨store, hcut, hexact', hbytes'⟩ := hexact.truncate hle
  refine ⟨{ log with store }, ?_, rfl, hexact', ?_⟩
  · unfold onStore
    dsimp only [EStateM.run]
    rw [hcut]
  · rw [show ({ log with store } : HistoryLog).store.bytes = _ from hbytes',
      hbytes, List.take_left]

/-- Appending a commit adds its frame, or it fails and the log holds what it
held. -/
theorem appendCommit_ends (format : UInt16) (bytes : Bytes)
    (record : CommitRecord) :
    Edit.Ends (Holds format bytes) (appendCommit record)
      (fun _ log => ∃ data, Wire.encode format record = .ok data
        ∧ Holds format (bytes ++ data) log)
      (Holds format bytes) := by
  refine Edit.Ends.get_bind fun log hlog => ?_
  obtain ⟨rfl, hexact, rfl⟩ := hlog
  refine Edit.Ends.lift_bind (fun data hdata => ?_) ?_
  · refine Edit.Ends.bind ((onStore_ends (write_ends log.store.bytes data
      log.syncOnCommit) log.format).weaken (fun l hl => ?_)
      (fun _ _ h => h) fun _ h => h) fun r => ?_
    · rw [hl]
      exact ⟨rfl, hexact, rfl⟩
    cases r with
    | ok offset =>
        exact Edit.Ends.pure fun l hl =>
          ⟨data, hdata, hl.1, hl.2.1, hl.2.2⟩
    | error failed =>
        have hsize : log.size = log.store.bytes.length := hexact.size_eq
        dsimp only
        rw [hsize]
        refine (onStore_ends (truncate_ends log.store.bytes)
          log.format).bind fun r => ?_
        cases r with
        | ok u =>
            exact Edit.Ends.throw fun l hl => ⟨hl.1, hl.2.1, hl.2.2⟩
        | error restore => exact Edit.Ends.throw fun l hl => hl.2.elim
  · rintro l rfl
    exact ⟨rfl, hexact, rfl⟩

end HistoryLog

end Colonnade
