/-
Recovery as a relation. `Snapshot.Replays` says what replaying one record
does: the record is of the next version, and its instructions, applied
without limits, lead from one snapshot to the next. A log recovers to a
snapshot when it is framed and its records replay, one after the other, from
the empty database to that snapshot.

Recovery that succeeds over an exact store leaves such a log, its torn tail
cut off; and over such a log it succeeds and leaves the log alone. So what
is known of a log once it was opened, or since, decides what any later
opening finds.

Chain: `Engine.Recoverable` keeps the log of an engine such a log.
-/
import Colonnade.Proofs.History.Framed
import Colonnade.Proofs.Snapshot.Keys
import Colonnade.Proofs.Wire.Keys
import Colonnade.Engine

namespace Colonnade

namespace Snapshot

/-- What replaying a record does. -/
structure Replays (r : CommitRecord) (s s' : Snapshot) : Prop where
  version_eq : r.version = s.version.next
  applied : ∃ t, Edit.Gives (applyAll .none r.instructions) s () t
    ∧ { t with version := r.version } = s'

/-- An instruction is replayed if it applies. -/
theorem gives_replayInstruction {offset : Nat} {i : Instruction}
    {s s' : Snapshot} :
    Edit.Gives (replayInstruction offset i) s () s'
      ↔ Edit.Gives (apply .none i) s () s' := by
  unfold replayInstruction
  rw [Edit.gives_bind]
  constructor
  · intro h
    obtain ⟨outcome, t, hattempt, h⟩ := h
    cases outcome with
    | ok u =>
        obtain ⟨-, rfl⟩ := Edit.gives_pure.1 h
        exact Edit.gives_attempt_ok.1 hattempt
    | error e => exact (Edit.gives_throw.1 h).elim
  · intro h
    exact ⟨.ok (), s', Edit.gives_attempt_ok.2 h, Edit.gives_pure.2 ⟨rfl, rfl⟩⟩

/-- Instructions are replayed if they apply. -/
theorem gives_replayInstructions {offset : Nat} {is : List Instruction}
    {s s' : Snapshot} :
    Edit.Gives (is.forM (replayInstruction offset)) s () s'
      ↔ Edit.Gives (applyAll .none is) s () s' := by
  induction is generalizing s with
  | nil => exact Iff.rfl
  | cons i is ih =>
      unfold applyAll at ih ⊢
      rw [Edit.gives_forM_cons, Edit.gives_forM_cons]
      simp only [gives_replayInstruction, ih]

/-- A record is replayed if its instructions apply and its version follows. -/
theorem gives_replayRecord {offset : Nat} {r : CommitRecord}
    {s s' : Snapshot} :
    Edit.Gives (replayRecord offset r) s () s' ↔ Replays r s s' := by
  simp only [replayRecord, Edit.gives_bind, Edit.gives_get, Edit.throw_bind,
    Edit.gives_guard, Edit.gives_modify, exists_unit,
    gives_replayInstructions, Decidable.not_not]
  constructor
  · intro h
    obtain ⟨_, _, ⟨rfl, rfl⟩, hversion, happlied⟩ := h
    exact ⟨hversion, happlied⟩
  · intro h
    exact ⟨s, s, ⟨rfl, rfl⟩, h.version_eq, h.applied⟩

/-- The record of instructions that were carried out replays, if it can be
written. Fewer of them than a record may hold are applied without any limits
alike. -/
theorem Replays.of_encode {limits : Limits} {r : CommitRecord}
    {s t : Snapshot} {data : Bytes} (hversion : r.version = s.version.next)
    (happlied : Edit.Gives (applyAll limits r.instructions) s () t)
    (hencode : Wire.encode Wire.newestFormat r = .ok data) :
    Replays r s { t with version := r.version } := by
  obtain ⟨-, hlength, -⟩ := Wire.encode_eq_ok.1 hencode
  have hmax : Wire.maxCount ≤ maxSize := by decide
  unfold Wire.payloadBytes at hlength
  simp only [List.length_append] at hlength
  have hlen : (r.instructions.flatMap Wire.instructionBytes).length
      ≤ maxSize := by omega
  exact ⟨hversion, t, applyAll_unlimited happlied hlen, rfl⟩

/-- What replaying reaches was reached by instructions. -/
theorem reached_of_visited {records : List CommitRecord}
    {is : List Instruction} {s s' : Snapshot}
    (h : History.Visited Replays records s s') (hs : Reached is s) :
    Reached (is ++ records.flatMap (·.instructions)) s' := by
  induction h generalizing is with
  | nil s => rwa [List.flatMap_nil, List.append_nil]
  | cons hstep _ ih =>
      obtain ⟨t, happlied, rfl⟩ := hstep.applied
      rw [List.flatMap_cons, ← List.append_assoc]
      exact ih ((hs.applyAll happlied).renumber _)

/-- What replaying reaches from rows without negative keys has none, if no
record names one. -/
theorem keysNonneg_of_visited {records : List CommitRecord}
    {s s' : Snapshot} (h : History.Visited Replays records s s')
    (hs : s.KeysNonneg)
    (hrecords : ∀ r ∈ records, ∀ i ∈ r.instructions, i.KeysNonneg) :
    s'.KeysNonneg := by
  induction h with
  | nil s => exact hs
  | cons hstep _ ih =>
      obtain ⟨hr, hrs⟩ := List.forall_mem_cons.1 hrecords
      obtain ⟨t, happlied, rfl⟩ := hstep.applied
      have ht : t.KeysNonneg := hs.applyAll happlied hr
      exact ih ht hrs

end Snapshot

-- ============================================================ recovery

namespace HistoryLog

open History

/-- Whether the bytes of a log lead from the empty database to a
snapshot. -/
def LeadsTo (bytes : Bytes) (s : Snapshot) : Prop :=
  ∃ records, Framed bytes records ∧ Visited Snapshot.Replays records .empty s

/-- The empty log leads to the empty database. -/
theorem leadsTo_nil : LeadsTo [] .empty := ⟨[], .nil, .nil _⟩

/-- A frame that replays leads on. -/
theorem LeadsTo.append {bytes data : Bytes} {s s' : Snapshot}
    {h : Wire.Header} {r : CommitRecord} (hlog : LeadsTo bytes s)
    (hframe : Wire.IsFrame data h r) (hreplays : Snapshot.Replays r s s') :
    LeadsTo (bytes ++ data) s' := by
  obtain ⟨records, hframed, hseen⟩ := hlog
  exact ⟨records ++ [r], hframed.append hframe, hseen.append hreplays⟩

/-- The encoded record of instructions that were carried out leads on to what
they led to. -/
theorem LeadsTo.append_encoded {bytes data : Bytes} {limits : Limits}
    {r : CommitRecord} {s t : Snapshot} (hlog : LeadsTo bytes s)
    (hversion : r.version = s.version.next)
    (happlied : Edit.Gives (Snapshot.applyAll limits r.instructions) s () t)
    (hkeys : ∀ i ∈ r.instructions, i.KeysNonneg)
    (hencode : Wire.encode Wire.newestFormat r = .ok data) :
    LeadsTo (bytes ++ data) { t with version := r.version } :=
  hlog.append (Wire.isFrame_of_encode hkeys hencode)
    (.of_encode hversion happlied hencode)

/-- What bytes lead to is reached. -/
theorem LeadsTo.reached {bytes : Bytes} {s : Snapshot}
    (h : LeadsTo bytes s) : ∃ is, Snapshot.Reached is s := by
  obtain ⟨records, -, hseen⟩ := h
  exact ⟨_, Snapshot.reached_of_visited hseen .empty⟩

/-- What bytes lead to has keys that can be read. -/
theorem LeadsTo.keysNonneg {bytes : Bytes} {s : Snapshot}
    (h : LeadsTo bytes s) : s.KeysNonneg := by
  obtain ⟨records, hframed, hseen⟩ := h
  exact Snapshot.keysNonneg_of_visited hseen Snapshot.keysNonneg_empty
    hframed.keysNonneg

/-- A log is recovered by replaying it from nothing. -/
theorem gives_recover {log log' : HistoryLog} {s : Snapshot} :
    Edit.Gives recover log s log'
      ↔ ∃ sum, Edit.Gives (replay Snapshot.replayRecord) (log, .empty) sum
        (log', s) := by
  unfold Edit.Gives recover
  dsimp only [EStateM.run]
  cases replay Snapshot.replayRecord (log, .empty) with
  | ok sum p =>
      constructor
      · intro h
        cases h
        exact ⟨sum, rfl⟩
      · intro h
        obtain ⟨_, h⟩ := h
        cases h
        rfl
  | error e p => exact ⟨nofun, fun ⟨_, h⟩ => nomatch h⟩

/-- Recovery leaves a log that leads to what it gives. -/
theorem leadsTo_of_recover {log log' : HistoryLog} {s : Snapshot}
    (hexact : log.store.Exact) (h : Edit.Gives recover log s log') :
    ∃ bytes, Holds log.format bytes log' ∧ LeadsTo bytes s := by
  obtain ⟨sum, h⟩ := gives_recover.1 h
  simp only [replay, Edit.gives_bind, Edit.gives_get, Edit.gives_focus] at h
  obtain ⟨_, _, ⟨rfl, rfl⟩, done, _, ⟨t, hread, rfl⟩, h⟩ := h
  have hvisit (n : Nat) (r : CommitRecord) (s s' : Snapshot)
      (hr : Edit.Gives (Snapshot.replayRecord n r) s () s') :
      Snapshot.Replays r s s' := Snapshot.gives_replayRecord.1 hr
  obtain ⟨body, records, tail, hbytes, hframed, hvalid, htorn, hseen⟩ :=
    readFrom_gives hexact hvisit hread
  rw [List.drop_zero] at hbytes
  rw [Nat.zero_add] at hvalid
  by_cases htail : 0 < done.tornTail
  · rw [if_pos htail, hvalid] at h
    simp only [Edit.gives_bind, Edit.gives_focus] at h
    obtain ⟨outcome, _, ⟨l, hcut, rfl⟩, h⟩ := h
    have hends : Edit.Meets _ (fun _ => False) _ :=
      onStore_ends (truncate_ends body) log.format log
        ⟨rfl, hexact, tail, hbytes⟩
    rw [show EStateM.run _ _ = _ from hcut] at hends
    cases outcome with
    | ok u =>
        obtain ⟨-, hp⟩ := Edit.gives_pure.1 h
        cases hp
        exact ⟨body, ⟨hends.1, hends.2.1, hends.2.2⟩, records, hframed, hseen⟩
    | error err => exact hends.2.elim
  · rw [if_neg htail] at h
    obtain ⟨-, hp⟩ := Edit.gives_pure.1 h
    cases hp
    have hnil : tail = [] := List.eq_nil_of_length_eq_zero (by omega)
    rw [hnil, List.append_nil] at hbytes
    exact ⟨body, ⟨rfl, hexact, hbytes⟩, records, hframed, hseen⟩

/-- A log that leads to a snapshot is recovered to it and left alone. -/
theorem recover_of_leadsTo {log : HistoryLog} {s : Snapshot}
    (hexact : log.store.Exact) (h : LeadsTo log.store.bytes s) :
    Edit.Gives recover log s log := by
  obtain ⟨records, hframed, hseen⟩ := h
  have hvisit (n : Nat) (r : CommitRecord) (s s' : Snapshot)
      (hr : Snapshot.Replays r s s') :
      Edit.Gives (Snapshot.replayRecord n r) s () s' :=
    Snapshot.gives_replayRecord.2 hr
  rw [← @List.drop_zero _ log.store.bytes] at hframed
  obtain ⟨sum, hread, htorn⟩ := readFrom_of_framed hexact hvisit hseen
    hframed {}
  refine gives_recover.2 ⟨sum, ?_⟩
  simp only [replay, Edit.gives_bind, Edit.gives_get, Edit.gives_focus]
  refine ⟨_, _, ⟨rfl, rfl⟩, sum, _, ⟨s, hread, rfl⟩, ?_⟩
  rw [if_neg (by omega)]
  exact Edit.gives_pure.2 ⟨rfl, rfl⟩

end HistoryLog

-- ============================================================= opening

namespace Engine

/-- Opening over a store gives an engine that starts from what was
recovered. -/
theorem openOver_eq_ok {store : Store} {config : Config} {e : Engine}
    {after : Store} :
    openOver store config = (.ok e, after)
      ↔ ∃ s log, Edit.Gives HistoryLog.recover (.ofStore store config) s log
        ∧ starting s (some log) config.limits = e ∧ log.store = after := by
  unfold openOver Edit.Gives
  cases HistoryLog.recover.run (.ofStore store config) with
  | ok s log => simp [and_assoc]
  | error err log => simp

/-- What a log leads to is what it opens to, and opening leaves it alone. -/
theorem openOver_of_leadsTo {bytes : Bytes} {s : Snapshot}
    (h : HistoryLog.LeadsTo bytes s) (config : Config) :
    ∃ e, openOver (.memory bytes) config = (.ok e, .memory bytes)
      ∧ e.current = s := by
  let log : HistoryLog := .ofStore (.memory bytes) config
  have hrecover : Edit.Gives HistoryLog.recover log s log :=
    HistoryLog.recover_of_leadsTo trivial h
  exact ⟨_, openOver_eq_ok.2 ⟨_, _, hrecover, rfl, rfl⟩, rfl⟩

end Engine

end Colonnade
