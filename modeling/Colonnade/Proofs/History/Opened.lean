/-
Opening a log that may hold anything. Nothing is known of the bytes here:
they need not be frames, nor have ever been written by a commit.

What the reader makes of one place is a frame that lies within the store, or
it is that the rest is broken off, or damage at that place. So a reading
either comes to a rest that is broken off and has then accounted for every
byte, or it stops inside the bytes, for damage there or because the visitor
will have no more. The store is never asked for a range that it does not
hold: its refusal would be an error of neither kind.

Opening visits with `replayRecord`, which fails for damage only. So opening
fails and leaves the store as it was, or it cuts off what is broken off. What
is left then leads to a snapshot, and opens to that snapshot ever after.

Chain: `History.Replayed` has why a second opening changes nothing.
-/
import Colonnade.Proofs.History.Damaged

namespace Colonnade

namespace History

open Wire

-- ======================================================== one place

/-- What an append that never finished would leave: less than a header, or a
header and less than the frame that it promises. -/
def BrokenOff (tail : Bytes) : Prop :=
  tail.length < headerSize
    ∨ ∃ h, Header.parse (tail.take headerSize) = .ok h
      ∧ tail.length < h.frameLength

section Place

variable {store : Store} {offset : Nat}

/-- Behind its end a store has only broken off. -/
theorem brokenOff_of_size_le (hexact : store.Exact)
    (h : store.size ≤ offset) : BrokenOff (store.bytes.drop offset) := by
  have hpos : 0 < headerSize := by decide
  refine .inl ?_
  rw [List.length_drop, ← hexact.size_eq]
  omega

/-- Where the reader finds nothing, what is left is broken off. -/
theorem brokenOff_of_frameAt? (hexact : store.Exact)
    (h : frameAt? store offset = .ok none) :
    BrokenOff (store.bytes.drop offset) := by
  have hleft : (store.bytes.drop offset).length = store.size - offset := by
    rw [List.length_drop, hexact.size_eq]
  have hpos : 0 < headerSize := by decide
  simp only [frameAt?] at h
  split at h
  next hshort => exact .inl (hleft ▸ hshort)
  next hlarge =>
    rw [hexact.size_eq] at hlarge
    rw [hexact.readAt_eq (by omega)] at h
    simp only [Check.bind_eq_ok, ofStore_eq_ok, ofRecord_eq_ok] at h
    obtain ⟨_, hhead, header, hparse, h⟩ := h
    cases hhead
    split at h
    next hlong => exact .inr ⟨header, hparse, hleft ▸ hlong⟩
    next =>
      simp only [Check.bind_eq_ok, Check.pure_eq_ok, reduceCtorEq, and_false,
        exists_false] at h

/-- A frame that the reader finds lies within the store. -/
theorem frameLength_le_of_frameAt? (hexact : store.Exact) {h : Header}
    {r : CommitRecord} (hfound : frameAt? store offset = .ok (some (h, r))) :
    h.frameLength ≤ store.size - offset := by
  obtain ⟨data, rest, hdrop, hframe⟩ := (frameAt?_eq_some hexact).1 hfound
  have hlength := hframe.length_eq
  have hleft := congrArg List.length hdrop
  rw [List.length_drop, List.length_append, ← hexact.size_eq] at hleft
  omega

theorem ofRecord_eq_error {α : Type} {x : Except Corruption α} {err : Error}
    (h : ofRecord offset x = .error err) : DamageAt offset err := by
  cases x with
  | ok a => cases h
  | error what =>
      cases h
      exact .inl ⟨what, rfl⟩

/-- A frame that is not verified is damage at its place. -/
theorem verifyFrame_eq_error {data : Bytes} {err : Error}
    (h : verifyFrame offset data = .error err) : DamageAt offset err := by
  unfold verifyFrame at h
  dsimp only at h
  split at h
  next =>
    cases h
    exact .inr ⟨_, _, rfl⟩
  next => cases h

/-- Where the reader fails there is damage; the store refuses it nothing. -/
theorem damageAt_of_frameAt? (hexact : store.Exact) {err : Error}
    (h : frameAt? store offset = .error err) : DamageAt offset err := by
  have hpos : 0 < headerSize := by decide
  simp only [frameAt?] at h
  split at h
  next => cases h
  next hlarge =>
    rw [hexact.size_eq] at hlarge
    rw [hexact.readAt_eq (by omega)] at h
    obtain h | ⟨_, -, h⟩ := Check.bind_eq_error.1 h
    · cases h
    obtain h | ⟨header, -, h⟩ := Check.bind_eq_error.1 h
    · exact ofRecord_eq_error h
    have hlen := headerSize_le header
    split at h
    next => cases h
    next hwhole =>
      rw [hexact.size_eq] at hwhole
      rw [hexact.readAt_eq (by omega)] at h
      obtain h | ⟨_, -, h⟩ := Check.bind_eq_error.1 h
      · cases h
      obtain h | ⟨_, -, h⟩ := Check.bind_eq_error.1 h
      · exact verifyFrame_eq_error h
      obtain h | ⟨_, -, h⟩ := Check.bind_eq_error.1 h
      · exact ofRecord_eq_error h
      · cases h

end Place

-- ======================================================== all of a store

section Reading

variable {σ : Type} {store : Store} {visit : Nat → CommitRecord → Edit σ Unit}

/-- Why a reading can stop with an error: there is damage at a place inside
the store, or the visitor fails with the record that was found there. -/
def StopsFor (store : Store) (visit : Nat → CommitRecord → Edit σ Unit)
    (err : Error) : Prop :=
  ∃ n < store.size, DamageAt n err
    ∨ ∃ r s s', (visit n r).run s = .error err s'

/-- Reading stops for damage or for the visitor. -/
theorem readFrom_fails (hexact : store.Exact)
    (visit : Nat → CommitRecord → Edit σ Unit) (offset : Nat)
    (done : Summary) :
    Edit.Fails (StopsFor store visit) (readFrom store visit offset done) := by
  -- on what is left to read
  induction hleft : store.size - offset using Nat.strongRecOn
    generalizing offset done with
  | ind n ih =>
      by_cases hin : offset < store.size
      · cases hfound : frameAt? store offset with
        | error err =>
            rw [readFrom_damaged hin hfound]
            have hdamage := damageAt_of_frameAt? hexact hfound
            exact .throw ⟨offset, hin, .inl hdamage⟩
        | ok found =>
            cases found with
            | none =>
                rw [readFrom_torn hin hfound]
                exact .pure _
            | some found =>
                have hpos := headerSize_le found.1
                have hheader : 0 < headerSize := by decide
                rw [readFrom_found hin hfound]
                refine Edit.Fails.bind (fun s err s' hrun => ?_) fun _ =>
                  ih _ (by omega) _ _ rfl
                exact ⟨offset, hin, .inr ⟨_, s, s', hrun⟩⟩
      · rw [readFrom_end (Nat.not_lt.1 hin)]
        exact .pure _

/-- A reading that comes to its end has accounted for every byte, and what it
reports as torn is broken off. -/
theorem readFrom_accounts (hexact : store.Exact) {offset : Nat}
    {done sum : Summary} {s s' : σ} (hle : offset ≤ store.size)
    (h : Edit.Gives (readFrom store visit offset done) s sum s') :
    sum.validLength + sum.tornTail = store.size
      ∧ BrokenOff (store.bytes.drop sum.validLength) := by
  -- on what is left to read
  induction hleft : store.size - offset using Nat.strongRecOn
    generalizing offset done s with
  | ind n ih =>
      by_cases hin : offset < store.size
      · cases hfound : frameAt? store offset with
        | error err =>
            rw [readFrom_damaged hin hfound] at h
            exact (Edit.gives_throw.1 h).elim
        | ok found =>
            cases found with
            | none =>
                rw [readFrom_torn hin hfound] at h
                obtain ⟨rfl, -⟩ := Edit.gives_pure.1 h
                exact ⟨Nat.add_sub_cancel' hle,
                  brokenOff_of_frameAt? hexact hfound⟩
            | some found =>
                have hpos := headerSize_le found.1
                have hheader : 0 < headerSize := by decide
                have hfits := frameLength_le_of_frameAt? hexact hfound
                rw [readFrom_found hin hfound] at h
                obtain ⟨_, t, -, h⟩ := Edit.gives_bind.1 h
                exact ih _ (by omega) (by omega) h rfl
      · rw [readFrom_end (Nat.not_lt.1 hin)] at h
        obtain ⟨rfl, -⟩ := Edit.gives_pure.1 h
        exact ⟨Nat.add_sub_cancel' hle,
          brokenOff_of_size_le hexact (Nat.not_lt.1 hin)⟩

/-- Every reading of an exact store comes to an end of its own, with every
byte accounted for and the torn part broken off, or stops for a reason. -/
theorem read_ends (hexact : store.Exact)
    (visit : Nat → CommitRecord → Edit σ Unit) (s : σ) :
    (∃ sum s', (read store visit).run s = .ok sum s'
      ∧ sum.validLength + sum.tornTail = store.size
      ∧ BrokenOff (store.bytes.drop sum.validLength))
    ∨ ∃ err s', (read store visit).run s = .error err s'
      ∧ StopsFor store visit err := by
  cases hrun : (read store visit).run s with
  | ok sum s' =>
      exact .inl ⟨sum, s', rfl,
        readFrom_accounts hexact (Nat.zero_le _) hrun⟩
  | error err s' =>
      have hfails := readFrom_fails hexact visit 0 {}
      exact .inr ⟨err, s', rfl, hfails s err s' hrun⟩

end Reading

/-- Replaying stops for damage only. -/
theorem StopsFor.damage {store : Store} {err : Error}
    (h : StopsFor store Snapshot.replayRecord err) :
    ∃ n < store.size, DamageAt n err := by
  obtain ⟨n, hn, hdamage | ⟨r, s, s', hrun⟩⟩ := h
  · exact ⟨n, hn, hdamage⟩
  · exact ⟨n, hn, .inl (Snapshot.fails_replayRecord n r s err s' hrun)⟩

end History

-- ============================================================ opening

open History

/-- A log in memory is cut to any part of it. -/
theorem HistoryLog.gives_truncate_memory {b : Bytes} {n : Nat}
    (hn : n ≤ b.length) (config : Config) :
    Edit.Gives (onStore (Store.truncate n)) (.ofStore (.memory b) config)
      (.ok ()) (.ofStore (.memory (b.take n)) config) := by
  have hcut : Store.truncate n (.memory b) = .ok () (.memory (b.take n)) :=
    if_neg (Nat.not_lt.2 hn)
  unfold Edit.Gives onStore ofStore
  dsimp only [EStateM.run]
  rw [hcut]

/-- A log in memory that could be read is recovered, and cut to the part
that was whole. -/
theorem HistoryLog.run_recover_memory {b : Bytes} {sum : Summary}
    {s : Snapshot}
    (hread : (read (.memory b) Snapshot.replayRecord).run .empty = .ok sum s)
    (hsum : sum.validLength + sum.tornTail = b.length) (config : Config) :
    recover.run (.ofStore (.memory b) config)
      = .ok s (.ofStore (.memory (b.take sum.validLength)) config) := by
  refine gives_recover.2 ⟨sum, ?_⟩
  simp only [replay, Edit.gives_bind, Edit.gives_get, Edit.gives_focus]
  refine ⟨_, _, ⟨rfl, rfl⟩, sum, _, ⟨s, hread, rfl⟩, ?_⟩
  by_cases htorn : 0 < sum.tornTail
  · have hle : sum.validLength ≤ b.length := by omega
    have hcut := gives_truncate_memory hle config
    rw [if_pos htorn]
    exact Edit.gives_bind.2 ⟨.ok (), (_, s),
      Edit.gives_focus.2 ⟨_, hcut, rfl⟩, Edit.gives_pure.2 ⟨rfl, rfl⟩⟩
  · rw [if_neg htorn, List.take_of_length_le (by omega)]
    exact Edit.gives_pure.2 ⟨rfl, rfl⟩

namespace History

/-- Reading any bytes ends with every byte accounted for, or stops inside
them for damage or at the word of the visitor. Opening them fails for damage
and leaves them as they are; or it succeeds, leaves of them what was whole,
cuts off less than a header or a header with less than its frame, and from
then on they open to the same snapshot and stay as they are. -/
theorem open_any_bytes (b : Bytes) :
    (∀ (σ : Type) (visit : Nat → CommitRecord → Edit σ Unit) (s : σ),
      (∃ sum s', (read (.memory b) visit).run s = .ok sum s'
        ∧ sum.validLength + sum.tornTail = b.length)
      ∨ ∃ err s', (read (.memory b) visit).run s = .error err s'
        ∧ StopsFor (.memory b) visit err)
    ∧ ∀ config : Config,
      (∃ err, Engine.openOver (.memory b) config = (.error err, .memory b)
        ∧ err.kind = .fileError ∧ ∃ n < b.length, DamageAt n err)
      ∨ ∃ e sum,
        (read (.memory b) Snapshot.replayRecord).run .empty
          = .ok sum e.current
        ∧ Engine.openOver (.memory b) config
          = (.ok e, .memory (b.take sum.validLength))
        ∧ sum.validLength + sum.tornTail = b.length
        ∧ BrokenOff (b.drop sum.validLength)
        ∧ ∀ config' : Config, ∃ e',
          Engine.openOver (.memory (b.take sum.validLength)) config'
            = (.ok e', .memory (b.take sum.validLength))
          ∧ e'.current = e.current := by
  have hexact : (Store.memory b).Exact := trivial
  refine ⟨fun σ visit s => ?_, fun config => ?_⟩
  · exact (read_ends hexact visit s).imp
      (fun ⟨sum, s', hrun, hsum, _⟩ => ⟨sum, s', hrun, hsum⟩) id
  · rcases read_ends hexact Snapshot.replayRecord .empty with
      ⟨sum, s, hread, hsum, htail⟩ | ⟨err, s, hread, hstops⟩
    · have hrecover := HistoryLog.run_recover_memory hread hsum config
      have hlog : (HistoryLog.ofStore (.memory b) config).store.Exact := hexact
      obtain ⟨bytes, hholds, hleads⟩ :=
        HistoryLog.leadsTo_of_recover hlog hrecover
      obtain rfl : b.take sum.validLength = bytes := hholds.bytes_eq
      exact .inr ⟨_, sum, hread,
        Engine.openOver_eq_ok.2 ⟨s, _, hrecover, rfl, rfl⟩, hsum, htail,
        Engine.openOver_of_leadsTo hleads⟩
    · have hrecover : HistoryLog.recover.run (.ofStore (.memory b) config)
          = .error err (.ofStore (.memory b) config) :=
        HistoryLog.run_recover_error hread
      obtain ⟨n, hn, hdamage⟩ := hstops.damage
      refine .inl ⟨err, ?_, kind_of_damageAt hdamage, n, hn, hdamage⟩
      unfold Engine.openOver
      rw [hrecover]
      rfl

end History

end Colonnade
