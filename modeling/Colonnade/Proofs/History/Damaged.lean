/-
A log with one byte changed. Whichever byte of whichever frame it is, the
reader finds it when it comes to that frame. A change in the header, in its
length too, fails the check of the header, which comes before the length is
believed; a change behind the header fails the check of the frame. Either
way the frame is reported as damaged, at the place where it starts, and never
as the torn end of the log.

Everything before that frame is read as it was, so a visitor has seen exactly
the records before it. Opening such a log fails and leaves the store alone.

Chain: `Wire.Crc32` has why a check fails.
-/
import Colonnade.Proofs.History.Cut
import Colonnade.Proofs.History.Replayed
import Colonnade.Proofs.Wire.Crc32

namespace Colonnade

namespace Wire

/-- A header with one byte changed is not taken. -/
theorem parse_damaged {format : UInt16} {n p : Nat} {b : UInt8}
    (hp : p < headerSize) (hb : (closed (headerBytes format n))[p]? ≠ some b) :
    ∃ what, Header.parse ((closed (headerBytes format n)).set p b)
      = .error what := by
  have hlength := length_closed_headerBytes format n
  have hfields := length_headerBytes format n
  have hcheck := crc32_of_damaged (hlength ▸ hp) hb
  have hrest : ((((closed (headerBytes format n)).set p b).drop
      headerFields).take 4)
      = ((closed (headerBytes format n)).set p b).drop headerFields := by
    refine List.take_of_length_le ?_
    rw [List.length_drop, List.length_set, hlength]
    decide
  rw [hfields, ← hrest] at hcheck
  have hne := bne_iff_ne.2 hcheck
  unfold Header.parse
  dsimp only
  by_cases hmagic : (decide (((closed (headerBytes format n)).set p b).length
      < headerSize) || (((closed (headerBytes format n)).set p b).take 4
        != magic)) = true
  · rw [if_pos hmagic]
    exact ⟨_, rfl⟩
  · rw [if_neg hmagic, if_pos hne]
    exact ⟨_, rfl⟩

/-- A frame with one byte changed does not pass its check. -/
theorem verifyFrame_damaged {body : Bytes} {p : Nat} {b : UInt8}
    (hp : p < (closed body).length) (hb : (closed body)[p]? ≠ some b)
    (offset : Nat) :
    ∃ stored computed, verifyFrame offset ((closed body).set p b)
      = .error (.checksum offset stored computed) := by
  have hcheck := crc32_of_damaged hp hb
  have hlength : ((closed body).set p b).length - checksumSize
      = body.length := by
    rw [List.length_set, length_closed]
    exact Nat.add_sub_cancel ..
  have hne := bne_iff_ne.2 hcheck
  unfold verifyFrame
  dsimp only
  rw [hlength, if_pos hne]
  exact ⟨_, _, rfl⟩

end Wire

namespace History

open Wire

-- ======================================================= a damaged frame

/-- Whether an error says that the frame at a place is damaged. -/
def DamageAt (offset : Nat) (err : Error) : Prop :=
  (∃ what, err = .corrupt offset what)
    ∨ ∃ stored computed, err = .checksum offset stored computed

section Frame

variable {store : Store} {offset : Nat}

/-- A header that cannot be parsed is damage at its place. -/
theorem frameAt?_badHeader (hexact : store.Exact) {head rest : Bytes}
    {what : Corruption} (hdrop : store.bytes.drop offset = head ++ rest)
    (hlength : head.length = headerSize)
    (hparse : Header.parse head = .error what) :
    frameAt? store offset = .error (.corrupt offset what) := by
  have hpos : 0 < headerSize := by decide
  have hleft : store.bytes.length - offset = headerSize + rest.length := by
    rw [← List.length_drop, hdrop, List.length_append, hlength]
  have hread : store.readAt offset headerSize = .ok head := by
    rw [hexact.readAt_eq (by omega), hdrop, List.take_left' hlength]
  unfold frameAt?
  dsimp only
  rw [hexact.size_eq, hleft, if_neg (by omega), hread]
  show (ofRecord offset (Header.parse head) >>= _) = _
  rw [hparse]
  rfl

/-- A frame that cannot be verified is damage at its place. -/
theorem frameAt?_badFrame (hexact : store.Exact) {data rest : Bytes}
    {h : Header} {err : Error}
    (hdrop : store.bytes.drop offset = data ++ rest)
    (hparse : Header.parse (data.take headerSize) = .ok h)
    (hlength : data.length = h.frameLength)
    (hverify : verifyFrame offset data = .error err) :
    frameAt? store offset = .error err := by
  have hpos : 0 < headerSize := by decide
  have hhead := headerSize_le h
  have hleft : store.bytes.length - offset = h.frameLength + rest.length := by
    rw [← List.length_drop, hdrop, List.length_append, hlength]
  have hread : store.readAt offset headerSize
      = .ok (data.take headerSize) := by
    rw [hexact.readAt_eq (by omega), hdrop, List.take_append_of_le_length
      (by omega)]
  have hwhole : store.readAt offset h.frameLength = .ok data := by
    rw [hexact.readAt_eq (by omega), hdrop, List.take_left' hlength]
  unfold frameAt?
  dsimp only
  rw [hexact.size_eq, hleft, if_neg (by omega), hread]
  show (ofRecord offset (Header.parse (data.take headerSize)) >>= _) = _
  rw [hparse]
  show (if _ < h.frameLength then _ else
    (ofStore (store.readAt offset h.frameLength) >>= _)) = _
  rw [if_neg (by omega), hwhole]
  show (verifyFrame offset data >>= _) = _
  rw [hverify]
  rfl

/-- A frame with one byte changed is found to be damaged. -/
theorem frameAt?_damaged (hexact : store.Exact) {r : CommitRecord}
    {data rest : Bytes} {p : Nat} {b : UInt8}
    (hencode : encode newestFormat r = .ok data) (hp : p < data.length)
    (hb : data[p]? ≠ some b)
    (hdrop : store.bytes.drop offset = data.set p b ++ rest) :
    ∃ err, frameAt? store offset = .error err ∧ DamageAt offset err := by
  obtain ⟨-, hcount, rfl⟩ := encode_eq_ok.1 hencode
  let head := closed (headerBytes newestFormat (payloadBytes r).length)
  let tail := payloadBytes r ++ u32Bytes (crc32 (head ++ payloadBytes r))
  have hhead : head.length = headerSize := length_closed_headerBytes _ _
  have hframe : frame newestFormat (payloadBytes r) = head ++ tail :=
    List.append_assoc ..
  by_cases hin : p < headerSize
  · have hset : (frame newestFormat (payloadBytes r)).set p b
        = head.set p b ++ tail := by
      rw [hframe, List.set_append_left _ _ (hhead ▸ hin)]
    rw [hset, List.append_assoc] at hdrop
    rw [hframe, List.getElem?_append_left (hhead ▸ hin)] at hb
    obtain ⟨what, hparse⟩ := parse_damaged hin hb
    exact ⟨_, frameAt?_badHeader hexact hdrop (List.length_set.trans hhead)
      hparse, .inl ⟨what, rfl⟩⟩
  · have hfront : ((frame newestFormat (payloadBytes r)).set p b).take
        headerSize = head := by
      rw [hframe, List.set_append_right _ _ (hhead ▸ Nat.not_lt.1 hin)]
      exact List.take_left' hhead
    have hparse := parse_headerBytes hcount
    rw [show closed _ = head from rfl, ← hfront] at hparse
    have hlength : ((frame newestFormat (payloadBytes r)).set p b).length
        = (⟨newestFormat, (payloadBytes r).length⟩ : Header).frameLength :=
      List.length_set.trans (length_of_encode hencode)
    obtain ⟨stored, computed, hverify⟩ := verifyFrame_damaged hp hb offset
    exact ⟨_, frameAt?_badFrame hexact hdrop hparse hlength hverify,
      .inr ⟨stored, computed, rfl⟩⟩

end Frame

-- ========================================================= a damaged log

/-- Reading a log with one byte changed goes through the records before the
frame of that byte, and finds the frame damaged. -/
theorem read_damaged {rs : List CommitRecord} {bytes : Bytes}
    (h : Written rs bytes) (hkeys : KeysNonneg rs) {p : Nat}
    (hp : p < bytes.length) {b : UInt8} (hb : bytes[p]? ≠ some b)
    {store : Store} (hexact : store.Exact) (hbytes : store.bytes = bytes.set p b) :
    ∃ n ∈ entries 0 rs, n.start ≤ p ∧ p < n.stop ∧ ∃ err, DamageAt n.start err
      ∧ ∀ (σ : Type) (visit : Nat → CommitRecord → Edit σ Unit),
        read store visit = (do
          (kept rs p).forM fun n => visit n.start n.record
          throw err) := by
  obtain ⟨before, r, later, whole, data, rest, rfl, hwritten, hencode, rfl,
    hle, hlt⟩ := h.around hp
  have hsize := length_of_encode hencode
  have hbefore : KeysNonneg before := fun r hr =>
    hkeys r (List.mem_append_left _ hr)
  have hin : p - whole.length < data.length := by omega
  rw [List.getElem?_append_right hle, List.getElem?_append_left hin] at hb
  rw [List.set_append_right _ _ hle, List.set_append_left _ _ hin] at hbytes
  have hdrop : store.bytes.drop (0 + whole.length)
      = data.set (p - whole.length) b ++ rest := by
    rw [hbytes, Nat.zero_add, List.drop_left]
  -- the byte lies in one frame; those in front of it are whole
  obtain ⟨err, herr, hdamage⟩ := frameAt?_damaged hexact hencode hin hb hdrop
  have hkept := hwritten.kept_around hencode hle hlt later
  refine ⟨⟨0 + whole.length, 0 + whole.length + frameSize r, r⟩, ?_, ?_, ?_,
    err, hdamage, fun σ visit => ?_⟩
  · rw [hwritten.entries_append]
    exact List.mem_append_right _ (List.mem_cons_self ..)
  · dsimp only
    omega
  · dsimp only
    omega
  · have hfront : store.bytes.drop 0
        = whole ++ (data.set (p - whole.length) b ++ rest) := hbytes
    have hinside : 0 + whole.length < store.size := by
      rw [hexact.size_eq, hbytes, List.length_append, List.length_append,
        List.length_set]
      omega
    unfold read
    rw [readFrom_written hexact hwritten hbefore hfront, hkept]
    rw [readFrom_damaged hinside herr]

end History

-- ================================================================ opening

/-- Replaying a record fails for damage in it only. -/
theorem Snapshot.fails_replayRecord (offset : Nat) (r : CommitRecord) :
    Edit.Fails (fun err => ∃ what, err = .corrupt offset what)
      (replayRecord offset r) := by
  have hinstruction (i : Instruction) :
      Edit.Fails (fun err => ∃ what, err = .corrupt offset what)
        (replayInstruction offset i) := by
    refine .attempt_bind fun outcome => ?_
    cases outcome with
    | ok u => exact .pure _
    | error e => exact .throw ⟨_, rfl⟩
  refine .get_bind fun s => ?_
  dsimp only
  split
  · exact Edit.Fails.bind (.throw ⟨_, rfl⟩) fun _ =>
      .bind (.forM fun i _ => hinstruction i) fun _ => .modify _
  · exact Edit.Fails.bind (.forM fun i _ => hinstruction i) fun _ => .modify _

/-- A log that cannot be read is not recovered, and stays as it is. -/
theorem HistoryLog.run_recover_error {log : HistoryLog} {err : Error}
    {s : Snapshot}
    (h : (History.read log.store Snapshot.replayRecord).run .empty
      = .error err s) : recover.run log = .error err log := by
  have hreplay : (replay Snapshot.replayRecord).run (log, .empty)
      = .error err (log, s) := by
    unfold replay
    rw [EStateM.run_bind, EStateM.run_get]
    dsimp only
    rw [EStateM.run_bind]
    unfold Edit.focus
    dsimp only [EStateM.run] at h ⊢
    rw [h]
  unfold recover
  dsimp only [EStateM.run] at hreplay ⊢
  rw [hreplay]

namespace History

/-- A visitor that sees some records and a damaged one after them stops with
an error of its own or with that one. -/
theorem run_visits_then_throw {σ : Type} {P : Error → Prop}
    {visits : Edit σ Unit} {err : Error} (hvisits : Edit.Fails P visits)
    (herr : P err) (s : σ) :
    ∃ err' s', (do visits; throw err : Edit σ Summary).run s = .error err' s'
      ∧ P err' := by
  rw [EStateM.run_bind]
  cases hrun : visits.run s with
  | ok u s' => exact ⟨err, s', rfl, herr⟩
  | error err' s' => exact ⟨err', s', rfl, hvisits s err' s' hrun⟩

theorem kind_of_damageAt {offset : Nat} {err : Error}
    (h : DamageAt offset err) : err.kind = .fileError := by
  rcases h with ⟨what, rfl⟩ | ⟨stored, computed, rfl⟩ <;> rfl

/-- Whichever byte of a log is changed, reading delivers exactly the records
before the frame of that byte and then fails, for damage at the place where
that frame starts. So opening fails as well, and changes nothing in the
store. -/
theorem damaged_byte_found {rs : List CommitRecord} {bytes : Bytes}
    (hwritten : Written rs bytes) (hkeys : KeysNonneg rs) {p : Nat}
    (hp : p < bytes.length) {b : UInt8} (hb : b ≠ bytes[p]) {store : Store}
    (hexact : store.Exact) (hbytes : store.bytes = bytes.set p b) :
    ∃ n ∈ entries 0 rs, n.start ≤ p ∧ p < n.stop ∧ ∃ err, DamageAt n.start err
      ∧ (∀ (σ : Type) (visit : Nat → CommitRecord → Edit σ Unit),
        read store visit = (do
          (kept rs p).forM fun n => visit n.start n.record
          throw err))
      ∧ ∀ config : Config, ∃ err',
        Engine.openOver store config = (.error err', store)
          ∧ err'.kind = .fileError := by
  have hother : bytes[p]? ≠ some b := by
    rw [List.getElem?_eq_getElem hp]
    exact fun h => hb (Option.some.inj h).symm
  obtain ⟨n, hn, hstart, hstop, err, hdamage, hread⟩ :=
    read_damaged hwritten hkeys hp hother hexact hbytes
  refine ⟨n, hn, hstart, hstop, err, hdamage, hread, fun config => ?_⟩
  have hvisits : Edit.Fails (fun e : Error => e.kind = .fileError)
      ((kept rs p).forM fun n => Snapshot.replayRecord n.start n.record) := by
    refine .forM fun n _ s e s' hrun => ?_
    obtain ⟨what, rfl⟩ := Snapshot.fails_replayRecord _ _ s e s' hrun
    rfl
  obtain ⟨err', s', hrun, hkind⟩ :=
    run_visits_then_throw hvisits (kind_of_damageAt hdamage) .empty
  rw [← hread Snapshot Snapshot.replayRecord] at hrun
  have hrecover : HistoryLog.recover.run (.ofStore store config)
      = .error err' (.ofStore store config) :=
    HistoryLog.run_recover_error hrun
  refine ⟨err', ?_, hkind⟩
  unfold Engine.openOver
  rw [hrecover]
  rfl

/-- Two commits, the first of which adds a table. -/
def twoCommits : List CommitRecord :=
  [⟨⟨1⟩, [.addTable ⟨0⟩ "a"]⟩, ⟨⟨2⟩, []⟩]

/-- Their frames. -/
def twoFrames : Bytes :=
  twoCommits.flatMap fun r => Wire.frame Wire.newestFormat (Wire.payloadBytes r)

/-- The length in the first of them is made to reach over the second; that
does not pass for a torn end. -/
theorem damaged_byte_found_length :
    Written twoCommits twoFrames ∧ KeysNonneg twoCommits
      ∧ ∃ n ∈ entries 0 twoCommits, n.start ≤ 7 ∧ 7 < n.stop
      ∧ ∃ err, DamageAt n.start err
      ∧ (∀ (σ : Type) (visit : Nat → CommitRecord → Edit σ Unit),
        read (.memory (twoFrames.set 7 255)) visit = (do
          (kept twoCommits 7).forM fun n => visit n.start n.record
          throw err))
      ∧ ∀ config : Config, ∃ err',
        Engine.openOver (.memory (twoFrames.set 7 255)) config
          = (.error err', .memory (twoFrames.set 7 255))
          ∧ err'.kind = .fileError := by
  have hwritten : Written twoCommits twoFrames :=
    .cons (Wire.encode_eq_ok.2 ⟨by decide, by decide, rfl⟩)
      (.cons (Wire.encode_eq_ok.2 ⟨by decide, by decide, rfl⟩) .nil)
  have hkeys : KeysNonneg twoCommits := by
    have hadd : ∀ i ∈ [Instruction.addTable ⟨0⟩ "a"], i.KeysNonneg :=
      List.forall_mem_singleton.2 ⟨nofun, nofun⟩
    exact List.forall_mem_cons.2 ⟨hadd, List.forall_mem_singleton.2 nofun⟩
  have hexact : (Store.memory (twoFrames.set 7 255)).Exact := trivial
  have hp : 7 < twoFrames.length := by decide +kernel
  have hget : twoFrames[7]? = some 26 := by decide +kernel
  have hb : (255 : UInt8) ≠ twoFrames[7] := by
    rw [List.getElem?_eq_getElem hp] at hget
    rw [Option.some.inj hget]
    decide
  exact ⟨hwritten, hkeys, damaged_byte_found hwritten hkeys hp hb hexact rfl⟩

end History

end Colonnade
