/-
What becomes of appends that were acknowledged. A log lies over memory,
behind a fault switch that can be turned at any time and behind a wrapper
that may refuse to be cut; appends are tried on it one after the other. Each
attempt ends in one of four ways (`CameTo`), and in one of them it leaves
some of a frame, or all of it, in the store: the append failed and the log
could not be cut back.

Nothing keeps the next append from going in behind what was left, and it is
acknowledged. The reader knows of no such gap. It takes the gap for the torn
end of the log, for damage or for one more record, and never comes to the
record behind it as the next one. So what was acknowledged is delivered
exactly if nothing was left before the last of it, what was left after it is
broken off (`Settled`), and the records can be read at all.

Chain: above `History.Opened`; nothing here knows of engines.
-/
import Colonnade.Proofs.History.Appending
import Colonnade.Proofs.History.Opened

namespace Colonnade

-- ========================================================= fenced stores

namespace Store

/-- Has the store refuse cuts from now on, or no longer. -/
def refuseCuts (refused : Bool) : Store → Store
  | uncuttable inner => inner.refuseCuts refused
  | s => if refused then uncuttable s else s

/-- Memory behind a fault switch, behind a wrapper that refuses cuts or
does not. -/
def Fenced (refused : Bool) (s : Store) : Prop :=
  ∃ bytes faults, s = (faulty (memory bytes) faults).refuseCuts refused

variable {refused : Bool} {s : Store}

theorem Fenced.size_eq (h : Fenced refused s) : s.size = s.bytes.length := by
  obtain ⟨bytes, faults, rfl⟩ := h
  cases refused <;> rfl

/-- Turning a switch leaves the store fenced, and its bytes. -/
theorem Fenced.mapFaults (h : Fenced refused s) (f : Faults → Faults) :
    Fenced refused (s.mapFaults f) ∧ (s.mapFaults f).bytes = s.bytes := by
  obtain ⟨bytes, faults, rfl⟩ := h
  cases refused <;> exact ⟨⟨bytes, f faults, rfl⟩, rfl⟩

/-- A store that comes to refuse cuts keeps its bytes. -/
theorem Fenced.refuseCuts (h : Fenced refused s) (refused' : Bool) :
    Fenced refused' (s.refuseCuts refused')
      ∧ (s.refuseCuts refused').bytes = s.bytes := by
  obtain ⟨bytes, faults, rfl⟩ := h
  cases refused <;> cases refused' <;> exact ⟨⟨bytes, faults, rfl⟩, rfl⟩

/-- Where cuts are not refused the store is what it says. -/
theorem Fenced.exact (h : Fenced false s) : s.Exact := by
  obtain ⟨bytes, faults, rfl⟩ := h
  trivial

/-- A step that the wrapper hands on ends behind it as it does without. -/
theorem ends_fenced {α : Type} {step : EStateM StoreFault Store α}
    {Q : α → Bytes → Prop} {E : Bytes → Prop} {bytes : Bytes}
    (hwrapped : ∀ inner, step (uncuttable inner)
      = rewrap uncuttable (step inner))
    (hplain : ∀ faults, Edit.Meets
      (fun a s => Fenced false s ∧ Q a s.bytes)
      (fun s => Fenced false s ∧ E s.bytes)
      (step (faulty (memory bytes) faults))) :
    Edit.Ends (fun s => Fenced refused s ∧ s.bytes = bytes) step
      (fun a s => Fenced refused s ∧ Q a s.bytes)
      (fun s => Fenced refused s ∧ E s.bytes) := by
  rintro s ⟨⟨held, faults, rfl⟩, hbytes⟩
  have hstep := hplain faults
  cases refused with
  | false =>
      obtain rfl : held = bytes := hbytes
      exact hstep
  | true =>
      obtain rfl : held = bytes := hbytes
      show Edit.Meets _ _ (step (uncuttable (faulty (memory held) faults)))
      rw [hwrapped]
      cases hrun : step (faulty (memory held) faults) with
      | ok a s =>
          rw [hrun] at hstep
          obtain ⟨⟨bs, after, rfl⟩, hQ⟩ := hstep
          exact ⟨⟨bs, after, rfl⟩, hQ⟩
      | error fault s =>
          rw [hrun] at hstep
          obtain ⟨⟨bs, after, rfl⟩, hE⟩ := hstep
          exact ⟨⟨bs, after, rfl⟩, hE⟩

/-- An append adds the bytes at the end, or it adds the first of them. -/
theorem append_fenced (old data : Bytes) :
    Edit.Ends (fun s => Fenced refused s ∧ s.bytes = old) (Store.append data)
      (fun n s => Fenced refused s ∧ n = old.length ∧ s.bytes = old ++ data)
      (fun s => Fenced refused s ∧ ∃ n, s.bytes = old ++ data.take n) := by
  refine ends_fenced (Q := fun n bs => n = old.length ∧ bs = old ++ data)
    (E := fun bs => ∃ n, bs = old ++ data.take n) (fun _ => rfl)
    fun faults => ?_
  unfold Store.append
  by_cases hrefuses : faults.refuses data.length = true
  · rw [if_pos hrefuses]
    by_cases hroom : faults.room = 0
    · rw [if_pos hroom]
      exact ⟨⟨old, _, rfl⟩, 0, (List.append_nil old).symm⟩
    · rw [if_neg hroom]
      exact ⟨⟨_, _, rfl⟩, faults.room, rfl⟩
  · rw [if_neg hrefuses]
    exact ⟨⟨_, _, rfl⟩, rfl, rfl⟩

/-- Flushing and syncing change no byte. -/
theorem settle_fenced (bytes : Bytes) (operation : String) :
    Edit.Ends (fun s => Fenced refused s ∧ s.bytes = bytes)
      (Store.settle operation)
      (fun _ s => Fenced refused s ∧ s.bytes = bytes)
      (fun s => Fenced refused s ∧ s.bytes = bytes) := by
  refine ends_fenced (Q := fun _ bs => bs = bytes) (E := (· = bytes))
    (fun _ => rfl) fun faults => ?_
  unfold Store.settle
  by_cases hfail : faults.failFlush = true
  · rw [if_pos hfail]
    exact ⟨⟨bytes, _, rfl⟩, rfl⟩
  · rw [if_neg hfail]
    exact ⟨⟨bytes, _, rfl⟩, rfl⟩

/-- A cut takes off what was added, unless cuts are refused. -/
theorem truncate_fenced (old part : Bytes) :
    Edit.Ends (fun s => Fenced refused s ∧ s.bytes = old ++ part)
      (Store.truncate old.length)
      (fun _ s => refused = false ∧ Fenced refused s ∧ s.bytes = old)
      (fun s => refused = true ∧ Fenced refused s
        ∧ s.bytes = old ++ part) := by
  rintro s ⟨⟨bytes, faults, rfl⟩, hbytes⟩
  cases refused with
  | false =>
      obtain rfl : bytes = old ++ part := hbytes
      have hle : ¬ (old ++ part).length < old.length := by
        rw [List.length_append]
        omega
      show Edit.Meets _ _ (rewrap _ (ite _ _ _))
      rw [if_neg hle]
      exact ⟨rfl, ⟨_, faults, rfl⟩, List.take_left⟩
  | true => exact ⟨rfl, ⟨bytes, faults, rfl⟩, hbytes⟩

end Store

namespace HistoryLog

open History Wire

-- ========================================================== one attempt

section Attempt

variable {refused : Bool} {r : CommitRecord}

/-- Writing adds the data, or it fails and leaves the first of it. -/
theorem write_fenced (old data : Bytes) (sync : Bool) :
    Edit.Ends (fun s => s.Fenced refused ∧ s.bytes = old) (write data sync)
      (fun n s => n = old.length ∧ s.Fenced refused ∧ s.bytes = old ++ data)
      (fun s => s.Fenced refused ∧ ∃ n, s.bytes = old ++ data.take n) := by
  have hall : old ++ data = old ++ data.take data.length := by
    rw [List.take_length]
  have hsettle (operation : String) (offset : Nat) :
      Edit.Ends (fun s => offset = old.length ∧ s.Fenced refused
          ∧ s.bytes = old ++ data) (Store.settle operation)
        (fun _ s => offset = old.length ∧ s.Fenced refused
          ∧ s.bytes = old ++ data)
        (fun s => s.Fenced refused ∧ ∃ n, s.bytes = old ++ data.take n) := by
    rintro s ⟨rfl, h⟩
    exact ((Store.settle_fenced (old ++ data) operation).weaken
      (fun _ h => h) (fun _ _ h => ⟨rfl, h⟩)
      fun _ h => ⟨h.1, data.length, h.2.trans hall⟩) s h
  unfold write
  refine Edit.Ends.bind ((Store.append_fenced old data).weaken
    (fun _ h => h) (fun _ _ h => ⟨h.2.1, h.1, h.2.2⟩) fun _ h => h)
    fun offset => (hsettle "flush" offset).bind fun _ => ?_
  split
  · exact (hsettle "sync" offset).bind fun _ => .pure fun _ h => h
  · exact .pure fun _ h => h

/-- What an attempt to append to a log of some length comes to, and what it
leaves in the store. -/
inductive CameTo (refused : Bool) (length : Nat) (r : CommitRecord) :
    Except Error Nat → Bytes → Prop
  | logged {data : Bytes} (hencode : encode newestFormat r = .ok data) :
      CameTo refused length r (.ok length) data
  | unfit {err : Error} (hencode : encode newestFormat r = .error err) :
      CameTo refused length r (.error err) []
  | cutBack {fault : StoreFault} (hcut : refused = false) :
      CameTo refused length r (.error (.storage fault)) []
  | leftBehind {data : Bytes} {fault restore : StoreFault} {n : Nat}
      (hcut : refused = true) (hencode : encode newestFormat r = .ok data) :
      CameTo refused length r (.error (.fatal (.logNotRestored fault restore)))
        (data.take n)

/-- What a log in the known format is and holds, behind its fences. -/
structure Fenced (refused : Bool) (bytes : Bytes) (log : HistoryLog) :
    Prop where
  format_eq : log.format = newestFormat
  fenced : log.store.Fenced refused
  bytes_eq : log.store.bytes = bytes

/-- Giving up reports how the store failed, and whether it was cut back. -/
theorem run_giveUp (length : Nat) (fault : StoreFault) (log : HistoryLog) :
    (Appending.giveUp length fault).run log
      = match Store.truncate length log.store with
        | .ok _ store => .error (.storage fault) { log with store }
        | .error restore store =>
          .error (.fatal (.logNotRestored fault restore)) { log with store }
      := by
  unfold Appending.giveUp
  rw [EStateM.run_bind]
  unfold onStore
  dsimp only [EStateM.run]
  cases Store.truncate length log.store <;> rfl

/-- An attempt comes to one of these things, and the log grows by what it
leaves. -/
theorem attempt_cameTo {bytes : Bytes} {log : HistoryLog}
    (h : log.Fenced refused bytes) (r : CommitRecord) :
    ∃ outcome left log',
      (Edit.attempt (appendCommit r)).run log = .ok outcome log'
      ∧ CameTo refused bytes.length r outcome left
      ∧ log'.Fenced refused (bytes ++ left) := by
  obtain ⟨hformat, hfenced, rfl⟩ := h
  rw [Edit.run_attempt]
  cases hencode : encode log.format r with
  | error err =>
      have hrun : (appendCommit r).run log = .error err log := by
        unfold appendCommit
        rw [EStateM.run_bind, EStateM.run_get]
        dsimp only
        rw [hencode]
        rfl
      rw [hrun]
      rw [hformat] at hencode
      exact ⟨_, [], log, rfl, .unfit hencode, hformat, hfenced,
        (List.append_nil _).symm⟩
  | ok data =>
      have hwrite := write_fenced log.store.bytes data log.syncOnCommit
        log.store ⟨hfenced, rfl⟩
      rw [Appending.run_appendCommit hencode]
      rw [hformat] at hencode
      cases hrun : (write data log.syncOnCommit).run log.store with
      | ok offset store =>
          rw [hrun] at hwrite
          obtain ⟨rfl, hfenced', hbytes⟩ := hwrite
          exact ⟨_, data, _, rfl, .logged hencode, hformat, hfenced', hbytes⟩
      | error fault store =>
          rw [hrun] at hwrite
          obtain ⟨hfenced', n, hbytes⟩ := hwrite
          have hcut := Store.truncate_fenced log.store.bytes (data.take n)
            store ⟨hfenced', hbytes⟩
          have hsize : log.size = log.store.bytes.length := hfenced.size_eq
          dsimp only [EStateM.run] at hcut
          dsimp only
          rw [run_giveUp, hsize]
          dsimp only
          cases hrestore : Store.truncate log.store.bytes.length store with
          | ok u store' =>
              rw [hrestore] at hcut
              obtain ⟨hcut, hfenced'', hbytes'⟩ := hcut
              exact ⟨_, [], _, rfl, .cutBack hcut, hformat, hfenced'',
                hbytes'.trans (List.append_nil _).symm⟩
          | error restore store' =>
              rw [hrestore] at hcut
              obtain ⟨hcut, hfenced'', hbytes'⟩ := hcut
              exact ⟨_, data.take n, _, rfl, .leftBehind hcut hencode,
                hformat, hfenced'', hbytes'⟩

end Attempt

-- ======================================================== many attempts

/-- An append that was tried: what was to be logged, how that ended, and by
what the log grew. -/
structure Attempt where
  record : CommitRecord
  outcome : Except Error Nat
  left : Bytes

/-- The record and its place, if the append was acknowledged. -/
def Attempt.acknowledged? (a : Attempt) : Option (Nat × CommitRecord) :=
  match a.outcome with
  | .ok n => some (n, a.record)
  | .error _ => none

/-- Whether the append failed and the log could not be cut back. -/
def Attempt.NotRestored (a : Attempt) : Prop :=
  ∃ fault restore, a.outcome = .error (.fatal (.logNotRestored fault restore))

/-- What was acknowledged, in order. -/
def acknowledged (as : List Attempt) : List (Nat × CommitRecord) :=
  as.filterMap Attempt.acknowledged?

/-- Appending, turning the fault switch, or having cuts refused or not. -/
inductive Move where
  | append (r : CommitRecord)
  | turn (f : Faults → Faults)
  | refuseCuts (refused : Bool)

/-- A log and what was tried on it. -/
structure Course where
  log : HistoryLog
  attempts : List Attempt

namespace Course

/-- An empty log in the known format, behind fences. -/
def start (sync : Bool) : Course :=
  ⟨⟨.faulty (.memory []) {}, sync, newestFormat⟩, []⟩

def move (c : Course) : Move → Course
  | .append r =>
    match (Edit.attempt (appendCommit r)).run c.log with
    | .ok outcome log =>
      let left := log.store.bytes.drop c.log.store.bytes.length
      ⟨log, c.attempts ++ [⟨r, outcome, left⟩]⟩
    | .error _ log => { c with log }
  | .turn f => { c with log.store := c.log.store.mapFaults f }
  | .refuseCuts refused =>
    { c with log.store := c.log.store.refuseCuts refused }

def through (c : Course) (moves : List Move) : Course := moves.foldl move c

end Course

/-- What attempts have left in the store. -/
def leftBy (as : List Attempt) : Bytes := as.flatMap Attempt.left

/-- Each of the attempts came to something, the first on a log of this
length. -/
def Accounted (start : Nat) : List Attempt → Prop
  | [] => True
  | a :: as =>
    (∃ refused, CameTo refused start a.record a.outcome a.left)
      ∧ Accounted (start + a.left.length) as

/-- One more attempt is accounted for by what it came to. -/
theorem Accounted.append {start : Nat} {as : List Attempt} {a : Attempt}
    (h : Accounted start as) {refused : Bool}
    (ha : CameTo refused (start + (leftBy as).length) a.record a.outcome
      a.left) : Accounted start (as ++ [a]) := by
  induction as generalizing start with
  | nil => exact ⟨⟨refused, ha⟩, trivial⟩
  | cons b as ih =>
      refine ⟨h.1, ih h.2 ?_⟩
      rw [Nat.add_assoc, ← List.length_append]
      exact ha

/-- Only where the log could not be cut back is something left of what was
not acknowledged. -/
theorem Accounted.notRestored {start : Nat} {as : List Attempt} {a : Attempt}
    (h : Accounted start as) (ha : a ∈ as) (hnone : a.acknowledged? = none)
    (hleft : a.left ≠ []) : a.NotRestored := by
  induction as generalizing start with
  | nil => cases ha
  | cons b as ih =>
      obtain ⟨⟨refused, hcame⟩, hrest⟩ := h
      rcases List.mem_cons.1 ha with rfl | ha
      · obtain ⟨r, outcome, left⟩ := a
        cases hcame with
        | logged hencode => cases hnone
        | unfit | cutBack => exact absurd rfl hleft
        | leftBehind => exact ⟨_, _, rfl⟩
      · exact ih hrest ha

/-- The log holds what the attempts on it have left. -/
def Course.Kept (c : Course) : Prop :=
  (∃ refused, c.log.Fenced refused (leftBy c.attempts))
    ∧ Accounted 0 c.attempts

/-- Every move keeps the account. -/
theorem Course.Kept.move {c : Course} (h : c.Kept) (m : Move) :
    (c.move m).Kept := by
  obtain ⟨⟨refused, hformat, hfenced, hbytes⟩, haccounted⟩ := h
  cases m with
  | append r =>
      obtain ⟨outcome, left, log, hrun, hcame, hformat', hfenced', hbytes'⟩ :=
        attempt_cameTo ⟨hformat, hfenced, hbytes⟩ r
      have hleft : log.store.bytes.drop c.log.store.bytes.length = left := by
        rw [hbytes', hbytes, List.drop_left]
      unfold Course.move
      dsimp only
      rw [hrun]
      dsimp only
      rw [hleft]
      refine ⟨⟨refused, hformat', hfenced', ?_⟩, haccounted.append
        (?_ : CameTo refused _ _ _ _)⟩
      · rw [hbytes']
        simp [leftBy]
      · rw [Nat.zero_add]
        exact hcame
  | turn f =>
      obtain ⟨hfenced', hbytes'⟩ := hfenced.mapFaults f
      exact ⟨⟨refused, hformat, hfenced', hbytes'.trans hbytes⟩, haccounted⟩
  | refuseCuts refused' =>
      obtain ⟨hfenced', hbytes'⟩ := hfenced.refuseCuts refused'
      exact ⟨⟨refused', hformat, hfenced', hbytes'.trans hbytes⟩, haccounted⟩

/-- Every course keeps the account. -/
theorem Course.Kept.through {c : Course} (h : c.Kept) (moves : List Move) :
    (c.through moves).Kept := by
  induction moves generalizing c with
  | nil => exact h
  | cons m ms ih => exact ih (h.move m)

theorem Course.kept_start (sync : Bool) : (start sync).Kept :=
  ⟨⟨false, rfl, ⟨[], {}, rfl⟩, rfl⟩, trivial⟩

-- ============================================================ delivery

/-- A visitor that notes each record with its place. -/
def note (n : Nat) (r : CommitRecord) :
    Edit (List (Nat × CommitRecord)) Unit :=
  modify (· ++ [(n, r)])

/-- Nothing was left before the last append that was acknowledged, and what
was left after it is broken off. -/
def Settled (as : List Attempt) : Prop :=
  ∃ before after, as = before ++ after
    ∧ (∀ a ∈ before, a.acknowledged? = none → a.left = [])
    ∧ acknowledged after = [] ∧ BrokenOff (leftBy after)

section Reading

variable {store : Store} {offset : Nat} {done sum : Summary}
  {seen seen' : List (Nat × CommitRecord)}

/-- Where less than a frame is left, the reader finds nothing. -/
theorem frameAt?_of_brokenOff (hexact : store.Exact)
    (h : BrokenOff (store.bytes.drop offset)) :
    frameAt? store offset = .ok none := by
  have hleft : (store.bytes.drop offset).length
      = store.bytes.length - offset := List.length_drop
  have hpos : 0 < headerSize := by decide
  unfold frameAt?
  dsimp only
  rw [hexact.size_eq, ← hleft]
  by_cases hshort : (store.bytes.drop offset).length < headerSize
  · rw [if_pos hshort]
    rfl
  · obtain hshort' | ⟨header, hparse, hlong⟩ := h
    · exact absurd hshort' hshort
    · rw [if_neg hshort, hexact.readAt_eq (by omega)]
      show (ofRecord offset (Header.parse _) >>= _) = _
      rw [hparse]
      show (if _ < header.frameLength then _ else _) = _
      rw [if_pos hlong]
      rfl

/-- What is broken off is read to nothing. -/
theorem gives_brokenOff (hexact : store.Exact)
    (h : BrokenOff (store.bytes.drop offset)) :
    ∃ sum, Edit.Gives (readFrom store note offset done) seen sum seen := by
  by_cases hin : offset < store.size
  · rw [readFrom_torn hin (frameAt?_of_brokenOff hexact h)]
    exact ⟨_, Edit.gives_pure.2 ⟨rfl, rfl⟩⟩
  · rw [readFrom_end (Nat.not_lt.1 hin)]
    exact ⟨_, Edit.gives_pure.2 ⟨rfl, rfl⟩⟩

/-- A reading that succeeds stops at once, for what is left is broken off,
or notes the record that it finds and goes on. -/
theorem note_cases (hexact : store.Exact)
    (h : Edit.Gives (readFrom store note offset done) seen sum seen') :
    (seen' = seen ∧ BrokenOff (store.bytes.drop offset))
      ∨ ∃ header r done', offset < store.size
        ∧ frameAt? store offset = .ok (some (header, r))
        ∧ Edit.Gives (readFrom store note (offset + header.frameLength) done')
          (seen ++ [(offset, r)]) sum seen' := by
  by_cases hin : offset < store.size
  · cases hfound : frameAt? store offset with
    | error err =>
        rw [readFrom_damaged hin hfound] at h
        exact (Edit.gives_throw.1 h).elim
    | ok found =>
        cases found with
        | none =>
            rw [readFrom_torn hin hfound] at h
            obtain ⟨-, rfl⟩ := Edit.gives_pure.1 h
            exact .inl ⟨rfl, brokenOff_of_frameAt? hexact hfound⟩
        | some found =>
            rw [readFrom_found hin hfound] at h
            obtain ⟨_, t, hnote, h⟩ := Edit.gives_bind.1 h
            obtain rfl := Edit.gives_modify.1 hnote
            exact .inr ⟨found.1, found.2, _, hin, rfl, h⟩
  · rw [readFrom_end (Nat.not_lt.1 hin)] at h
    obtain ⟨-, rfl⟩ := Edit.gives_pure.1 h
    exact .inl ⟨rfl, brokenOff_of_size_le hexact (Nat.not_lt.1 hin)⟩

/-- What was noted before stays noted, in front. -/
theorem note_keeps (hexact : store.Exact)
    (h : Edit.Gives (readFrom store note offset done) seen sum seen') :
    seen <+: seen' := by
  -- on what is left to read
  induction hleft : store.size - offset using Nat.strongRecOn
    generalizing offset done seen with
  | ind n ih =>
      rcases note_cases hexact h with
        ⟨rfl, -⟩ | ⟨header, r, done', hin, -, hrest⟩
      · exact List.prefix_refl seen'
      · have hpos := headerSize_le header
        have hheader : 0 < headerSize := by decide
        exact (List.prefix_append ..).trans (ih _ (by omega) hrest rfl)

/-- If one more record was to be noted than were, it was found here. -/
theorem note_next (hexact : store.Exact) {n : Nat} {r : CommitRecord}
    {more : List (Nat × CommitRecord)}
    (h : Edit.Gives (readFrom store note offset done) seen sum
      (seen ++ (n, r) :: more)) :
    n = offset ∧ ∃ header done',
      frameAt? store offset = .ok (some (header, r))
      ∧ Edit.Gives (readFrom store note (offset + header.frameLength) done')
        (seen ++ [(n, r)]) sum (seen ++ (n, r) :: more) := by
  rcases note_cases hexact h with
    ⟨hnone, -⟩ | ⟨header, r', done', -, hfound, hrest⟩
  · simp at hnone
  · have hfirst := note_keeps hexact hrest
    rw [List.prefix_append_right_inj] at hfirst
    obtain ⟨hn, rfl⟩ : offset = n ∧ r' = r := by simpa using hfirst
    subst hn
    exact ⟨rfl, header, done', hfound, hrest⟩

end Reading

section Delivery

variable {store : Store} {as : List Attempt} {a : Attempt} {start : Nat}
  {done : Summary} {seen : List (Nat × CommitRecord)}

theorem acknowledged_cons_none (h : a.acknowledged? = none) :
    acknowledged (a :: as) = acknowledged as :=
  List.filterMap_cons_none h

theorem acknowledged_cons_some {p : Nat × CommitRecord}
    (h : a.acknowledged? = some p) :
    acknowledged (a :: as) = p :: acknowledged as :=
  List.filterMap_cons_some h

/-- What was acknowledged was so for the place where the log ended, and its
frame is what the log grew by. -/
theorem CameTo.of_acknowledged {refused : Bool}
    (h : CameTo refused start a.record a.outcome a.left)
    {p : Nat × CommitRecord} (hp : a.acknowledged? = some p) :
    p = (start, a.record) ∧ encode newestFormat a.record = .ok a.left := by
  obtain ⟨r, outcome, left⟩ := a
  cases h with
  | logged hencode =>
      cases hp
      exact ⟨rfl, hencode⟩
  | unfit | cutBack | leftBehind => cases hp

/-- Nothing is acknowledged for a place before the log ended. -/
theorem le_of_mem_acknowledged (h : Accounted start as)
    {p : Nat × CommitRecord} (hp : p ∈ acknowledged as) : start ≤ p.1 := by
  induction as generalizing start with
  | nil => cases hp
  | cons a as ih =>
      obtain ⟨⟨refused, hcame⟩, hrest⟩ := h
      cases hack : a.acknowledged? with
      | none =>
          rw [acknowledged_cons_none hack] at hp
          have := ih hrest hp
          omega
      | some q =>
          rw [acknowledged_cons_some hack] at hp
          rcases List.mem_cons.1 hp with rfl | hp
          · exact Nat.le_of_eq (congrArg Prod.fst
              (hcame.of_acknowledged hack).1).symm
          · have := ih hrest hp
            omega

/-- An attempt that has logged its record or left nothing plays no part in
what settles the others. -/
theorem settled_cons_kept (h : a.acknowledged? = none → a.left = []) :
    Settled (a :: as) ↔ Settled as := by
  constructor
  · rintro ⟨before, after, heq, hbefore, hafter, hbroken⟩
    cases before with
    | nil =>
        obtain rfl : a :: as = after := heq
        have hnone : a.acknowledged? = none :=
          List.filterMap_eq_nil_iff.1 hafter a (List.mem_cons_self ..)
        rw [acknowledged_cons_none hnone] at hafter
        rw [leftBy, List.flatMap_cons, h hnone, List.nil_append] at hbroken
        exact ⟨[], as, rfl, nofun, hafter, hbroken⟩
    | cons b before =>
        obtain ⟨rfl, rfl⟩ : a = b ∧ as = before ++ after := by simpa using heq
        exact ⟨before, after, rfl, (List.forall_mem_cons.1 hbefore).2, hafter,
          hbroken⟩
  · rintro ⟨before, after, rfl, hbefore, hafter, hbroken⟩
    exact ⟨a :: before, after, rfl, List.forall_mem_cons.2 ⟨h, hbefore⟩,
      hafter, hbroken⟩

/-- An attempt that has left something is settled only behind all that was
acknowledged. -/
theorem settled_cons_left (hnone : a.acknowledged? = none)
    (hleft : a.left ≠ []) :
    Settled (a :: as)
      ↔ acknowledged as = [] ∧ BrokenOff (leftBy (a :: as)) := by
  constructor
  · rintro ⟨before, after, heq, hbefore, hafter, hbroken⟩
    cases before with
    | nil =>
        obtain rfl : a :: as = after := heq
        exact ⟨(acknowledged_cons_none hnone).symm.trans hafter, hbroken⟩
    | cons b before =>
        obtain ⟨rfl, -⟩ : a = b ∧ as = before ++ after := by simpa using heq
        exact absurd (hbefore a (List.mem_cons_self ..) hnone) hleft
  · rintro ⟨hafter, hbroken⟩
    exact ⟨[], a :: as, rfl, nofun,
      (acknowledged_cons_none hnone).trans hafter, hbroken⟩

/-- Over a frame that was logged, a reading that is to note the record next
does so if it can make something of it, and goes on behind the frame. -/
theorem note_logged (hexact : store.Exact) {r : CommitRecord}
    {data rest : Bytes} (hencode : encode newestFormat r = .ok data)
    (hdrop : store.bytes.drop start = data ++ rest) {sum : Summary}
    {more : List (Nat × CommitRecord)} :
    Edit.Gives (readFrom store note start done) seen sum
        (seen ++ (start, r) :: more)
      ↔ (∀ i ∈ r.instructions, i.KeysNonneg)
        ∧ Edit.Gives (readFrom store note (start + data.length)
            (done.past [r])) (seen ++ [(start, r)]) sum
          (seen ++ [(start, r)] ++ more) := by
  have hfound (hkeys : ∀ i ∈ r.instructions, i.KeysNonneg) :=
    (frameAt?_eq_some hexact).2
      ⟨data, rest, hdrop, isFrame_of_encode hkeys hencode⟩
  have hlength (hkeys : ∀ i ∈ r.instructions, i.KeysNonneg) :=
    (isFrame_of_encode hkeys hencode).length_eq
  have hin : start < store.size := by
    have hsize := length_of_encode hencode
    have hpos := frameSize_pos r
    have hroom := congrArg List.length hdrop
    rw [List.length_drop, List.length_append, ← hexact.size_eq] at hroom
    omega
  rw [← List.append_cons]
  constructor
  · intro hread
    obtain ⟨-, header, done', hat, hrest⟩ := note_next hexact hread
    obtain ⟨_, _, -, hframe⟩ := (frameAt?_eq_some hexact).1 hat
    have hkeys := hframe.keysNonneg
    refine ⟨hkeys, ?_⟩
    rw [readFrom_found hin (hfound hkeys)] at hread
    rw [hlength hkeys]
    exact hread
  · rintro ⟨hkeys, hread⟩
    rw [readFrom_found hin (hfound hkeys)]
    rw [hlength hkeys] at hread
    exact hread

/-- Behind something that was left no later record is noted as the next. -/
theorem gives_note_left (hexact : store.Exact)
    (haccounted : Accounted (start + a.left.length) as)
    (hleft : a.left ≠ [])
    (hdrop : store.bytes.drop start = leftBy (a :: as)) :
    (∃ sum, Edit.Gives (readFrom store note start done) seen sum
        (seen ++ acknowledged as))
      ↔ acknowledged as = [] ∧ BrokenOff (leftBy (a :: as)) := by
  rw [← hdrop]
  constructor
  · rintro ⟨sum, hread⟩
    cases hlater : acknowledged as with
    | nil =>
        rw [hlater, List.append_nil] at hread
        refine ⟨rfl, ?_⟩
        rcases note_cases hexact hread with
          ⟨-, hbroken⟩ | ⟨header, r, done', -, -, hrest⟩
        · exact hbroken
        · have := (note_keeps hexact hrest).length_le
          rw [List.length_append, List.length_singleton] at this
          omega
    | cons p more =>
        rw [hlater] at hread
        have hplace := le_of_mem_acknowledged haccounted
          (hlater ▸ List.mem_cons_self ..)
        have hhere := (note_next hexact hread).1
        have hpos := List.length_pos_iff.2 hleft
        omega
  · rintro ⟨hnone, hbroken⟩
    rw [hnone, List.append_nil]
    exact gives_brokenOff hexact hbroken

/-- What was acknowledged is read exactly if it is settled and the reader
can make something of every record. -/
theorem gives_note_iff (hexact : store.Exact)
    (haccounted : Accounted start as)
    (hdrop : store.bytes.drop start = leftBy as) :
    (∃ sum, Edit.Gives (readFrom store note start done) seen sum
        (seen ++ acknowledged as))
      ↔ Settled as ∧ KeysNonneg ((acknowledged as).map Prod.snd) := by
  induction as generalizing start done seen with
  | nil =>
      have hbroken : BrokenOff [] := .inl (by decide)
      constructor
      · exact fun _ => ⟨⟨[], [], rfl, nofun, rfl, hbroken⟩, nofun⟩
      · intro _
        rw [show seen ++ acknowledged [] = seen from List.append_nil seen]
        exact gives_brokenOff hexact (hdrop ▸ hbroken)
  | cons a as ih =>
      obtain ⟨⟨refused, hcame⟩, hrest⟩ := haccounted
      have hdrop' : store.bytes.drop start = a.left ++ leftBy as := hdrop
      -- the induction is on the attempts: one that left nothing is passed
      -- over
      cases hack : a.acknowledged? with
      | some p =>
          obtain ⟨rfl, hencode⟩ := hcame.of_acknowledged hack
          have hnext : store.bytes.drop (start + a.left.length)
              = leftBy as := by
            rw [← List.drop_drop, hdrop', List.drop_left]
          rw [acknowledged_cons_some hack, settled_cons_kept (by simp [hack])]
          simp only [note_logged hexact hencode hdrop', exists_and_left]
          have hcons : KeysNonneg (((start, a.record)
              :: acknowledged as).map Prod.snd) ↔ _ := List.forall_mem_cons
          rw [ih hrest hnext, hcons]
          exact and_left_comm
      | none =>
          rw [acknowledged_cons_none hack]
          by_cases hleft : a.left = []
          · rw [settled_cons_kept fun _ => hleft]
            rw [hleft, List.length_nil, Nat.add_zero] at hrest
            rw [hleft, List.nil_append] at hdrop'
            exact ih hrest hdrop'
          -- what it left is read as a torn tail or as damage, and so ends the
          -- reading
          · rw [gives_note_left hexact hrest hleft hdrop,
              settled_cons_left hack hleft]
            exact ⟨fun h => ⟨h, h.1 ▸ nofun⟩, And.left⟩

end Delivery

/-- Replaying goes as reading does; the cut behind it does not fail. -/
theorem gives_replay_iff {σ : Type}
    {visit : Nat → CommitRecord → Edit σ Unit} {log : HistoryLog}
    {s t : σ} (hexact : log.store.Exact) :
    (∃ sum log', Edit.Gives (replay visit) (log, s) sum (log', t))
      ↔ ∃ sum, Edit.Gives (read log.store visit) s sum t := by
  constructor
  · rintro ⟨sum, log', h⟩
    simp only [replay, Edit.gives_bind, Edit.gives_get, Edit.gives_focus] at h
    obtain ⟨_, _, ⟨rfl, rfl⟩, done, _, ⟨t', hread, rfl⟩, h⟩ := h
    have hstate : t' = t := by
      split at h
      · obtain ⟨r, p, ⟨log'', -, rfl⟩, h⟩ := by
          simpa only [Edit.gives_bind, Edit.gives_focus] using h
        cases r with
        | ok u => exact congrArg Prod.snd (Edit.gives_pure.1 h).2
        | error fault => exact (Edit.gives_throw.1 h).elim
      · exact congrArg Prod.snd (Edit.gives_pure.1 h).2
    exact ⟨done, hstate ▸ hread⟩
  · rintro ⟨sum, hread⟩
    obtain ⟨hsum, -⟩ := readFrom_accounts hexact (Nat.zero_le _) hread
    rw [hexact.size_eq] at hsum
    have hparts := (List.take_append_drop sum.validLength log.store.bytes).symm
    obtain ⟨log', hreplay, -⟩ := gives_replay hexact hparts hread
      (by rw [List.length_take]; omega) (by rw [List.length_drop]; omega)
    exact ⟨sum, log', hreplay⟩

namespace Course

/-- The log when nothing fails any more. -/
def healed (c : Course) : HistoryLog :=
  { c.log with store := (c.log.store.refuseCuts false).mapFaults Faults.heal }

/-- Replaying the healed log succeeds and goes through what was acknowledged
and nothing else, each record at its place. -/
def Delivers (c : Course) : Prop :=
  ∃ sum log, Edit.Gives (replay note) (c.healed, []) sum
    (log, acknowledged c.attempts)

/-- A kept account is delivered if its attempts are settled and its keys can
be read. -/
theorem Kept.delivers_iff {c : Course} (h : c.Kept) :
    c.Delivers ↔ Settled c.attempts
      ∧ KeysNonneg ((acknowledged c.attempts).map Prod.snd) := by
  obtain ⟨⟨refused, -, hfenced, hbytes⟩, haccounted⟩ := h
  obtain ⟨hopen, hsame⟩ := hfenced.refuseCuts false
  obtain ⟨hhealed, hsame'⟩ := hopen.mapFaults Faults.heal
  have hdrop : c.healed.store.bytes.drop 0 = leftBy c.attempts :=
    (hsame'.trans hsame).trans hbytes
  exact (gives_replay_iff hhealed.exact).trans
    (gives_note_iff hhealed.exact haccounted hdrop)

/-- Whatever is appended and however the store fails on the way, healing and
replaying delivers what was acknowledged exactly if the attempts are settled
and no acknowledged record names a negative object key. A failed append leaves
something only if it was told that the log could not be restored, so where no
append was, the attempts are settled. -/
theorem acknowledged_delivered_iff (sync : Bool) (moves : List Move) :
    let c := (start sync).through moves
    (c.Delivers ↔ Settled c.attempts
        ∧ KeysNonneg ((acknowledged c.attempts).map Prod.snd))
    ∧ (∀ a ∈ c.attempts, a.acknowledged? = none → a.left ≠ [] →
        a.NotRestored)
    ∧ ((∀ a ∈ c.attempts, ¬ a.NotRestored) → Settled c.attempts) := by
  intro c
  have hkept : c.Kept := (kept_start sync).through moves
  have hleft (a : Attempt) (ha : a ∈ c.attempts)
      (hnone : a.acknowledged? = none) (hne : a.left ≠ []) : a.NotRestored :=
    hkept.2.notRestored ha hnone hne
  have hbroken : BrokenOff (leftBy []) := .inl (by decide)
  refine ⟨hkept.delivers_iff, hleft, fun hrestored => ?_⟩
  refine ⟨c.attempts, [], (List.append_nil _).symm, fun a ha hnone => ?_, rfl,
    hbroken⟩
  by_contra hne
  exact hrestored a ha (hleft a ha hnone hne)

-- ====================================================== what was left

/-- A record of one table. -/
def tableRecord (version : UInt64) (name : String) : CommitRecord :=
  ⟨⟨version⟩, [.addTable ⟨0⟩ name]⟩

/-- An append breaks off and the log cannot be cut back; then the store is
well again, and another goes in behind. -/
def brokenOffBetween : Course :=
  (start true).through
    [.refuseCuts true, .turn (·.failAppendsAfter 20),
      .append (tableRecord 1 "a"), .turn Faults.heal,
      .append (tableRecord 1 "b")]

/-- The second append was acknowledged, and no replay gets to it. -/
theorem acknowledged_behind_remnant_lost :
    acknowledged brokenOffBetween.attempts = [(20, tableRecord 1 "b")]
      ∧ ¬ brokenOffBetween.Delivers := by
  refine ⟨by decide +kernel, ?_⟩
  have hfails : (match (replay note).run (brokenOffBetween.healed, []) with
      | .ok _ _ => false
      | .error _ _ => true) = true := by decide +kernel
  rintro ⟨sum, log, hread⟩
  rw [show (replay note).run _ = _ from hread] at hfails
  cases hfails

end Course

end HistoryLog

end Colonnade
