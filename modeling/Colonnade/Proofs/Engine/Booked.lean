/-
The books of an engine: which transaction pins which version, the pins, and
the count of the versions that were reclaimed.

Whatever an event does is broken down into entries in the books (`Booked`): a
pin is taken, given back or moved, or a version is published, and an entry
says what the pins become and how many versions that reclaims. A call through
a handle, a rollback and the faults of a store are not entered at all.

An event is one entry, with one exception. A writer that commits and goes on
to read makes two, first the commit, with the pin still on what the writer
began on, and then the move. So `Serial.booked` gives two entries for each
event, the second of which publishes nothing, and mostly one of them is empty.

Chain: `Engine.Accounts` follows the books along a run.
-/
import Colonnade.Proofs.Engine.Turns
import Colonnade.Proofs.Pins
import Colonnade.Proofs.Tally

namespace Colonnade.Engine

variable {e e' m : Engine} {id : TransactionId} {t : Transaction}
  {v : Version} {n : Nat}

-- ======================================================= who pins what

/-- The version that a transaction pins. -/
def pinnedBy? (e : Engine) (id : TransactionId) : Option Version :=
  (e.transaction? id).map (·.pinned)

/-- The transactions that pin a version. -/
def holders (e : Engine) (v : Version) : Finset TransactionId :=
  e.transactions.keys.toFinset.filter fun id => e.pinnedBy? id = some v

/-- A transaction pins the version that it is on. -/
theorem pinnedBy?_eq_some :
    e.pinnedBy? id = some v
      ↔ ∃ t, e.transaction? id = some t ∧ t.pinned = v :=
  Option.map_eq_some_iff

theorem pinnedBy?_of_some (ht : e.transaction? id = some t) :
    e.pinnedBy? id = some t.pinned :=
  pinnedBy?_eq_some.2 ⟨t, ht, rfl⟩

theorem pinnedBy?_of_none (hnone : e.transaction? id = none) :
    e.pinnedBy? id = none :=
  congrArg (Option.map _) hnone

theorem pinnedBy?_congr (h : e'.transaction? id = e.transaction? id) :
    e'.pinnedBy? id = e.pinnedBy? id :=
  congrArg (Option.map _) h

/-- The holders of a version are the transactions that pin it. -/
theorem mem_holders : id ∈ e.holders v ↔ e.pinnedBy? id = some v := by
  unfold holders
  rw [Finset.mem_filter, List.mem_toFinset, Std.TreeMap.mem_keys,
    Std.TreeMap.mem_iff_isSome_getElem?]
  refine and_iff_right_of_imp fun hpinned => ?_
  obtain ⟨t, ht, -⟩ := pinnedBy?_eq_some.1 hpinned
  exact Option.isSome_of_eq_some ht

/-- How many transactions pin a version. -/
def tally (e : Engine) (v : Version) : Nat := (e.holders v).card

/-- A version is tallied if a transaction pins it. -/
theorem tally_pos :
    0 < e.tally v ↔ ∃ id t, e.transaction? id = some t ∧ t.pinned = v := by
  unfold tally
  rw [Finset.card_pos]
  exact exists_congr fun id => mem_holders.trans pinnedBy?_eq_some

/-- The tally is told by what every transaction pins. -/
theorem tally_congr (h : ∀ a, e'.pinnedBy? a = e.pinnedBy? a) :
    e'.tally = e.tally := by
  have hholders (v : Version) : e'.holders v = e.holders v := by
    ext a
    rw [mem_holders, mem_holders, h a]
  exact funext fun v => congrArg Finset.card (hholders v)

/-- One transaction, at most, has changed what it pins. -/
structure Passed (e : Engine) (id : TransactionId) (o o' : Option Version)
    (e' : Engine) : Prop where
  before : e.pinnedBy? id = o
  after : e'.pinnedBy? id = o'
  others : ∀ a, a ≠ id → e'.pinnedBy? a = e.pinnedBy? a

/-- Without the one that has changed, the tallies are the same. -/
theorem Passed.tally {o o' : Option Version} (h : Passed e id o o' e')
    (v : Version) :
    e'.tally v + (if o = some v then 1 else 0)
      = e.tally v + (if o' = some v then 1 else 0) := by
  have hrest : (e'.holders v).erase id = (e.holders v).erase id := by
    ext a
    rw [Finset.mem_erase, Finset.mem_erase, mem_holders, mem_holders]
    exact and_congr_right fun hne => by rw [h.others a hne]
  have hcard := OrderedMap.card_of_erase_eq hrest
  simp only [mem_holders, h.before, h.after] at hcard
  exact hcard

/-- What does not move a pin changes nothing about who pins what. -/
theorem pinnedBy?_withTransaction (ht : e.transaction? id = some t)
    {u : Transaction} (hu : u.pinned = t.pinned) (a : TransactionId) :
    (e.withTransaction id u).pinnedBy? a = e.pinnedBy? a := by
  unfold pinnedBy?
  rw [transaction?_withTransaction]
  split
  next heq =>
    rw [heq, ht]
    exact congrArg some hu
  next => rfl

-- ============================================================ the entries

/-- Nothing was entered in the books. -/
structure Unbooked (e e' : Engine) : Prop where
  version_eq : e'.version = e.version
  pins_eq : e'.pins = e.pins
  reclaimed_eq : e'.stats.versionsReclaimed = e.stats.versionsReclaimed
  held : ∀ a, e'.pinnedBy? a = e.pinnedBy? a

/-- The pins have become others, and that has reclaimed some versions. -/
structure Posted (e : Engine) (posted : Pins × Nat) (e' : Engine) :
    Prop where
  pins_eq : e'.pins = posted.1
  reclaimed_eq : e'.stats.versionsReclaimed
    = e.stats.versionsReclaimed + posted.2

/-- An entry in the books, with the number of versions that it publishes. -/
inductive Booked (e : Engine) : Nat → Engine → Prop
  | none {e' : Engine} (h : Unbooked e e') : Booked e 0 e'
  | took {id : TransactionId} {e' : Engine}
      (hversion : e'.version = e.version)
      (hposted : Posted e (e.pins.pin e.version, 0) e')
      (hpassed : Passed e id .none (some e.version) e') : Booked e 0 e'
  | gave {id : TransactionId} {v : Version} {e' : Engine}
      (hversion : e'.version = e.version)
      (hposted : Posted e (e.pins.unpin v) e')
      (hpassed : Passed e id (some v) .none e') : Booked e 0 e'
  | moved {id : TransactionId} {v : Version} {e' : Engine}
      (hversion : e'.version = e.version)
      (hposted : Posted e ((e.pins.pin e.version).unpin v) e')
      (hpassed : Passed e id (some v) (some e.version) e') : Booked e 0 e'
  | published {e' : Engine} (hversion : e'.version = e.version.next)
      (hposted : Posted e (e.pins.setCurrent e.version.next) e')
      (hheld : ∀ a, e'.pinnedBy? a = e.pinnedBy? a) : Booked e 1 e'

theorem Unbooked.refl (e : Engine) : Unbooked e e :=
  ⟨rfl, rfl, rfl, fun _ => rfl⟩

/-- Two steps that book nothing book nothing together. -/
theorem Unbooked.trans (h : Unbooked e m) (h' : Unbooked m e') :
    Unbooked e e' where
  version_eq := h'.version_eq.trans h.version_eq
  pins_eq := h'.pins_eq.trans h.pins_eq
  reclaimed_eq := h'.reclaimed_eq.trans h.reclaimed_eq
  held a := (h'.held a).trans (h.held a)

/-- Between engines that are the same nothing is booked. -/
theorem Same.unbooked (h : Same e' e) : Unbooked e e' where
  version_eq := congrArg Snapshot.version h.current_eq
  pins_eq := h.pins_eq
  reclaimed_eq := congrArg Stats.versionsReclaimed h.stats_eq
  held a := pinnedBy?_congr (h.transaction?_eq a)

/-- What books nothing leaves what was posted. -/
theorem Posted.unbooked {posted : Pins × Nat} (h : Posted e posted m)
    (h' : Unbooked m e') : Posted e posted e' :=
  ⟨h'.pins_eq.trans h.pins_eq, h'.reclaimed_eq.trans h.reclaimed_eq⟩

/-- What moves no pin leaves what was passed on. -/
theorem Passed.held {o o' : Option Version} (h : Passed e id o o' m)
    (hheld : ∀ a, e'.pinnedBy? a = m.pinnedBy? a) : Passed e id o o' e' :=
  ⟨h.before, (hheld id).trans h.after, fun a ha =>
    (hheld a).trans (h.others a ha)⟩

/-- What is not entered does not change an entry. -/
theorem Booked.unbooked (h : Booked e n m) (h' : Unbooked m e') :
    Booked e n e' := by
  cases h with
  | none h => exact .none (h.trans h')
  | took hversion hposted hpassed =>
      exact .took (h'.version_eq.trans hversion) (hposted.unbooked h')
        (hpassed.held h'.held)
  | gave hversion hposted hpassed =>
      exact .gave (h'.version_eq.trans hversion) (hposted.unbooked h')
        (hpassed.held h'.held)
  | moved hversion hposted hpassed =>
      exact .moved (h'.version_eq.trans hversion) (hposted.unbooked h')
        (hpassed.held h'.held)
  | published hversion hposted hheld =>
      exact .published (h'.version_eq.trans hversion) (hposted.unbooked h')
        fun a => (h'.held a).trans (hheld a)

/-- Nothing that is done through handles is entered. -/
theorem lasting_unbooked (e : Engine) : Lasting (Unbooked e) := by
  intro s s' h hstep
  refine h.trans ?_
  cases hstep with
  | counted => exact ⟨rfl, rfl, rfl, fun _ => rfl⟩
  | kept ht => exact ⟨rfl, rfl, rfl, pinnedBy?_withTransaction ht rfl⟩
  | wrote ht _ => exact ⟨rfl, rfl, rfl, pinnedBy?_withTransaction ht rfl⟩

-- ====================================================== entries of events

/-- Whoever begins takes a pin. -/
theorem passed_opened (hfresh : e.Fresh) (mode : ViewMode) (role : Role) :
    Passed e e.nextId none (some e.version) (e.opened mode role) where
  before := by
    cases ht : e.transaction? e.nextId with
    | none => exact pinnedBy?_of_none ht
    | some t => exact absurd (hfresh _ t ht) (Nat.lt_irrefl _)
  after := pinnedBy?_of_some (transaction?_self _ e.nextId _)
  others a ha := pinnedBy?_congr
    ((transaction?_withTransaction a).trans (if_neg ha))

/-- Whoever is dropped gives the pin back. -/
theorem passed_dropped (ht : e.transaction? id = some t) :
    Passed e id (some t.pinned) none (e.dropped id t) where
  before := pinnedBy?_of_some ht
  after := pinnedBy?_of_none ((transaction?_dropped id).trans (if_pos rfl))
  others a ha := pinnedBy?_congr
    ((transaction?_dropped a).trans (if_neg ha))

/-- A pin that moves in its transaction is passed on. -/
theorem passed_withTransaction (ht : e.transaction? id = some t)
    (u : Transaction) :
    Passed e id (some t.pinned) (some u.pinned) (e.withTransaction id u) where
  before := pinnedBy?_of_some ht
  after := pinnedBy?_of_some (transaction?_self e id u)
  others a ha := pinnedBy?_congr
    ((transaction?_withTransaction a).trans (if_neg ha))

/-- A rollback leaves the pin with the transaction. -/
theorem unbooked_aborted (ht : e.transaction? id = some t)
    (log : Option HistoryLog) : Unbooked e { e.aborted id t with log } :=
  ⟨rfl, rfl, rfl, pinnedBy?_withTransaction (u := t.rolledBack) ht rfl⟩

/-- Dropping a transaction books the pin it gives up, and no version. -/
theorem booked_dropped (ht : e.transaction? id = some t) :
    Booked e 0 (e.dropped id t) :=
  .gave rfl ⟨rfl, rfl⟩ (passed_dropped ht)

/-- It makes no difference to the books if a writer is rolled back before it
is dropped. -/
theorem unbooked_aborted_dropped (id : TransactionId) (t : Transaction)
    (log : Option HistoryLog) :
    Unbooked (e.dropped id t) { (e.aborted id t).dropped id t with log } :=
  ⟨rfl, rfl, rfl, fun a =>
    pinnedBy?_congr (transaction?_aborted_dropped e id t t a)⟩

/-- A commit books one version. -/
theorem booked_advanced (ht : e.transaction? id = some t) {u : Transaction}
    (hu : u.pinned = t.pinned) (log : Option HistoryLog) (grown : Nat) :
    Booked e 1 (e.advanced id t u log grown) :=
  .published rfl ⟨rfl, rfl⟩ (pinnedBy?_withTransaction ht hu)

/-- What comes of a call is one entry, or the entries of a commit and of the
move to what was committed. -/
theorem Outcome.booked {c : Call} {r : EStateM.Result Error Engine Unit}
    (houtcome : Outcome e c r) (h : e.Serial) (hrun : c.run.run e = r) :
    ∃ m, Booked e (Event.record? e (.call c)).toList.length m
      ∧ Booked m 0 (c.step e) := by
  have hnone (u : Engine) : Booked u 0 u := .none (.refl u)
  cases houtcome with
  | handled hc hstar =>
      rw [record?_of_none (Call.commits?_of_handled hc)]
      exact ⟨e, hnone e, .none ((lasting_unbooked e).star hstar (.refl e))⟩
  | idle hc _ =>
      rw [record?_of_none hc, step_of_ok hrun]
      exact ⟨e, hnone e, hnone e⟩
  | failed _ =>
      rw [record?_of_error hrun, step_of_error hrun]
      exact ⟨e, hnone e, hnone e⟩
  | reading =>
      rw [record?_of_none rfl, step_of_ok hrun]
      exact ⟨e, hnone e, .took rfl ⟨rfl, rfl⟩
        { passed_opened h.fresh .reading .reader with }⟩
  | writing hfree =>
      rw [record?_of_none rfl, step_of_ok hrun]
      exact ⟨e, hnone e, .took rfl ⟨rfl, rfl⟩
        { passed_opened h.fresh .writing (.writer .active true) with }⟩
  | @committed id t log grown e' ht hrole hlog hsame =>
      rw [record?_of_ok rfl hrun ht, step_of_ok hrun]
      exact ⟨_, booked_advanced (u := e.shown t) ht rfl log grown,
        .none hsame.unbooked⟩
  | @refused id t log err e' ht hrole hlog hsame =>
      rw [record?_of_error hrun, step_of_error hrun]
      exact ⟨e, hnone e, .none ((unbooked_aborted ht log).trans
        hsame.unbooked)⟩
  | @handedOff id t log grown e' ht hrole hlog hsame =>
      rw [record?_of_ok rfl hrun ht, step_of_ok hrun]
      -- After the commit, and before the move, the pin is on the base.
      let m := e.advanced id t t.ended log grown
      have hpassed := passed_withTransaction (e := m)
        (transaction?_self e id t.ended) (e.reader t)
      have hmoved : Booked m 0 ((e.advanced id t (e.reader t) log
          grown).repinned t.pinned (e.nextOf t).version) :=
        .moved rfl ⟨rfl, rfl⟩ (hpassed.held fun a =>
          pinnedBy?_congr (transaction?_twice e id t.ended _ a).symm)
      exact ⟨m, booked_advanced (u := t.ended) ht rfl log grown,
        hmoved.unbooked hsame.unbooked⟩
  | @lost id t log err e' ht hrole hlog hsame =>
      rw [record?_of_error hrun, step_of_error hrun]
      exact ⟨e, hnone e, (booked_dropped ht).unbooked
        ((unbooked_aborted_dropped id t log).trans hsame.unbooked)⟩
  | consumed ht hidle =>
      rw [record?_of_error hrun, step_of_error hrun]
      exact ⟨e, hnone e, booked_dropped ht⟩
  | @rolledBack id t e' ht hrole hsame =>
      rw [record?_of_none rfl, step_of_ok hrun]
      exact ⟨e, hnone e, .none ((unbooked_aborted ht e.log).trans
        hsame.unbooked)⟩
  | dropped ht hidle =>
      rw [record?_of_none rfl, step_of_ok hrun]
      exact ⟨e, hnone e, booked_dropped ht⟩
  | @droppedWriter id t e' ht hrole hsame =>
      rw [record?_of_none rfl, step_of_ok hrun]
      exact ⟨e, hnone e, (booked_dropped ht).unbooked
        ((unbooked_aborted_dropped id t e.log).trans hsame.unbooked)⟩
  | @moved id t ht hpinned =>
      rw [record?_of_none rfl, step_of_ok hrun]
      exact ⟨e, hnone e, .moved rfl ⟨rfl, rfl⟩
        { passed_withTransaction ht (e.moved t) with }⟩

/-- Every event books the record that it writes, and then none. -/
theorem Serial.booked (h : e.Serial) (ev : Event) :
    ∃ m, Booked e (ev.record? e).toList.length m
      ∧ Booked m 0 (ev.step e) := by
  cases ev with
  | turn f =>
      exact ⟨e, .none (.refl e), .none ⟨rfl, rfl, rfl, fun _ => rfl⟩⟩
  | call c => exact (h.outcome c).booked h rfl

end Colonnade.Engine
