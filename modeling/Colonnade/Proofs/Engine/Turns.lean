/-
The life of one transaction. `Stepped` says what an event does to the writer
slot, to the log and to what is current; here the same events are seen from
one transaction, and `Turn` has a case for each thing that can happen to it.
It comes into being, works, is moved to what is current, ends as a writer in
one of three ways, and is dropped. An event that is about somebody else
leaves it as it was.

From that it follows what holds of every transaction at every time: its view
is open for what its role allows, and a reader is shown the version that it
pins (`Transaction.Settled`).

Only readers can be asked to move on; the operation belongs to them, and a
writer has none. `Event.Typed` says so, and a run of events is asked for it
where it matters.

Chain: `Engine.Validity` follows the handles of a transaction by this, and
`Engine.Isolation` what a reader sees.
-/
import Colonnade.Proofs.Engine.Stepped

namespace Colonnade

namespace Transaction

/-- What handles leave of a transaction: nothing but the working copy of a
writer changes, and what is recorded of it is what changed it. -/
structure Worked (t t' : Transaction) : Prop where
  role_eq : t'.role = t.role
  pinned_eq : t'.pinned = t.pinned
  mode_eq : t'.view.mode = t.view.mode
  generation_eq : t'.view.generation = t.view.generation
  view_eq : t.view.mode ≠ .writing → t'.view = t.view
  recorded : ∃ new,
    t'.view.changes.toList = t.view.changes.toList ++ new
      ∧ ∀ is, Snapshot.Reached is t.view.snapshot →
        Snapshot.Reached (is ++ new) t'.view.snapshot

variable {t t' t'' : Transaction}

theorem Worked.refl (t : Transaction) : t.Worked t :=
  ⟨rfl, rfl, rfl, rfl, fun _ => rfl, [], (List.append_nil _).symm,
    fun is h => (List.append_nil is).symm ▸ h⟩

theorem Worked.trans (h : t.Worked t') (h' : t'.Worked t'') :
    t.Worked t'' where
  role_eq := h'.role_eq.trans h.role_eq
  pinned_eq := h'.pinned_eq.trans h.pinned_eq
  mode_eq := h'.mode_eq.trans h.mode_eq
  generation_eq := h'.generation_eq.trans h.generation_eq
  view_eq hmode := (h'.view_eq (h.mode_eq ▸ hmode)).trans (h.view_eq hmode)
  recorded := by
    obtain ⟨new, hnew, hreach⟩ := h.recorded
    obtain ⟨new', hnew', hreach'⟩ := h'.recorded
    refine ⟨new ++ new', ?_, fun is his => ?_⟩
    · rw [hnew', hnew, List.append_assoc]
    · rw [← List.append_assoc]
      exact hreach' _ (hreach is his)

theorem worked_of_wrote {limits : Limits} {i : Instruction} {v : View}
    {build : Snapshot → Except Error Instruction}
    (h : View.Wrote limits build t.view i v) :
    t.Worked { t with view := v } := by
  refine ⟨rfl, rfl, h.mode_eq, h.generation_eq,
    fun hmode => (hmode h.writing).elim, [i], ?_, fun is his => ?_⟩
  · show v.changes.toList = _
    rw [h.changes_eq, Array.toList_push]
  · exact his.step (Snapshot.apply_gives_iff.2 h.applied)

/-- Whether a transaction was committed or rolled back. -/
def HasEnded (t : Transaction) : Prop :=
  ∃ state holdsSlot, t.role = .writer state holdsSlot ∧ state ≠ .active

end Transaction

/-- What the view of a transaction is open for. -/
def Role.mode : Role → ViewMode
  | .reader => .reading
  | .writer .active _ => .writing
  | .writer _ _ => .closed

/-- A transaction whose view fits its role; a reader is shown the version
that it pins. -/
structure Transaction.Settled (t : Transaction) : Prop where
  mode_eq : t.view.mode = t.role.mode
  pinned_eq : t.role = .reader → t.pinned = t.view.snapshot.version

/-- A settled transaction is closed to handles exactly if it has ended. -/
theorem Transaction.Settled.closed_iff {t : Transaction} (h : t.Settled) :
    t.view.mode = .closed ↔ t.HasEnded := by
  rw [h.mode_eq]
  unfold HasEnded
  cases t.role with
  | reader => exact ⟨nofun, nofun⟩
  | writer state holdsSlot =>
      cases state with
      | active =>
          refine ⟨nofun, ?_⟩
          rintro ⟨state, holdsSlot, hrole, hstate⟩
          cases hrole
          exact absurd rfl hstate
      | committed => exact ⟨fun _ => ⟨_, _, rfl, nofun⟩, fun _ => rfl⟩
      | rolledBack => exact ⟨fun _ => ⟨_, _, rfl, nofun⟩, fun _ => rfl⟩

namespace Engine

variable {e e' : Engine} {id : TransactionId} {t t' : Transaction}
  {ev : Event} {events : List Event}

-- ============================================================ the events

/-- Whether an event fits the transaction that it is about: only readers can
be asked to move on. -/
def Event.Typed (e : Engine) : Event → Prop
  | .call (.advance id) =>
    ∀ t, e.transaction? id = some t → t.role = .reader
  | _ => True

/-- Whether all events of a run fit. -/
def TypedRun : Engine → List Event → Prop
  | _, [] => True
  | e, ev :: evs => ev.Typed e ∧ TypedRun (ev.step e) evs

/-- What an event does to a transaction. -/
inductive Turn (e : Engine) (ev : Event) (id : TransactionId) :
    Option Transaction → Option Transaction → Prop
  | absent : Turn e ev id none none
  | worked {t t' : Transaction} (hstill : ev.moves e id = false)
      (h : t.Worked t') : Turn e ev id (some t) (some t')
  | began {mode : ViewMode} {role : Role} (hid : id = e.nextId)
      (hmode : mode = role.mode)
      (hrole : role = .reader ∨ role = .writer .active true) :
      Turn e ev id none
        (some ⟨{ mode, snapshot := e.current }, e.version, role⟩)
  | rolledBack {t : Transaction} (hrole : t.role = .writer .active true)
      (hev : ev = .call (.rollback id) ∨ ev = .call (.commit id))
      (hcurrent : (ev.step e).current = e.current) :
      Turn e ev id (some t) (some t.rolledBack)
  | committed {t : Transaction} (hrole : t.role = .writer .active true)
      (hev : ev = .call (.commit id))
      (hcurrent : (ev.step e).current = e.nextOf t) :
      Turn e ev id (some t) (some (e.shown t))
  | handedOff {t : Transaction} (hrole : t.role = .writer .active true)
      (hev : ev = .call (.commitAndRead id))
      (hcurrent : (ev.step e).current = e.nextOf t) :
      Turn e ev id (some t) (some (e.reader t))
  | moved {t : Transaction} (hmoves : ev.moves e id = true)
      (hrole : t.role = .reader) (hpinned : e.version ≠ t.pinned) :
      Turn e ev id (some t) (some (e.moved t))
  | dropped {t : Transaction}
      (hev : ev = .call (.drop id) ∨ ev = .call (.commitAndRead id)) :
      Turn e ev id (some t) none

/-- An event that leaves a transaction where it was. -/
theorem Turn.of_eq (hstill : ev.moves e id = false)
    {o o' : Option Transaction} (h : o' = o) : Turn e ev id o o' := by
  subst h
  cases o' with
  | none => exact .absent
  | some t => exact .worked hstill (.refl t)

-- ============================================================== handles

/-- Handles have done nothing but work. -/
def WorkedOn (e e' : Engine) : Prop :=
  ∀ a, (e.transaction? a = none ∧ e'.transaction? a = none)
    ∨ ∃ t t', e.transaction? a = some t ∧ e'.transaction? a = some t'
      ∧ t.Worked t'

theorem WorkedOn.refl (e : Engine) : e.WorkedOn e := by
  intro a
  cases ht : e.transaction? a with
  | none => exact .inl ⟨rfl, rfl⟩
  | some t => exact .inr ⟨t, t, rfl, rfl, .refl t⟩

/-- A transaction replaced by one that it can have worked to. -/
theorem WorkedOn.withTransaction (h : e.WorkedOn e')
    (ht : e'.transaction? id = some t) (hworked : t.Worked t') :
    e.WorkedOn (e'.withTransaction id t') := by
  intro a
  rw [transaction?_withTransaction]
  by_cases heq : a = id
  · subst heq
    rw [if_pos rfl]
    rcases h a with ⟨-, hnone⟩ | ⟨u, u', hu, hu', hbefore⟩
    · rw [ht] at hnone
      cases hnone
    · obtain rfl := Option.some.inj (ht.symm.trans hu')
      exact .inr ⟨u, t', hu, rfl, hbefore.trans hworked⟩
  · rw [if_neg heq]
    exact h a

theorem lasting_workedOn (e : Engine) : Lasting e.WorkedOn := by
  intro s s' h hstep
  cases hstep with
  | counted => exact h
  | kept ht => exact h.withTransaction ht (.refl _)
  | wrote ht hwrote =>
      exact h.withTransaction ht (Transaction.worked_of_wrote hwrote)

/-- What goes through a handle is work. -/
theorem turn_handled {c : Call} (hc : c.turnsOver = false)
    (hstar : Relation.ReflTransGen Handled e (c.step e))
    (id : TransactionId) :
    Turn e (.call c) id (e.transaction? id)
      ((c.step e).transaction? id) := by
  have hstill : (Event.call c).moves e id = false := by
    cases c with
    | advance => cases hc
    | _ => rfl
  rcases (lasting_workedOn e).star hstar (.refl e) id with ⟨h, h'⟩ | ⟨t, t', h, h', hworked⟩
  · rw [h, h']
    exact .absent
  · rw [h, h']
    exact .worked hstill hworked

-- ========================================================== the others

/-- A transaction put in the place of one, seen from any. -/
theorem turn_replaced {a : TransactionId} {u : Transaction}
    (ht : e.transaction? a = some t)
    (hself : a = id → Turn e ev id (some t) (some u))
    (hother : a ≠ id → ev.moves e id = false) :
    Turn e ev id (e.transaction? id)
      ((e.withTransaction a u).transaction? id) := by
  rw [transaction?_withTransaction]
  by_cases heq : a = id
  · subst heq
    rw [if_pos rfl, ht]
    exact hself rfl
  · rw [if_neg (Ne.symm heq)]
    exact .of_eq (hother heq) rfl

/-- A transaction that goes, seen from any. -/
theorem turn_dropped {a : TransactionId} (u : Transaction)
    (ht : e.transaction? a = some t)
    (hself : a = id → Turn e ev id (some t) none)
    (hother : a ≠ id → ev.moves e id = false) :
    Turn e ev id (e.transaction? id) ((e.dropped a u).transaction? id) := by
  rw [transaction?_dropped]
  by_cases heq : a = id
  · subst heq
    rw [if_pos rfl, ht]
    exact hself rfl
  · rw [if_neg (Ne.symm heq)]
    exact .of_eq (hother heq) rfl

/-- Rolling a transaction back leaves nothing that dropping it does not
take. -/
theorem transaction?_aborted_dropped (e : Engine) (a : TransactionId)
    (t u : Transaction) (id : TransactionId) :
    ((e.aborted a t).dropped a u).transaction? id
      = (e.dropped a u).transaction? id := by
  rw [transaction?_dropped, transaction?_dropped]
  split
  · rfl
  next hne => exact (transaction?_withTransaction id).trans (if_neg hne)

/-- A transaction that begins, seen from any. -/
theorem turn_opened (hfresh : e.Fresh) {mode : ViewMode} {role : Role}
    (hmode : mode = role.mode)
    (hrole : role = .reader ∨ role = .writer .active true)
    (hstill : ev.moves e id = false) :
    Turn e ev id (e.transaction? id)
      ((e.opened mode role).transaction? id) := by
  have hopened : (e.opened mode role).transaction? id
      = if id = e.nextId then
          some ⟨{ mode, snapshot := e.current }, e.version, role⟩
        else e.transaction? id := transaction?_withTransaction id
  rw [hopened]
  by_cases heq : id = e.nextId
  · have hnone : e.transaction? id = none := by
      cases ht : e.transaction? id with
      | none => rfl
      | some t => exact absurd (heq ▸ hfresh id t ht) (Nat.lt_irrefl _)
    rw [if_pos heq, hnone]
    exact .began heq hmode hrole
  · rw [if_neg heq]
    exact .of_eq hstill rfl

/-- What comes of a call does one of these things to every transaction. -/
theorem Outcome.turn {c : Call} {r : EStateM.Result Error Engine Unit}
    (houtcome : Outcome e c r) (h : e.Serial) (hrun : c.run.run e = r)
    (htyped : (Event.call c).Typed e) (id : TransactionId) :
    Turn e (.call c) id (e.transaction? id)
      ((c.step e).transaction? id) := by
  cases houtcome with
  | handled hc hstar => exact turn_handled hc hstar id
  | idle _ hstill =>
      rw [step_of_ok hrun]
      exact .of_eq (hstill id) rfl
  | failed hstill =>
      rw [step_of_error hrun]
      exact .of_eq (hstill id) rfl
  | reading =>
      rw [step_of_ok hrun]
      exact turn_opened h.fresh rfl (.inl rfl) rfl
  | writing =>
      rw [step_of_ok hrun]
      exact turn_opened h.fresh rfl (.inr rfl) rfl
  | @committed a t _ _ e' ht hrole hlog hsame =>
      have hcurrent : ((Call.commit a).step e).current = e.nextOf t := by
        rw [step_of_ok hrun]
        exact hsame.current_eq
      rw [step_of_ok hrun, hsame.transaction?_eq]
      refine turn_replaced ht (fun heq => ?_) fun _ => rfl
      exact heq ▸ .committed hrole rfl hcurrent
  | @refused a t _ _ e' ht hrole hlog hsame =>
      have hcurrent : ((Call.commit a).step e).current = e.current := by
        rw [step_of_error hrun]
        exact hsame.current_eq
      rw [step_of_error hrun, hsame.transaction?_eq]
      refine turn_replaced ht (fun heq => ?_) fun _ => rfl
      exact heq ▸ .rolledBack hrole (.inr rfl) hcurrent
  | @handedOff a t _ _ e' ht hrole hlog hsame =>
      have hcurrent : ((Call.commitAndRead a).step e).current
          = e.nextOf t := by
        rw [step_of_ok hrun]
        exact hsame.current_eq
      rw [step_of_ok hrun, hsame.transaction?_eq]
      refine turn_replaced ht (fun heq => ?_) fun _ => rfl
      exact heq ▸ .handedOff hrole rfl hcurrent
  | @lost a t _ _ e' ht hrole hlog hsame =>
      rw [step_of_error hrun, hsame.transaction?_eq]
      -- the writer is gone either way, so its abort does not show
      show Turn _ _ _ _ (((e.aborted a t).dropped a t).transaction? id)
      rw [transaction?_aborted_dropped]
      exact turn_dropped t ht (fun heq => heq ▸ .dropped (.inr rfl))
        fun _ => rfl
  | @consumed a t _ ht hidle =>
      rw [step_of_error hrun]
      exact turn_dropped t ht (fun heq => heq ▸ .dropped (.inr rfl))
        fun _ => rfl
  | @rolledBack a t e' ht hrole hsame =>
      have hcurrent : ((Call.rollback a).step e).current = e.current := by
        rw [step_of_ok hrun]
        exact hsame.current_eq
      rw [step_of_ok hrun, hsame.transaction?_eq]
      refine turn_replaced ht (fun heq => ?_) fun _ => rfl
      exact heq ▸ .rolledBack hrole (.inl rfl) hcurrent
  | @dropped a t ht hidle =>
      rw [step_of_ok hrun]
      exact turn_dropped t ht (fun heq => heq ▸ .dropped (.inl rfl))
        fun _ => rfl
  | @droppedWriter a t e' ht hrole hsame =>
      rw [step_of_ok hrun, hsame.transaction?_eq,
        transaction?_aborted_dropped]
      exact turn_dropped t ht (fun heq => heq ▸ .dropped (.inl rfl))
        fun _ => rfl
  | @moved a t ht hpinned =>
      have hmoved := run_advance_moved ht hpinned
      rw [step_of_ok hrun]
      refine turn_replaced ht (fun heq => ?_) fun hne => ?_
      · subst heq
        exact .moved (by simp [Event.moves, hmoved]) (htyped t ht) hpinned
      · simp [Event.moves, hne]

/-- Every event does one of these things to every transaction. -/
theorem Serial.turn (h : e.Serial) (htyped : ev.Typed e)
    (id : TransactionId) :
    Turn e ev id (e.transaction? id) ((ev.step e).transaction? id) := by
  cases ev with
  | turn f => exact .of_eq rfl rfl
  | call c => exact (h.outcome c).turn h rfl htyped id

-- ================================================ what holds of them all

/-- Every transaction is settled after an event that leaves the others
so. -/
theorem Turn.settled {o o' : Option Transaction} (h : Turn e ev id o o')
    (ho : ∀ t, o = some t → t.Settled) (ht : o' = some t) : t.Settled := by
  cases h with
  | absent => cases ht
  | @worked u u' hstill hworked =>
      cases ht
      have hu := ho u rfl
      constructor
      · rw [hworked.mode_eq, hworked.role_eq]
        exact hu.mode_eq
      · intro hrole
        rw [hworked.role_eq] at hrole
        have hmode : u.view.mode ≠ .writing := by
          rw [hu.mode_eq, hrole]
          exact nofun
        rw [hworked.pinned_eq, hworked.view_eq hmode]
        exact hu.pinned_eq hrole
  | began hid hmode hrole =>
      cases ht
      exact ⟨hmode, fun _ => rfl⟩
  | @rolledBack u hrole hev =>
      cases ht
      exact ⟨rfl, nofun⟩
  | committed hrole hev hcurrent =>
      cases ht
      exact ⟨rfl, nofun⟩
  | handedOff hrole hev hcurrent =>
      cases ht
      exact ⟨rfl, fun _ => rfl⟩
  | @moved u hmoves hrole hpinned =>
      cases ht
      refine ⟨?_, fun _ => rfl⟩
      show ViewMode.reading = u.role.mode
      rw [hrole]
      rfl
  | dropped hev => cases ht

/-- Writers come one after the other, and every transaction is settled. -/
structure Orderly (e : Engine) : Prop where
  serial : e.Serial
  settled : ∀ id t, e.transaction? id = some t → t.Settled

theorem orderly_starting (s : Snapshot) (log : Option HistoryLog)
    (limits : Limits) : (starting s log limits).Orderly := by
  refine ⟨serial_starting s log limits, fun id t ht => ?_⟩
  have hnone : (starting s log limits).transaction? id = none :=
    Std.TreeMap.getElem?_emptyc
  rw [hnone] at ht
  cases ht

theorem Orderly.step (h : e.Orderly) (htyped : ev.Typed e) :
    (ev.step e).Orderly :=
  ⟨(h.serial.step ev).serial h.serial, fun id _ ht =>
    (h.serial.turn htyped id).settled (fun _ => h.settled id _) ht⟩

theorem Orderly.through (h : e.Orderly) (htyped : TypedRun e events) :
    (e.through events).Orderly := by
  induction events generalizing e with
  | nil => exact h
  | cons ev evs ih => exact ih (h.step htyped.1) htyped.2

theorem typedRun_append {events' : List Event} :
    TypedRun e (events ++ events')
      ↔ TypedRun e events ∧ TypedRun (e.through events) events' := by
  induction events generalizing e with
  | nil => exact ⟨fun h => ⟨trivial, h⟩, fun h => h.2⟩
  | cons ev evs ih =>
      show _ ∧ TypedRun _ (evs ++ events') ↔ (_ ∧ _) ∧ _
      rw [ih, and_assoc]
      rfl

/-- A transaction that is gone does not come back: its id was handed out,
and is handed out once. -/
theorem Serial.gone (h : e.Serial) (htyped : TypedRun e events)
    (hid : id.raw < e.nextId.raw) (hnone : e.transaction? id = none) :
    (e.through events).transaction? id = none := by
  induction events generalizing e with
  | nil => exact hnone
  | cons ev evs ih =>
      have hstep := h.step ev
      refine ih (hstep.serial h) htyped.2
        (Nat.lt_of_lt_of_le hid hstep.nextId_le) ?_
      have hturn := h.turn htyped.1 id
      rw [hnone] at hturn
      cases hafter : (ev.step e).transaction? id with
      | none => rfl
      | some t =>
          rw [hafter] at hturn
          cases hturn with
          | began hid' => exact absurd (hid' ▸ hid) (Nat.lt_irrefl _)

/-- A transaction that is there before and after a run is there all along. -/
theorem Serial.stays (h : e.Serial) (htyped : TypedRun e (ev :: events))
    (ht : e.transaction? id = some t)
    (ht' : (e.through (ev :: events)).transaction? id = some t') :
    ∃ u, (ev.step e).transaction? id = some u
      ∧ Turn e ev id (some t) (some u) := by
  have hstep := h.step ev
  have hturn := h.turn htyped.1 id
  rw [ht] at hturn
  cases hnext : (ev.step e).transaction? id with
  | none =>
      have hid := Nat.lt_of_lt_of_le (h.fresh id t ht) hstep.nextId_le
      have hgone := (hstep.serial h).gone htyped.2 hid hnext
      rw [show e.through (ev :: events) = (ev.step e).through events from rfl,
        hgone] at ht'
      cases ht'
  | some u =>
      rw [hnext] at hturn
      exact ⟨u, rfl, hturn⟩

end Engine

end Colonnade
