/-
Who made what, and who has seen it. A change is an instruction that a
transaction has recorded, with the transaction and its place among those of
that transaction, so that two changes may well be the same instruction.
`Annals` keep, beside a run, the changes that were committed and those that
led to what each transaction is shown; they are read off the run and play no
part in it.

`Told` says that they are right: the committed changes lead to what is
current, and those that a transaction has seen to its snapshot. A reader and
a writer that was committed have seen a front of what is committed. An
active writer has seen all of that and its own changes. One that was rolled
back has seen its own on top of what was committed when it began, and what
was committed after that was made by later writers.

Chain: `Engine.Imports` compares what two transactions have seen.
-/
import Colonnade.Proofs.Engine.Serial
import Colonnade.Proofs.Engine.Turns
import Colonnade.Proofs.Snapshot.Origins
import Mathlib.Data.List.Infix

namespace Colonnade

-- ============================================================ changes

/-- An instruction that a transaction has recorded, and its place among
those that it has recorded. -/
structure Change where
  writer : TransactionId
  index : Nat
  made : Instruction
deriving DecidableEq

/-- What was carried out. -/
def instructions (changes : List Change) : List Instruction :=
  changes.map Change.made

/-- Instructions as changes of one writer, from a place on. -/
def signed (writer : TransactionId) (start : Nat) (is : List Instruction) :
    List Change :=
  (is.zipIdx start).map fun (i, index) => ⟨writer, index, i⟩

section Changes

variable {writer : TransactionId} {start : Nat} {c : Change}

/-- The instructions of two stretches of changes are those of the whole. -/
@[simp]
theorem instructions_append (l l' : List Change) :
    instructions (l ++ l') = instructions l ++ instructions l' :=
  List.map_append

/-- Signing changes nothing about the instructions. -/
@[simp]
theorem instructions_signed (is : List Instruction) :
    instructions (signed writer start is) = is := by
  unfold instructions signed
  rw [List.map_map]
  exact List.zipIdx_map_fst start is

/-- A signed change has the writer that signed it. -/
theorem writer_of_mem_signed {is : List Instruction}
    (h : c ∈ signed writer start is) : c.writer = writer := by
  obtain ⟨-, -, rfl⟩ := List.mem_map.1 h
  rfl

/-- A signed list is signed in two parts. -/
theorem signed_append (is js : List Instruction) :
    signed writer start (is ++ js)
      = signed writer start is ++ signed writer (start + is.length) js := by
  unfold signed
  rw [List.zipIdx_append, List.map_append]

end Changes

/-- The change that makes what is under an identity, of those that were
seen, and there is no other. -/
structure Origin (seen : List Change) (x : Identity) (c : Change) : Prop where
  mem : c ∈ seen
  makes : c.made.Makes x
  sole : ∀ d ∈ seen, d.made.Makes x → d = c

/-- Of the changes that lead to a snapshot, one makes what is under an
identity. -/
theorem Snapshot.Reached.sole_origin {s : Snapshot} {l : List Change}
    (h : Reached (instructions l) s) (hfit : FitCounters (instructions l))
    {c d : Change} (hc : c ∈ l) (hd : d ∈ l) {x : Identity}
    (hmakes : c.made.Makes x) (hmakes' : d.made.Makes x) : c = d := by
  by_contra hne
  have hapart : l.Pairwise fun c d => MakeApart c.made d.made :=
    List.pairwise_map.1 (h.makeApart hfit)
  have hsymm : Std.Symm fun c d : Change => MakeApart c.made d.made :=
    ⟨fun _ _ hcd id hd hc => hcd id hc hd⟩
  exact hapart.forall hc hd hne x hmakes hmakes'

namespace Engine

variable {e e' : Engine} {id : TransactionId} {t t' : Transaction}
  {ev : Event} {events : List Event}

-- ============================================================== annals

/-- The transaction that an event is to commit. -/
def Event.writer? : Event → Option TransactionId
  | .call c => c.commits?
  | .turn _ => none

/-- The changes that an event commits. -/
def Event.signs (e : Engine) (ev : Event) : List Change :=
  match ev.writer?, ev.record? e with
  | some id, some r => signed id 0 r.instructions
  | _, _ => []

/-- The changes that were committed, and those that each transaction has
seen. -/
structure Annals where
  committed : List Change
  seen : TransactionId → List Change

namespace Annals

/-- The annals of a database that was just opened. What it was opened with
is nobody's. -/
def opening (is : List Instruction) : Annals :=
  ⟨signed ⟨0⟩ 0 is, fun _ => []⟩

/-- What comes of an event. A transaction that begins, or that is moved, has
seen what is committed; one that is there has seen in addition what it
records. -/
def step (n : Annals) (e : Engine) (ev : Event) : Annals where
  committed := n.committed ++ ev.signs e
  seen id :=
    match e.transaction? id, (ev.step e).transaction? id with
    | some t, some t' =>
      if ev.moves e id then n.committed
      else
        let before := t.view.changes.size
        n.seen id ++ signed id before (t'.view.changes.toList.drop before)
    | _, _ => n.committed

/-- The annals after a run of events. -/
def through (n : Annals) : Engine → List Event → Annals
  | _, [] => n
  | e, ev :: evs => (n.step e ev).through (ev.step e) evs

variable {n : Annals}

/-- A transaction that begins sees what is committed. -/
theorem seen_began (hnone : e.transaction? id = none) :
    (n.step e ev).seen id = n.committed := by
  unfold step
  dsimp only
  rw [hnone]

/-- A transaction that moves on sees what is committed. -/
theorem seen_moved (ht : e.transaction? id = some t)
    (ht' : (ev.step e).transaction? id = some t')
    (hmoves : ev.moves e id = true) :
    (n.step e ev).seen id = n.committed := by
  unfold step
  dsimp only
  rw [ht, ht']
  exact if_pos hmoves

/-- A transaction that records sees what it recorded. -/
theorem seen_recorded (ht : e.transaction? id = some t)
    (ht' : (ev.step e).transaction? id = some t')
    (hstill : ev.moves e id = false) {new : List Instruction}
    (hnew : t'.view.changes.toList = t.view.changes.toList ++ new) :
    (n.step e ev).seen id
      = n.seen id ++ signed id t.view.changes.size new := by
  unfold step
  dsimp only
  rw [ht, ht']
  dsimp only
  rw [hstill, hnew, if_neg Bool.false_ne_true,
    List.drop_left' Array.length_toList]

/-- A transaction that records nothing more has seen what it had. -/
theorem seen_ended (ht : e.transaction? id = some t)
    (ht' : (ev.step e).transaction? id = some t')
    (hstill : ev.moves e id = false) (hnone : t'.view.changes = #[]) :
    (n.step e ev).seen id = n.seen id := by
  unfold step
  dsimp only
  rw [ht, ht']
  dsimp only
  rw [hstill, hnone, if_neg Bool.false_ne_true, List.drop_nil]
  exact List.append_nil _

end Annals

-- ======================================================== what commits

/-- A record is committed by a call that is to commit, and it is that of
the active writer. -/
theorem Serial.record?_eq_some (h : e.Serial) {r : CommitRecord}
    (hr : ev.record? e = some r) :
    ∃ id t, ev.writer? = some id ∧ e.transaction? id = some t
      ∧ t.IsWriting ∧ r = e.recordOf t ∧ Publishes e t (ev.step e) := by
  cases ev with
  | turn f => cases hr
  | call c =>
      unfold Event.record? at hr
      dsimp only at hr
      split at hr
      next id _ e' hc hrun =>
        obtain ⟨t, ht, hw, hpublishes⟩ := h.publishes hc hrun
        rw [ht] at hr
        cases hr
        have hstep : (Event.call c).step e = e' := step_of_ok hrun
        exact ⟨id, t, hc, ht, hw, rfl, hstep ▸ hpublishes⟩
      next => cases hr

/-- The next version is another one. -/
theorem Version.next_ne (v : Version) : v.next ≠ v := by
  intro h
  have hraw : v.raw + 1 = v.raw := congrArg Version.raw h
  simp at hraw

/-- An event commits something exactly if something else is current
afterwards. -/
theorem Serial.record?_eq_none_iff (h : e.Serial) :
    ev.record? e = none ↔ (ev.step e).current = e.current := by
  constructor
  · intro hr
    have hstep := h.step ev
    rw [hr] at hstep
    exact hstep.current_eq
  · intro hcurrent
    cases hr : ev.record? e with
    | none => rfl
    | some r =>
        obtain ⟨_, _, -, -, -, -, hpublishes⟩ := h.record?_eq_some hr
        have hversion := hpublishes.version_eq.symm.trans
          (congrArg Snapshot.version hcurrent)
        exact absurd hversion (Version.next_ne _)

/-- Right after a commit nobody writes. -/
theorem Serial.record?_of_isWriting (h : e.Serial)
    (ht : (ev.step e).transaction? id = some t) (hw : t.IsWriting) :
    ev.record? e = none := by
  have hstep := h.step ev
  cases hr : ev.record? e with
  | none => rfl
  | some r =>
      rw [hr] at hstep
      cases hstep with
      | committed hu hrole hended hlog hcurrent =>
          have hafter := hended.serial h hu hrole
          have hbusy := (hafter.active ht hw).1
          rw [hended.writerBusy_eq] at hbusy
          cases hbusy

/-- An event without a record signs nothing. -/
theorem signs_of_record?_none (hr : ev.record? e = none) :
    ev.signs e = [] := by
  unfold Event.signs
  rw [hr]
  cases ev.writer? <;> rfl

/-- An event with a record signs its instructions. -/
theorem signs_of_record? {r : CommitRecord} (hr : ev.record? e = some r)
    (hid : ev.writer? = some id) :
    ev.signs e = signed id 0 r.instructions := by
  unfold Event.signs
  rw [hr, hid]

-- ======================================================= the invariant

open Snapshot

/-- What a transaction has seen, by how far it has come. -/
inductive Standing (n : Annals) (id : TransactionId) (t : Transaction) :
    Prop
  | shows (hrole : t.role = .reader
        ∨ ∃ holdsSlot, t.role = .writer .committed holdsSlot)
      (hseen : n.seen id <+: n.committed)
  | writes (hrole : t.IsWriting)
      (hseen : n.seen id
        = n.committed ++ signed id 0 t.view.changes.toList)
      (hbefore : ∀ c ∈ n.committed, c.writer.raw < id.raw)
  | gaveUp {base own later : List Change}
      (hrole : ∃ holdsSlot, t.role = .writer .rolledBack holdsSlot)
      (hseen : n.seen id = base ++ own)
      (hcommitted : n.committed = base ++ later)
      (hbase : ∀ c ∈ base, c.writer.raw < id.raw)
      (hown : ∀ c ∈ own, c.writer = id)
      (hlater : ∀ c ∈ later, id.raw < c.writer.raw)

/-- Whether annals are right about an engine. -/
structure Told (n : Annals) (e : Engine) : Prop where
  current : Reached (instructions n.committed) e.current
  handedOut : ∀ c ∈ n.committed, c.writer.raw < e.nextId.raw
  shown : ∀ id t, e.transaction? id = some t →
    Reached (instructions (n.seen id)) t.view.snapshot ∧ Standing n id t
  ordered : ∀ a t b u, e.transaction? a = some t →
    (∃ holdsSlot, t.role = .writer .rolledBack holdsSlot) →
    e.transaction? b = some u → u.IsWriting → a.raw < b.raw

variable {n : Annals}

/-- Whoever writes wrote before, or has just begun. -/
theorem Turn.writing_before {o : Option Transaction}
    (h : Turn e ev id o (some t')) (hw : t'.IsWriting) :
    id = e.nextId ∨ ∃ t, o = some t ∧ t.IsWriting := by
  obtain ⟨holdsSlot, hrole'⟩ := hw
  cases h with
  | worked hstill hworked =>
      exact .inr ⟨_, rfl, holdsSlot, hworked.role_eq.symm.trans hrole'⟩
  | began hid hmode hrole => exact .inl hid
  | rolledBack | committed | handedOff => cases hrole'
  | moved hmoves hrole hpinned =>
      have hreads := hrole.symm.trans hrole'
      cases hreads

/-- Whoever is rolled back was so before, or was writing. -/
theorem Turn.rolledBack_before {o : Option Transaction}
    (h : Turn e ev id o (some t'))
    (hrole' : ∃ holdsSlot, t'.role = .writer .rolledBack holdsSlot) :
    ∃ t, o = some t
      ∧ ((∃ holdsSlot, t.role = .writer .rolledBack holdsSlot)
        ∨ t.IsWriting) := by
  obtain ⟨holdsSlot, hrole'⟩ := hrole'
  cases h with
  | worked hstill hworked =>
      exact ⟨_, rfl, .inl ⟨holdsSlot, hworked.role_eq.symm.trans hrole'⟩⟩
  | began hid hmode hrole =>
      rcases hrole with rfl | rfl <;> cases hrole'
  | rolledBack hrole => exact ⟨_, rfl, .inr ⟨true, hrole⟩⟩
  | committed | handedOff => cases hrole'
  | moved hmoves hrole hpinned =>
      have hreads := hrole.symm.trans hrole'
      cases hreads

/-- What an event commits is nothing, or what the active writer has
recorded. -/
theorem Serial.signs_cases (h : e.Serial) (ev : Event) :
    (ev.signs e = [] ∧ (ev.step e).current = e.current)
      ∨ ∃ id t, e.transaction? id = some t ∧ t.IsWriting
        ∧ ev.signs e = signed id 0 t.view.changes.toList
        ∧ Publishes e t (ev.step e) := by
  cases hr : ev.record? e with
  | none =>
      exact .inl ⟨signs_of_record?_none hr, h.record?_eq_none_iff.1 hr⟩
  | some r =>
      obtain ⟨id, t, hid, ht, hw, rfl, hpublishes⟩ := h.record?_eq_some hr
      exact .inr ⟨id, t, ht, hw, signs_of_record? hr hid, hpublishes⟩

namespace Told

/-- What is committed leads to the current snapshot, behind every event. -/
theorem current_step (h : Told n e) (he : e.Serial) (ev : Event) :
    Reached (instructions (n.step e ev).committed) (ev.step e).current := by
  show Reached (instructions (n.committed ++ ev.signs e)) _
  rcases he.signs_cases ev with
    ⟨hsigns, hcurrent⟩ | ⟨id, t, -, -, hsigns, hpublishes⟩
  · rw [hsigns, hcurrent, List.append_nil]
    exact h.current
  · obtain ⟨s, happ, hnext⟩ := hpublishes.applied
    rw [hsigns, hnext, instructions_append, instructions_signed]
    exact (h.current.applyAll happ).renumber _

/-- Behind every event the writers of what is committed have begun. -/
theorem handedOut_step (h : Told n e) (he : e.Serial) (ev : Event) {c : Change}
    (hc : c ∈ (n.step e ev).committed) :
    c.writer.raw < (ev.step e).nextId.raw := by
  refine Nat.lt_of_lt_of_le ?_ (he.step ev).nextId_le
  rcases List.mem_append.1 hc with hc | hc
  · exact h.handedOut c hc
  rcases he.signs_cases ev with ⟨hsigns, -⟩ | ⟨id, t, ht, -, hsigns, -⟩
  · rw [hsigns] at hc
    cases hc
  · rw [hsigns] at hc
    exact writer_of_mem_signed hc ▸ he.fresh id t ht

/-- A writer that was rolled back stays earlier than every active one. -/
theorem ordered_step (h : Told n e) (he : e.Serial) (htyped : ev.Typed e)
    {a b : TransactionId} {u : Transaction}
    (ht : (ev.step e).transaction? a = some t)
    (hrole : ∃ holdsSlot, t.role = .writer .rolledBack holdsSlot)
    (hu : (ev.step e).transaction? b = some u) (hw : u.IsWriting) :
    a.raw < b.raw := by
  have hbegan := he.turn htyped b
  rw [hu] at hbegan
  have hended := he.turn htyped a
  rw [ht] at hended
  obtain ⟨t₀, ht₀, hrole₀⟩ := hended.rolledBack_before hrole
  rcases hbegan.writing_before hw with rfl | ⟨u₀, hu₀, hw₀⟩
  · exact he.fresh a t₀ ht₀
  rcases hrole₀ with hrole₀ | hw₁
  · exact h.ordered a t₀ b u₀ ht₀ hrole₀ hu₀ hw₀
  · -- Then it is the one that was just rolled back, and writes no more.
    obtain ⟨-, -, hsole, -⟩ := he.active hu₀ hw₀
    obtain rfl := hsole a t₀ ht₀ hw₁
    obtain rfl := Option.some.inj (ht.symm.trans hu)
    obtain ⟨_, hrole⟩ := hrole
    obtain ⟨_, hactive⟩ := hw
    rw [hrole] at hactive
    cases hactive

/-- A transaction that begins has seen what is committed. -/
theorem shown_began (h : Told n e) (he : e.Serial)
    (hnone : e.transaction? id = none)
    (ht : (ev.step e).transaction? id = some t)
    (hturn : Turn e ev id none (some t)) :
    Reached (instructions ((n.step e ev).seen id)) t.view.snapshot
      ∧ Standing (n.step e ev) id t := by
  have hseen : (n.step e ev).seen id = n.committed :=
    Annals.seen_began hnone
  cases hturn with
  | @began mode role hid hmode hrole =>
      refine ⟨hseen ▸ h.current, ?_⟩
      rcases hrole with rfl | rfl
      · exact .shows (.inl rfl) (hseen ▸ List.prefix_append _ _)
      · have hw : Transaction.IsWriting
            ⟨{ mode, snapshot := e.current }, e.version,
              .writer .active true⟩ := ⟨true, rfl⟩
        have hsigns := signs_of_record?_none (he.record?_of_isWriting ht hw)
        have hcommitted : (n.step e ev).committed = n.committed :=
          (congrArg (n.committed ++ ·) hsigns).trans (List.append_nil _)
        refine .writes hw ?_ fun c hc => ?_
        · rw [hseen, hcommitted]
          exact (List.append_nil _).symm
        · rw [hcommitted] at hc
          exact hid ▸ h.handedOut c hc

/-- A commit of the one who writes adds what it has recorded. -/
theorem committed_step_of_current (he : e.Serial)
    (ht : e.transaction? id = some t) (hw : t.IsWriting)
    (hcurrent : (ev.step e).current = e.nextOf t) :
    (n.step e ev).committed
      = n.committed ++ signed id 0 t.view.changes.toList := by
  rcases he.signs_cases ev with ⟨-, hstill⟩ | ⟨a, u, hu, hx, hsigns, -⟩
  · have hversion := congrArg Snapshot.version (hcurrent.symm.trans hstill)
    exact absurd hversion (Version.next_ne _)
  · obtain ⟨-, -, hsole, -⟩ := he.active ht hw
    obtain rfl := hsole a u hu hx
    obtain rfl := Option.some.inj (ht.symm.trans hu)
    exact congrArg (n.committed ++ ·) hsigns

/-- While the current snapshot stays nothing more is committed. -/
theorem committed_step_of_still (he : e.Serial)
    (hstill : (ev.step e).current = e.current) :
    (n.step e ev).committed = n.committed := by
  have hsigns := signs_of_record?_none (he.record?_eq_none_iff.2 hstill)
  exact (congrArg (n.committed ++ ·) hsigns).trans (List.append_nil _)

/-- An active writer has seen what is committed and its own. -/
theorem seen_writing (h : Told n e) (ht : e.transaction? id = some t)
    (hw : t.IsWriting) :
    n.seen id = n.committed ++ signed id 0 t.view.changes.toList
      ∧ ∀ c ∈ n.committed, c.writer.raw < id.raw := by
  obtain ⟨active, hactive⟩ := hw
  cases (h.shown id t ht).2 with
  | shows hrole _ =>
      rcases hrole with hrole | ⟨_, hrole⟩ <;> rw [hactive] at hrole <;>
        cases hrole
  | writes _ hseen hbefore => exact ⟨hseen, hbefore⟩
  | gaveUp hrole =>
      obtain ⟨_, hrole⟩ := hrole
      rw [hactive] at hrole
      cases hrole

/-- A transaction that works stands where it stood. -/
theorem standing_worked (h : Told n e) (he : e.Orderly)
    (ht : e.transaction? id = some t)
    (ht' : (ev.step e).transaction? id = some t')
    (hworked : t.Worked t') {new : List Instruction}
    (hnew : t'.view.changes.toList = t.view.changes.toList ++ new)
    (hseen : (n.step e ev).seen id
      = n.seen id ++ signed id t.view.changes.size new) :
    Standing (n.step e ev) id t' := by
  -- only a view for writing records anything
  have hkeeps (hmode : t.view.mode ≠ .writing) :
      (n.step e ev).seen id = n.seen id := by
    rw [hworked.view_eq hmode, List.self_eq_append_right] at hnew
    rw [hseen, hnew]
    exact List.append_nil _
  have hmode := (he.settled id t ht).mode_eq
  cases (h.shown id t ht).2 with
  | shows hrole hpre =>
      have hidle : t.view.mode ≠ .writing := by
        rw [hmode]
        rcases hrole with hrole | ⟨_, hrole⟩ <;> rw [hrole] <;> exact nofun
      refine .shows (hworked.role_eq ▸ hrole) ?_
      rw [hkeeps hidle]
      exact hpre.trans (List.prefix_append _ _)
  | writes hrole hall hbefore =>
      have hw : t'.IsWriting := by
        obtain ⟨holdsSlot, hrole⟩ := hrole
        exact ⟨holdsSlot, hworked.role_eq.trans hrole⟩
      have hcommitted : (n.step e ev).committed = n.committed :=
        committed_step_of_still he.serial
          (he.serial.record?_eq_none_iff.1
            (he.serial.record?_of_isWriting ht' hw))
      refine .writes hw ?_ (hcommitted.symm ▸ hbefore)
      rw [hseen, hall, hcommitted, hnew, signed_append, List.append_assoc,
        Nat.zero_add, Array.length_toList]
  | @gaveUp base own later hrole hall hcommitted hbase hown hlater =>
      have hidle : t.view.mode ≠ .writing := by
        obtain ⟨_, hrole⟩ := hrole
        rw [hmode, hrole]
        exact nofun
      have hnext : (n.step e ev).committed
          = base ++ (later ++ ev.signs e) := by
        rw [← List.append_assoc, ← hcommitted]
        rfl
      refine .gaveUp (hworked.role_eq ▸ hrole) ((hkeeps hidle).trans hall)
        hnext hbase hown fun c hc => ?_
      rcases List.mem_append.1 hc with hc | hc
      · exact hlater c hc
      -- what is committed now is of a writer that is active, so it began
      -- later
      rcases he.serial.signs_cases ev with
        ⟨hsigns, -⟩ | ⟨a, u, hu, hw, hsigns, -⟩
      · rw [hsigns] at hc
        cases hc
      · rw [hsigns] at hc
        rw [writer_of_mem_signed hc]
        exact h.ordered id t a u ht hrole hu hw

/-- What a transaction that goes on has seen. -/
theorem shown_kept (h : Told n e) (he : e.Orderly)
    (ht : e.transaction? id = some t)
    (ht' : (ev.step e).transaction? id = some t')
    (hturn : Turn e ev id (some t) (some t')) :
    Reached (instructions ((n.step e ev).seen id)) t'.view.snapshot
      ∧ Standing (n.step e ev) id t' := by
  have hreached := (h.shown id t ht).1
  -- A writer that was committed shows what is current from then on.
  have hpublished (hrole : t.role = .writer .active true)
      (hcurrent : (ev.step e).current = e.nextOf t)
      (hseen : (n.step e ev).seen id = n.seen id)
      (hsnapshot : t'.view.snapshot = e.nextOf t)
      (hrole' : t'.role = .reader
        ∨ ∃ holdsSlot, t'.role = .writer .committed holdsSlot) :
      Reached (instructions ((n.step e ev).seen id)) t'.view.snapshot
        ∧ Standing (n.step e ev) id t' := by
    have hw : t.IsWriting := ⟨true, hrole⟩
    have hall : (n.step e ev).seen id = (n.step e ev).committed := by
      rw [hseen, (h.seen_writing ht hw).1,
        committed_step_of_current he.serial ht hw hcurrent]
    refine ⟨?_, .shows hrole' (hall ▸ List.prefix_refl _)⟩
    rw [hall, hsnapshot, ← hcurrent]
    exact h.current_step he.serial ev
  cases hturn with
  | worked hstill hworked =>
      obtain ⟨new, hnew, hreach⟩ := hworked.recorded
      have hseen := Annals.seen_recorded (n := n) ht ht' hstill hnew
      refine ⟨?_, h.standing_worked he ht ht' hworked hnew hseen⟩
      rw [hseen, instructions_append, instructions_signed]
      exact hreach _ hreached
  | rolledBack hrole hev hcurrent =>
      have hstill : ev.moves e id = false := by
        rcases hev with rfl | rfl <;> rfl
      have hseen := Annals.seen_ended (n := n) ht ht' hstill rfl
      obtain ⟨hall, hbefore⟩ := h.seen_writing ht ⟨true, hrole⟩
      have hcommitted := committed_step_of_still (n := n) he.serial hcurrent
      refine ⟨hseen ▸ hreached, .gaveUp ⟨false, rfl⟩ (hseen.trans hall)
        (hcommitted.trans (List.append_nil _).symm) hbefore
        (fun c hc => writer_of_mem_signed hc) nofun⟩
  | committed hrole hev hcurrent =>
      have hstill : ev.moves e id = false := by
        subst hev
        rfl
      exact hpublished hrole hcurrent (Annals.seen_ended ht ht' hstill rfl)
        rfl (.inr ⟨_, rfl⟩)
  | handedOff hrole hev hcurrent =>
      have hstill : ev.moves e id = false := by
        subst hev
        rfl
      exact hpublished hrole hcurrent (Annals.seen_ended ht ht' hstill rfl)
        rfl (.inl rfl)
  | moved hmoves hrole hpinned =>
      have hseen := Annals.seen_moved (n := n) ht ht' hmoves
      exact ⟨hseen ▸ h.current, .shows (.inl hrole)
        (hseen ▸ List.prefix_append _ _)⟩

/-- Annals that are right stay right. -/
theorem step (h : Told n e) (he : e.Orderly) (htyped : ev.Typed e) :
    Told (n.step e ev) (ev.step e) where
  current := h.current_step he.serial ev
  handedOut _ := h.handedOut_step he.serial ev
  shown id t' ht' := by
    have hturn := he.serial.turn htyped id
    rw [ht'] at hturn
    cases ht : e.transaction? id with
    | none =>
        rw [ht] at hturn
        exact h.shown_began he.serial ht ht' hturn
    | some t =>
        rw [ht] at hturn
        exact h.shown_kept he ht ht' hturn
  ordered _ _ _ _ := h.ordered_step he.serial htyped

/-- Every run tells what is committed and what is seen. -/
theorem through (h : Told n e) (he : e.Orderly)
    (htyped : TypedRun e events) :
    Told (n.through e events) (e.through events) := by
  induction events generalizing n e with
  | nil => exact h
  | cons ev evs ih =>
      exact ih (h.step he htyped.1) (he.step htyped.1) htyped.2

end Told

/-- A starting engine tells what it was opened with. -/
theorem told_starting {is : List Instruction} {s : Snapshot}
    (hopened : Reached is s) (log : Option HistoryLog) (limits : Limits) :
    Told (.opening is) (starting s log limits) := by
  have hnone (id : TransactionId) :
      (starting s log limits).transaction? id = none :=
    Std.TreeMap.getElem?_emptyc
  refine ⟨?_, fun c hc => ?_, fun id t ht => ?_, fun a t b u ht => ?_⟩
  · show Reached (instructions (signed ⟨0⟩ 0 is)) s
    rwa [instructions_signed]
  · rw [writer_of_mem_signed hc]
    exact Nat.zero_lt_one
  · rw [hnone] at ht
    cases ht
  · rw [hnone] at ht
    cases ht

-- ============================================================ the past

/-- What was committed stays so. -/
theorem committed_through (n : Annals) (e : Engine) (events : List Event) :
    n.committed <+: (n.through e events).committed := by
  induction events generalizing n e with
  | nil => exact List.prefix_refl _
  | cons ev evs ih =>
      exact (List.prefix_append _ _).trans (ih (n.step e ev) (ev.step e))

namespace Told

/-- A reader has seen nothing that is not committed. -/
theorem seen_reading (h : Told n e) (ht : e.transaction? id = some t)
    (hrole : t.role = .reader) : n.seen id <+: n.committed := by
  cases (h.shown id t ht).2 with
  | shows _ hseen => exact hseen
  | writes hw =>
      obtain ⟨_, hactive⟩ := hw
      rw [hrole] at hactive
      cases hactive
  | gaveUp hended =>
      obtain ⟨_, hended⟩ := hended
      rw [hrole] at hended
      cases hended

/-- What a transaction has seen it goes on seeing, or it is committed. -/
theorem seen_step (h : Told n e) (ht : e.transaction? id = some t)
    (ht' : (ev.step e).transaction? id = some t')
    (hturn : Turn e ev id (some t) (some t')) {c : Change}
    (hc : c ∈ n.seen id ∨ c ∈ n.committed) :
    c ∈ (n.step e ev).seen id ∨ c ∈ (n.step e ev).committed := by
  rcases hc with hc | hc
  swap
  · exact .inr (List.mem_append_left _ hc)
  have hended (hstill : ev.moves e id = false)
      (hnone : t'.view.changes = #[]) : c ∈ (n.step e ev).seen id :=
    (Annals.seen_ended (n := n) ht ht' hstill hnone).symm ▸ hc
  cases hturn with
  | worked hstill hworked =>
      obtain ⟨new, hnew, -⟩ := hworked.recorded
      rw [Annals.seen_recorded ht ht' hstill hnew]
      exact .inl (List.mem_append_left _ hc)
  | rolledBack hrole hev =>
      exact .inl (hended (by rcases hev with rfl | rfl <;> rfl) rfl)
  | committed hrole hev => exact .inl (hended (by subst hev; rfl) rfl)
  | handedOff hrole hev => exact .inl (hended (by subst hev; rfl) rfl)
  | moved hmoves hrole =>
      exact .inr (List.mem_append_left _ ((h.seen_reading ht hrole).mem hc))

/-- What a transaction has seen it goes on seeing, or it is committed. -/
theorem seen_through (h : Told n e) (he : e.Orderly)
    (htyped : TypedRun e events) (ht : e.transaction? id = some t)
    (ht' : (e.through events).transaction? id = some t') {c : Change}
    (hc : c ∈ n.seen id ∨ c ∈ n.committed) :
    c ∈ (n.through e events).seen id
      ∨ c ∈ (n.through e events).committed := by
  induction events generalizing n e t with
  | nil => exact hc
  | cons ev evs ih =>
      obtain ⟨u, hu, hturn⟩ := he.serial.stays htyped ht ht'
      exact ih (h.step he htyped.1) (he.step htyped.1) htyped.2 hu ht'
        (h.seen_step ht hu hturn hc)

/-- What a transaction has seen was made by itself, or is committed; and a
transaction that was rolled back has seen nothing of later writers. -/
theorem mem_seen (h : Told n e) (ht : e.transaction? id = some t)
    {c : Change} (hc : c ∈ n.seen id) :
    c.writer = id ∨ c ∈ n.committed
      ∧ ((∃ holdsSlot, t.role = .writer .rolledBack holdsSlot) →
        c.writer.raw < id.raw) := by
  cases (h.shown id t ht).2 with
  | shows hrole hseen =>
      refine .inr ⟨hseen.mem hc, fun ⟨_, hended⟩ => ?_⟩
      rw [hended] at hrole
      rcases hrole with hrole | ⟨_, hrole⟩ <;> cases hrole
  | writes hrole hseen hbefore =>
      rw [hseen] at hc
      rcases List.mem_append.1 hc with hc | hc
      · exact .inr ⟨hc, fun _ => hbefore c hc⟩
      · exact .inl (writer_of_mem_signed hc)
  | gaveUp hrole hseen hcommitted hbase hown hlater =>
      rw [hseen] at hc
      rcases List.mem_append.1 hc with hc | hc
      · exact .inr ⟨hcommitted ▸ List.mem_append_left _ hc,
          fun _ => hbase c hc⟩
      · exact .inl (hown c hc)

/-- A thing that a transaction is shown comes from a change that it has
seen. -/
theorem origin (h : Told n e) (ht : e.transaction? id = some t)
    (hfit : FitCounters (instructions (n.seen id))) {x : Identity}
    (hx : t.view.snapshot.Has x) : ∃ c, Origin (n.seen id) x c := by
  have hreached := (h.shown id t ht).1
  obtain ⟨y, rfl, hy⟩ := hx
  obtain ⟨i, hi, hmakes⟩ := hreached.made_of_holds hfit hy
  obtain ⟨c, hc, rfl⟩ := List.mem_map.1 hi
  refine ⟨c, hc, ⟨y, hmakes, rfl⟩, fun d hd hd' => ?_⟩
  exact hreached.sole_origin hfit hd hc hd' ⟨y, hmakes, rfl⟩

end Told

end Engine

end Colonnade
