/-
What a reader sees. The snapshots that were ever current make a history: the
one that the database was opened with, and after it one for each commit that
succeeded, numbered upward. Every reader, whether it began as one or goes on
from a commit, is shown one of them, the one with the number that it pins.

An event either leaves a reader as it is or moves it to what is current, and
only a move that the reader asked for does the latter (`Turn.reading`). So a
reader stays where it is through whatever else happens, and when it moves it
never moves back.

That the history has the snapshots of all readers needs the step in which a
writer goes on to read: its own working copy is what it is shown from then
on, and it is that copy, renumbered, that the commit has made current.

Chain: nothing above uses this; it is what a reader may assume.
-/
import Colonnade.Proofs.Engine.Serial
import Colonnade.Proofs.Engine.Validity

namespace Colonnade.Engine

variable {e e' : Engine} {id : TransactionId} {t t' : Transaction}
  {ev : Event} {events : List Event} {base : Version} {past : List Snapshot}

-- =========================================================== history

/-- What an event adds to what was current. -/
def Event.adds (e : Engine) (ev : Event) : List Snapshot :=
  if (ev.record? e).isSome then [(ev.step e).current] else []

/-- The snapshots that a run makes current, in order. -/
def madeCurrent : Engine → List Event → List Snapshot
  | _, [] => []
  | e, ev :: evs => ev.adds e ++ madeCurrent (ev.step e) evs

/-- The snapshots that were current in the course of a run. -/
def history (e : Engine) (events : List Event) : List Snapshot :=
  e.current :: madeCurrent e events

/-- The snapshots that were ever current, as far as an engine tells: they
are numbered upward, the last is current, and readers are shown no
others. -/
structure Historic (base : Version) (past : List Snapshot) (e : Engine) :
    Prop where
  numbered : ∀ k s, past[k]? = some s →
    s.version.raw = base.raw + UInt64.ofNat k
  last : past.getLast? = some e.current
  readers : ∀ id t, e.transaction? id = some t → t.role = .reader →
    t.view.snapshot ∈ past

/-- What an event adds is the next version, and what is current then. -/
theorem Serial.adds (h : e.Serial) (ev : Event) :
    (ev.adds e = [] ∧ (ev.step e).current = e.current)
      ∨ (ev.adds e = [(ev.step e).current]
        ∧ (ev.step e).version = e.version.next) := by
  have hstep := h.step ev
  unfold Event.adds
  cases hr : ev.record? e with
  | none =>
      rw [hr] at hstep
      exact .inl ⟨rfl, hstep.current_eq⟩
  | some r =>
      rw [hr] at hstep
      refine .inr ⟨rfl, ?_⟩
      cases hstep with
      | committed ht hrole hended hlog hcurrent =>
          exact congrArg Snapshot.version hcurrent

/-- The current snapshot is one of the past. -/
theorem Historic.current_mem (h : Historic base past e) :
    e.current ∈ past :=
  List.mem_of_getLast? h.last

/-- A starting engine has the past of its snapshot. -/
theorem historic_starting (s : Snapshot) (log : Option HistoryLog)
    (limits : Limits) :
    Historic s.version [s] (starting s log limits) := by
  refine ⟨fun k u hu => ?_, rfl, fun id t ht => ?_⟩
  · obtain ⟨hk, rfl⟩ := List.getElem?_eq_some_iff.1 hu
    obtain rfl : k = 0 := by simpa using hk
    exact (UInt64.add_zero _).symm
  · have hnone : (starting s log limits).transaction? id = none :=
      Std.TreeMap.getElem?_emptyc
    rw [hnone] at ht
    cases ht

/-- What an event adds keeps the numbers going. -/
theorem Historic.last_adds (h : Historic base past e) (he : e.Serial)
    (ev : Event) :
    (past ++ ev.adds e).getLast? = some (ev.step e).current := by
  rcases he.adds ev with ⟨hnone, hcurrent⟩ | ⟨hadds, -⟩
  · rw [hnone, List.append_nil, hcurrent]
    exact h.last
  · rw [hadds]
    exact List.getLast?_concat

/-- Snapshots are numbered one after the other. -/
theorem Historic.numbered_adds (h : Historic base past e) (he : e.Serial)
    (ev : Event) {k : Nat} {s : Snapshot}
    (hs : (past ++ ev.adds e)[k]? = some s) :
    s.version.raw = base.raw + UInt64.ofNat k := by
  rcases he.adds ev with ⟨hnone, -⟩ | ⟨hadds, hnext⟩
  · rw [hnone, List.append_nil] at hs
    exact h.numbered k s hs
  rw [hadds] at hs
  rcases Nat.lt_trichotomy k past.length with hk | rfl | hk
  · rw [List.getElem?_append_left hk] at hs
    exact h.numbered k s hs
  · -- The one that was added comes right after the one that was current.
    rw [List.getElem?_concat_length] at hs
    obtain rfl := Option.some.inj hs
    have hlast := h.last
    rw [List.getLast?_eq_getElem?] at hlast
    have hpos : 0 < past.length := List.length_pos_of_mem h.current_mem
    calc (ev.step e).current.version.raw
        = e.current.version.raw + 1 := congrArg Version.raw hnext
      _ = base.raw + UInt64.ofNat (past.length - 1) + UInt64.ofNat 1 := by
          rw [h.numbered _ _ hlast]
          rfl
      _ = base.raw + UInt64.ofNat past.length := by
          rw [UInt64.add_assoc, ← UInt64.ofNat_add, Nat.sub_add_cancel hpos]
  · have hlength : (past ++ [(ev.step e).current]).length ≤ k := by
      rw [List.length_append]
      exact hk
    rw [List.getElem?_eq_none hlength] at hs
    cases hs

-- =========================================================== readers

/-- An event leaves a reader as it is, or moves it to what is current. -/
theorem Turn.reading (h : Turn e ev id (some t) (some t'))
    (ht : t.Settled) (hrole : t.role = .reader) :
    (ev.moves e id = false ∧ t' = t)
      ∨ ev.moves e id = true ∧ e.version ≠ t.pinned ∧ t' = e.moved t := by
  have hwriter {state : TransactionState} {holdsSlot : Bool}
      (hactive : t.role = .writer state holdsSlot) : False := by
    rw [hrole] at hactive
    cases hactive
  cases h with
  | worked hstill hworked =>
      have hmode : t.view.mode ≠ .writing := by
        rw [ht.mode_eq, hrole]
        exact nofun
      refine .inl ⟨hstill, ?_⟩
      obtain ⟨view, pinned, role⟩ := t'
      obtain rfl : view = t.view := hworked.view_eq hmode
      obtain rfl : pinned = t.pinned := hworked.pinned_eq
      obtain rfl : role = t.role := hworked.role_eq
      rfl
  | rolledBack hactive hev => exact (hwriter hactive).elim
  | committed hactive hev hcurrent => exact (hwriter hactive).elim
  | handedOff hactive hev hcurrent => exact (hwriter hactive).elim
  | moved hmoves hreader hpinned => exact .inr ⟨hmoves, hpinned, rfl⟩

/-- Whoever reads after an event is shown what was already current, or what
the event has made so. -/
theorem Turn.shows {o : Option Transaction} (h : Turn e ev id o (some t'))
    (hsettled : ∀ t, o = some t → t.Settled) (hrole : t'.role = .reader) :
    (∃ t, o = some t ∧ t.role = .reader
        ∧ t'.view.snapshot = t.view.snapshot)
      ∨ t'.view.snapshot = e.current
      ∨ t'.view.snapshot = (ev.step e).current := by
  cases h with
  | @worked t t' hstill hworked =>
      have hreader : t.role = .reader := hworked.role_eq.symm.trans hrole
      have hmode : t.view.mode ≠ .writing := by
        rw [(hsettled t rfl).mode_eq, hreader]
        exact nofun
      refine .inl ⟨t, rfl, hreader, ?_⟩
      rw [hworked.view_eq hmode]
  | began hid hmode hbegun => exact .inr (.inl rfl)
  | rolledBack hactive hev => cases hrole
  | committed hactive hev hcurrent => cases hrole
  | handedOff hactive hev hcurrent => exact .inr (.inr hcurrent.symm)
  | moved hmoves hreader hpinned => exact .inr (.inl rfl)

/-- Every event keeps the past, and adds what it makes current. -/
theorem Historic.step (h : Historic base past e) (he : e.Orderly)
    (htyped : ev.Typed e) :
    Historic base (past ++ ev.adds e) (ev.step e) := by
  have hlast := h.last_adds he.serial ev
  refine ⟨fun k s => h.numbered_adds he.serial ev, hlast,
    fun id t ht hrole => ?_⟩
  have hturn := he.serial.turn htyped id
  rw [ht] at hturn
  rcases hturn.shows (fun _ => he.settled id _) hrole with
    ⟨u, hu, hreader, heq⟩ | heq | heq
  · rw [heq]
    exact List.mem_append_left _ (h.readers id u hu hreader)
  · rw [heq]
    exact List.mem_append_left _ h.current_mem
  · rw [heq]
    exact List.mem_of_getLast? hlast

/-- Every run keeps the past, and adds what it makes current. -/
theorem Historic.through (h : Historic base past e) (he : e.Orderly)
    (htyped : TypedRun e events) :
    Historic base (past ++ madeCurrent e events) (e.through events) := by
  induction events generalizing e past with
  | nil =>
      rw [show madeCurrent e [] = [] from rfl, List.append_nil]
      exact h
  | cons ev evs ih =>
      have hnext := ih (h.step he htyped.1) (he.step htyped.1) htyped.2
      rw [List.append_assoc] at hnext
      exact hnext

/-- A history in two parts is the first and what the second makes current. -/
theorem history_append (e : Engine) (events after : List Event) :
    history e (events ++ after)
      = history e events ++ madeCurrent (e.through events) after := by
  unfold history
  rw [List.cons_append]
  congr 1
  induction events generalizing e with
  | nil => rfl
  | cons ev evs ih =>
      show ev.adds e ++ madeCurrent _ (evs ++ after) = _
      rw [ih (ev.step e), ← List.append_assoc]
      rfl

-- ==================================================== one reader's run

/-- A reader goes on as a reader, and only moves change it. -/
theorem Orderly.reading (he : e.Orderly) (htyped : TypedRun e events)
    (ht : e.transaction? id = some t) (hrole : t.role = .reader)
    (ht' : (e.through events).transaction? id = some t') :
    t'.role = .reader ∧ (moves id e events = 0 → t' = t) := by
  induction events generalizing e t with
  | nil =>
      obtain rfl := Option.some.inj (ht.symm.trans ht')
      exact ⟨hrole, fun _ => rfl⟩
  | cons ev evs ih =>
      obtain ⟨u, hu, hturn⟩ := he.serial.stays htyped ht ht'
      have hnext := he.step htyped.1
      rcases hturn.reading (he.settled id t ht) hrole with
        ⟨hstill, rfl⟩ | ⟨hmoves, -, rfl⟩
      · obtain ⟨hreads, hkept⟩ := ih hnext htyped.2 hu hrole ht'
        refine ⟨hreads, fun hnone => hkept ?_⟩
        exact (Nat.add_eq_zero_iff.1 hnone).2
      · obtain ⟨hreads, -⟩ := ih hnext htyped.2 hu hrole ht'
        refine ⟨hreads, fun hnone => ?_⟩
        have hzero := (Nat.add_eq_zero_iff.1 hnone).1
        rw [hmoves] at hzero
        cases hzero

/-- A reader only goes forward in the history. -/
theorem Historic.forward (h : Historic base past e) (he : e.Orderly)
    (htyped : TypedRun e events) (ht : e.transaction? id = some t)
    (hrole : t.role = .reader) {k : Nat}
    (hk : past[k]? = some t.view.snapshot)
    (ht' : (e.through events).transaction? id = some t') :
    ∃ k', k ≤ k'
      ∧ (past ++ madeCurrent e events)[k']? = some t'.view.snapshot := by
  induction events generalizing e past t k with
  | nil =>
      obtain rfl := Option.some.inj (ht.symm.trans ht')
      refine ⟨k, Nat.le_refl _, ?_⟩
      rw [show madeCurrent e [] = [] from rfl, List.append_nil]
      exact hk
  | cons ev evs ih =>
      obtain ⟨u, hu, hturn⟩ := he.serial.stays htyped ht ht'
      obtain ⟨hlt, -⟩ := List.getElem?_eq_some_iff.1 hk
      -- Where the reader is after the first event.
      have hafter : ∃ j, k ≤ j ∧ u.role = .reader
          ∧ (past ++ ev.adds e)[j]? = some u.view.snapshot := by
        rcases hturn.reading (he.settled id t ht) hrole with
          ⟨-, rfl⟩ | ⟨-, -, rfl⟩
        · refine ⟨k, Nat.le_refl _, hrole, ?_⟩
          rw [List.getElem?_append_left hlt]
          exact hk
        · have hlast := h.last
          rw [List.getLast?_eq_getElem?] at hlast
          refine ⟨past.length - 1, Nat.le_sub_one_of_lt hlt, hrole, ?_⟩
          rw [List.getElem?_append_left (by omega)]
          exact hlast
      obtain ⟨j, hj, hreads, hat⟩ := hafter
      obtain ⟨k', hk', hfound⟩ := ih (h.step he htyped.1)
        (he.step htyped.1) htyped.2 hu hreads hat ht'
      rw [List.append_assoc] at hfound
      exact ⟨k', Nat.le_trans hj hk', hfound⟩

/-- The number of a version, as long as numbers have not come round. -/
theorem Historic.toNat_version (h : Historic base past e) {k : Nat}
    {s : Snapshot} (hs : past[k]? = some s)
    (hfew : base.raw.toNat + past.length ≤ 2 ^ 64) :
    s.version.raw.toNat = base.raw.toNat + k := by
  obtain ⟨hk, -⟩ := List.getElem?_eq_some_iff.1 hs
  rw [h.numbered k s hs, UInt64.toNat_add, UInt64.toNat_ofNat']
  omega

/-- No two versions have one number, as long as there are no more of them
than numbers. -/
theorem Historic.sole (h : Historic base past e)
    (hfew : past.length ≤ 2 ^ 64) {s u : Snapshot} (hs : s ∈ past)
    (hu : u ∈ past) (heq : s.version = u.version) : s = u := by
  obtain ⟨j, hj⟩ := List.mem_iff_getElem?.1 hs
  obtain ⟨k, hk⟩ := List.mem_iff_getElem?.1 hu
  obtain ⟨hjlt, -⟩ := List.getElem?_eq_some_iff.1 hj
  obtain ⟨hklt, -⟩ := List.getElem?_eq_some_iff.1 hk
  have hraw : base.raw + UInt64.ofNat j = base.raw + UInt64.ofNat k := by
    rw [← h.numbered j s hj, ← h.numbered k u hk, heq]
  have hnat := congrArg UInt64.toNat ((UInt64.add_right_inj _).1 hraw)
  rw [UInt64.toNat_ofNat', UInt64.toNat_ofNat',
    Nat.mod_eq_of_lt (Nat.lt_of_lt_of_le hjlt hfew),
    Nat.mod_eq_of_lt (Nat.lt_of_lt_of_le hklt hfew)] at hnat
  rw [hnat, hk] at hj
  exact (Option.some.inj hj).symm

-- ========================================================= isolation

/-- What holds of a reader at any time. It is shown the snapshot of the
history that has the number it pins. Asking it to move on does nothing if it
is at what is current, and otherwise moves it there and nobody else. Nothing
that is done through its handles changes anything. -/
structure Isolated (past : List Snapshot) (e : Engine) (id : TransactionId)
    (t : Transaction) : Prop where
  shown : t.view.snapshot ∈ past
  numbered : t.view.snapshot.version = t.pinned
  sole : past.length ≤ 2 ^ 64 → ∀ s ∈ past, s.version = t.pinned →
    s = t.view.snapshot
  still_iff : (advance id).run e = .ok false e ↔ e.version = t.pinned
  moved : e.version ≠ t.pinned → ∃ e' t', (advance id).run e = .ok true e'
    ∧ e'.current = e.current ∧ e'.transaction? id = some t'
    ∧ t'.role = .reader ∧ t'.view.snapshot = e.current
    ∧ t'.pinned = e.version
    ∧ ∀ a, a ≠ id → e'.transaction? a = e.transaction? a
  handles : ∀ (h : Handle) {α : Type} (x : Edit Engine α),
    h.anchor.transaction = id → h.Reads x ∨ h.Writes x →
    Edit.Meets (fun _ => e.Untouched) e.Untouched (x.run e)

/-- A reader sees one snapshot of the past. -/
theorem Historic.isolated (h : Historic base past e) (he : e.Orderly)
    (ht : e.transaction? id = some t) (hrole : t.role = .reader) :
    Isolated past e id t := by
  have hsettled := he.settled id t ht
  have hnumbered := hsettled.pinned_eq hrole
  have hshown := h.readers id t ht hrole
  refine ⟨hshown, hnumbered.symm, fun hfew s hs hversion => ?_,
    ⟨fun hstill => ?_, run_advance_still ht⟩, fun hpinned => ?_,
    fun h' α x hid huse => ?_⟩
  · exact h.sole hfew hs hshown (hversion.trans hnumbered)
  · refine Decidable.byContradiction fun hpinned => ?_
    rw [run_advance_moved ht hpinned] at hstill
    cases hstill
  · refine ⟨_, e.moved t, run_advance_moved ht hpinned, rfl,
      transaction?_self e id (e.moved t), hrole, rfl, rfl, fun a ha => ?_⟩
    exact (transaction?_withTransaction a).trans (if_neg ha)
  · have hidle : h'.Idle e := by
      intro u hu
      rw [hid, ht] at hu
      cases hu
      rw [hsettled.mode_eq, hrole]
      exact nofun
    rcases huse with hx | hx
    · exact hx.isRead.spares e e (.refl e)
    · exact hx.isWrite.spares e hidle e (.refl e)

/-- At every point of every run each reader is isolated. From there on it
stays as it is for as long as it is not moved, whatever else happens, and
where it is moved to is never before where it was. -/
theorem reader_isolated (s : Snapshot) (log : Option HistoryLog)
    (limits : Limits) {before : List Event}
    (hbefore : TypedRun (starting s log limits) before)
    (ht : ((starting s log limits).through before).transaction? id = some t)
    (hrole : t.role = .reader) :
    let e₀ := starting s log limits
    let e := e₀.through before
    Isolated (history e₀ before) e id t
      ∧ ∀ after t', TypedRun e after →
        (e.through after).transaction? id = some t' →
        t'.role = .reader ∧ (moves id e after = 0 → t' = t)
          ∧ (∃ k k' : Nat, k ≤ k'
            ∧ (history e₀ (before ++ after))[k]? = some t.view.snapshot
            ∧ (history e₀ (before ++ after))[k']? = some t'.view.snapshot)
          ∧ (s.version.raw.toNat + (history e₀ (before ++ after)).length
              ≤ 2 ^ 64 → t.pinned.raw ≤ t'.pinned.raw) := by
  intro e₀ e
  have he₀ : e₀.Orderly := orderly_starting s log limits
  have he : e.Orderly := he₀.through hbefore
  have hpast : Historic s.version (history e₀ before) e :=
    (historic_starting s log limits).through he₀ hbefore
  refine ⟨hpast.isolated he ht hrole, fun after t' hafter ht' => ?_⟩
  obtain ⟨hreads, hkept⟩ := he.reading hafter ht hrole ht'
  obtain ⟨k, hk⟩ := List.mem_iff_getElem?.1 (hpast.readers id t ht hrole)
  obtain ⟨hlt, -⟩ := List.getElem?_eq_some_iff.1 hk
  obtain ⟨k', hle, hk'⟩ := hpast.forward he hafter ht hrole hk ht'
  -- both snapshots are in one history, where places are versions
  have hall : Historic s.version (history e₀ (before ++ after))
      (e.through after) := by
    rw [history_append]
    exact hpast.through he hafter
  rw [← history_append] at hk'
  have hk : (history e₀ (before ++ after))[k]? = some t.view.snapshot := by
    rw [history_append, List.getElem?_append_left hlt]
    exact hk
  refine ⟨hreads, hkept, ⟨k, k', hle, hk, hk'⟩, fun hfew => ?_⟩
  rw [(he.settled id t ht).pinned_eq hrole,
    ((he.through hafter).settled id t' ht').pinned_eq hreads,
    UInt64.le_iff_toNat_le, hall.toNat_version hk hfew,
    hall.toNat_version hk' hfew]
  omega

/-- A writer that went on to read the first version keeps it while another
commits the second, and then moves there. -/
theorem reader_isolated_twoCommits :
    let e₀ := inMemory {}
    let before := addsAndLooks ++ readsOn
    let e := e₀.through before
    ∃ t t', e.transaction? ⟨1⟩ = some t
      ∧ Isolated (history e₀ before) e ⟨1⟩ t
      ∧ (e.through [.call (.advance ⟨1⟩)]).transaction? ⟨1⟩ = some t'
      ∧ t.pinned.raw ≤ t'.pinned.raw
      ∧ t.pinned = ⟨1⟩ ∧ e.version = ⟨2⟩ ∧ t'.pinned = ⟨2⟩ := by
  intro e₀ before e
  have hbefore : TypedRun e₀ before :=
    ⟨trivial, trivial, trivial, trivial, trivial, trivial⟩
  have hseen : (e.transaction? ⟨1⟩).map (fun t => (t.role, t.pinned))
      = some (.reader, ⟨1⟩) := by decide +kernel
  have hmoved : ((e.through [.call (.advance ⟨1⟩)]).transaction? ⟨1⟩).map
      (·.pinned) = some ⟨2⟩ := by decide +kernel
  obtain ⟨t, ht, hrole⟩ := Option.map_eq_some_iff.1 hseen
  obtain ⟨t', ht', hpinned'⟩ := Option.map_eq_some_iff.1 hmoved
  obtain ⟨hrole, hpinned⟩ := Prod.mk.inj hrole
  have hafter : TypedRun e [.call (.advance ⟨1⟩)] := by
    refine ⟨fun u hu => ?_, trivial⟩
    obtain rfl := Option.some.inj (ht.symm.trans hu)
    exact hrole
  obtain ⟨hisolated, hlater⟩ :=
    reader_isolated .empty none _ hbefore ht hrole
  obtain ⟨-, -, -, hforward⟩ := hlater _ t' hafter ht'
  exact ⟨t, t', ht, hisolated, ht', hforward (by decide +kernel), hpinned,
    by decide +kernel, hpinned'⟩

end Colonnade.Engine
