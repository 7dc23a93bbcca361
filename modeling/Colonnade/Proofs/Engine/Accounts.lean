/-
The accounts of versions. Each transaction holds one pin, from its beginning
until it is dropped, and the engine keeps the pins and a count of the
versions that were reclaimed. The accounts are exact: a version is pinned as
often as there are transactions at it (`Tallied`), so it is in use exactly if
it is current or a transaction is at it; and a version is counted as
reclaimed once, by the event that takes it out of use.

Reclaiming is counted in two places, where a pin is taken away and where the
current version changes, and which of them counts a version depends on the
order of commits and drops. The balance does not: with every entry in the
books, the versions reclaimed and those in use add up to what they were, and
to one more if a version is published (`Booked.balanced`).

A version that is published must not be in use already. It is not, as long as
fewer versions were made than there are numbers.

Chain: nothing above uses this; it is what a caller may read off
`liveVersions`, `oldestPinned?` and the counters.
-/
import Colonnade.Proofs.Engine.Booked
import Colonnade.Proofs.Engine.Closures
import Colonnade.Proofs.Engine.Ledger

namespace Colonnade.Engine

variable {e e' : Engine} {id : TransactionId} {t t' : Transaction}
  {v : Version} {ev : Event} {events : List Event} {base : Version}
  {n k : Nat}

-- ================================================ versions and their pins

/-- Each version is pinned as often as there are transactions at it. -/
structure Tallied (e : Engine) : Prop where
  current_eq : e.pins.current = e.version
  counts : e.pins.Counts e.tally

/-- A starting engine is tallied. -/
theorem tallied_starting (s : Snapshot) (log : Option HistoryLog)
    (limits : Limits) : (starting s log limits).Tallied :=
  ⟨rfl, Pins.counts_empty s.version⟩

/-- What is booked keeps an engine tallied. -/
theorem Booked.tallied (h : Booked e n e') (he : e.Tallied) :
    e'.Tallied := by
  cases h with
  | none h =>
      refine ⟨?_, ?_⟩
      · rw [h.pins_eq, h.version_eq]
        exact he.current_eq
      · rw [h.pins_eq, tally_congr h.held]
        exact he.counts
  | took hversion hposted hpassed =>
      refine ⟨?_, ?_⟩
      · rw [hposted.pins_eq, hversion]
        exact he.current_eq
      · rw [hposted.pins_eq]
        refine he.counts.pin fun v => ?_
        simpa using hpassed.tally v
  | gave hversion hposted hpassed =>
      refine ⟨?_, ?_⟩
      · rw [hposted.pins_eq, hversion, Pins.unpin_current]
        exact he.current_eq
      · rw [hposted.pins_eq]
        refine he.counts.unpin fun v => ?_
        simpa using hpassed.tally v
  | moved hversion hposted hpassed =>
      refine ⟨?_, ?_⟩
      · rw [hposted.pins_eq, hversion, Pins.unpin_current]
        exact he.current_eq
      · rw [hposted.pins_eq]
        refine (he.counts.pin fun _ => rfl).unpin fun v => ?_
        simpa using hpassed.tally v
  | published hversion hposted hheld =>
      refine ⟨?_, ?_⟩
      · rw [hposted.pins_eq, hversion]
        rfl
      · rw [hposted.pins_eq, tally_congr hheld]
        exact he.counts.setCurrent _

/-- Every event keeps an engine tallied. -/
theorem Tallied.step (h : e.Tallied) (he : e.Serial) (ev : Event) :
    (ev.step e).Tallied := by
  obtain ⟨m, hfirst, hsecond⟩ := he.booked ev
  exact hsecond.tallied (hfirst.tallied h)

/-- Every run keeps an engine tallied. -/
theorem Tallied.through (h : e.Tallied) (he : e.Serial) :
    (e.through events).Tallied := by
  induction events generalizing e with
  | nil => exact h
  | cons ev evs ih => exact ih (h.step he ev) ((he.step ev).serial he)

/-- Counted are the versions that a transaction pins. -/
theorem Tallied.mem_counts (h : e.Tallied) :
    v ∈ e.pins.counts
      ↔ ∃ id t, e.transaction? id = some t ∧ t.pinned = v :=
  h.counts.mem_iff.trans tally_pos

/-- Live are the current version and those that a transaction pins. -/
theorem Tallied.mem_live (h : e.Tallied) :
    v ∈ e.liveVersions ↔ v = e.version
      ∨ ∃ id t, e.transaction? id = some t ∧ t.pinned = v := by
  unfold liveVersions
  rw [Pins.mem_live, h.current_eq, h.mem_counts]

-- ============================================================ the balance

/-- The versions that were made are the one that a database was opened with
and one for each commit, and those that are not in use were reclaimed. -/
structure Balanced (base : Version) (n : Nat) (e : Engine) : Prop where
  version_eq : e.version.raw = base.raw + UInt64.ofNat n
  within : ∀ v ∈ e.liveVersions, ∃ k ≤ n, v.raw = base.raw + UInt64.ofNat k
  total : e.stats.versionsReclaimed + e.liveVersions.length = n + 1

theorem balanced_starting (s : Snapshot) (log : Option HistoryLog)
    (limits : Limits) :
    Balanced s.version 0 (starting s log limits) where
  version_eq := (UInt64.add_zero _).symm
  within v hv := by
    have hv := (Pins.mem_live.1 hv).resolve_right Std.TreeMap.not_mem_emptyc
    exact ⟨0, Nat.le_refl _, hv ▸ (UInt64.add_zero _).symm⟩
  total := by
    have hlive := Pins.live_length { current := s.version }
    rw [if_neg Std.TreeMap.not_mem_emptyc, Std.TreeMap.size_emptyc] at hlive
    exact (Nat.zero_add _).trans hlive

/-- The version moves on by as many as are booked. -/
theorem Booked.version_eq (h : Booked e n e') :
    e'.version.raw = e.version.raw + UInt64.ofNat n := by
  cases h with
  | none h => rw [h.version_eq]; exact (UInt64.add_zero _).symm
  | took hversion => rw [hversion]; exact (UInt64.add_zero _).symm
  | gave hversion => rw [hversion]; exact (UInt64.add_zero _).symm
  | moved hversion => rw [hversion]; exact (UInt64.add_zero _).symm
  | published hversion => rw [hversion]; rfl

/-- An entry brings nothing into use but what is current afterwards. -/
theorem Booked.mem_live (h : Booked e n e') (hv : v ∈ e'.liveVersions) :
    v = e'.version ∨ v ∈ e.liveVersions := by
  unfold liveVersions at hv ⊢
  cases h with
  | none h =>
      rw [h.pins_eq] at hv
      exact .inr hv
  | took hversion hposted =>
      rw [hposted.pins_eq] at hv
      rw [hversion]
      exact Pins.mem_live_pin.1 hv
  | gave hversion hposted =>
      rw [hposted.pins_eq] at hv
      exact .inr (Pins.mem_live_of_unpin hv)
  | moved hversion hposted =>
      rw [hposted.pins_eq] at hv
      rw [hversion]
      exact Pins.mem_live_pin.1 (Pins.mem_live_of_unpin hv)
  | published hversion hposted =>
      rw [hposted.pins_eq] at hv
      rw [hversion]
      exact Pins.mem_live_of_setCurrent hv

/-- The next version is not in use, unless numbers have come round. -/
theorem Balanced.next_notMem (h : Balanced base n e) (hfew : n + 1 < 2 ^ 64) :
    e.version.next ∉ e.liveVersions := by
  intro hmem
  obtain ⟨k, hk, hraw⟩ := h.within _ hmem
  exact Version.next_ne_of_few h.version_eq hraw hk hfew rfl

/-- An entry keeps the balance. -/
theorem Booked.balanced (h : Booked e k e') (ht : e.Tallied)
    (hb : Balanced base n e) (hfew : n + k < 2 ^ 64) :
    Balanced base (n + k) e' := by
  have hcurrent : e.version ∈ e.pins.live :=
    ht.mem_live.2 (.inl rfl)
  have hversion : e'.version.raw = base.raw + UInt64.ofNat (n + k) := by
    rw [h.version_eq, hb.version_eq, UInt64.add_assoc, UInt64.ofNat_add]
  refine ⟨hversion, fun v hv => ?_, ?_⟩
  · rcases h.mem_live hv with rfl | hv
    · exact ⟨n + k, Nat.le_refl _, hversion⟩
    · obtain ⟨j, hj, heq⟩ := hb.within v hv
      exact ⟨j, Nat.le_add_right_of_le hj, heq⟩
  · have htotal : e.stats.versionsReclaimed + e.pins.live.length = n + 1 :=
      hb.total
    show e'.stats.versionsReclaimed + e'.pins.live.length = _
    cases h with
    | none h =>
        rw [h.pins_eq, h.reclaimed_eq]
        exact htotal
    | took _ hposted =>
        rw [hposted.pins_eq, hposted.reclaimed_eq, Pins.pin_total hcurrent]
        exact htotal
    | @gave _ v _ _ hposted =>
        have hunpin := e.pins.unpin_total v
        rw [hposted.pins_eq, hposted.reclaimed_eq]
        omega
    | @moved _ v _ _ hposted =>
        have hpin := Pins.pin_total hcurrent
        have hunpin := (e.pins.pin e.version).unpin_total v
        rw [hposted.pins_eq, hposted.reclaimed_eq]
        omega
    | published _ hposted =>
        have hset := Pins.setCurrent_total (hb.next_notMem hfew)
        rw [hposted.pins_eq, hposted.reclaimed_eq]
        omega

/-- Every event keeps the balance, while there are versions. -/
theorem Balanced.step (hb : Balanced base n e) (ht : e.Tallied)
    (he : e.Serial) (ev : Event)
    (hfew : n + (ev.record? e).toList.length < 2 ^ 64) :
    Balanced base (n + (ev.record? e).toList.length) (ev.step e) := by
  obtain ⟨m, hfirst, hsecond⟩ := he.booked ev
  exact hsecond.balanced (hfirst.tallied ht) (hfirst.balanced ht hb hfew) hfew

/-- Every run keeps the balance, while there are versions. -/
theorem Balanced.through (hb : Balanced base n e) (ht : e.Tallied)
    (he : e.Serial) (hfew : n + (committed e events).length < 2 ^ 64) :
    Balanced base (n + (committed e events).length) (e.through events) := by
  induction events generalizing e n with
  | nil => exact hb
  | cons ev evs ih =>
      rw [committed, List.length_append, ← Nat.add_assoc] at hfew ⊢
      exact ih (hb.step ht he ev (by omega)) (ht.step he ev)
        ((he.step ev).serial he) hfew

-- =========================================== what goes, event by event

/-- What an event leaves in use was in use, or is current now. -/
theorem Serial.mem_live (h : e.Serial) (ev : Event)
    (hv : v ∈ (ev.step e).liveVersions) :
    v = (ev.step e).version ∨ v ∈ e.liveVersions := by
  obtain ⟨m, hfirst, hsecond⟩ := h.booked ev
  have hversion : (ev.step e).version.raw = m.version.raw := by
    rw [hsecond.version_eq]
    exact UInt64.add_zero _
  rcases hsecond.mem_live hv with hv | hv
  · exact .inl hv
  · exact (hfirst.mem_live hv).imp_left fun heq =>
      heq.trans (congrArg Version.mk hversion.symm)

/-- Before and after an event taken together, what was in use is in use, and
what is current after it. -/
theorem Tallied.live_union (ht : e.Tallied) (he : e.Serial) (ev : Event) :
    e.liveVersions.toFinset ∪ (ev.step e).liveVersions.toFinset
      = insert (ev.step e).version e.liveVersions.toFinset := by
  ext v
  rw [Finset.mem_union, Finset.mem_insert, List.mem_toFinset,
    List.mem_toFinset]
  have hcurrent := (ht.step he ev).mem_live (v := v)
  constructor
  · exact fun hv => hv.elim .inr (he.mem_live ev)
  · exact fun hv => hv.elim (fun heq => .inr (hcurrent.2 (.inl heq))) .inl

/-- No version is listed twice as live. -/
theorem card_live (e : Engine) :
    e.liveVersions.toFinset.card = e.liveVersions.length :=
  List.toFinset_card_of_nodup e.pins.live_nodup

/-- What is current after an event was not in use before if the event has
published it, and was otherwise. -/
theorem Balanced.card_insert (hb : Balanced base n e) (ht : e.Tallied)
    (hfew : n + 1 < 2 ^ 64) {ev : Event}
    (hnext : Balanced base (n + (ev.record? e).toList.length) (ev.step e)) :
    (insert (ev.step e).version e.liveVersions.toFinset).card
      = e.liveVersions.length + (ev.record? e).toList.length := by
  have hversion : (ev.step e).version.raw = e.version.raw
      + UInt64.ofNat (ev.record? e).toList.length := by
    rw [hnext.version_eq, hb.version_eq, UInt64.ofNat_add, UInt64.add_assoc]
  rw [← card_live e]
  cases hr : ev.record? e with
  | none =>
      rw [hr] at hversion
      have heq : (ev.step e).version = e.version :=
        congrArg Version.mk (hversion.trans (UInt64.add_zero _))
      have hmem : e.version ∈ e.liveVersions.toFinset :=
        List.mem_toFinset.2 (ht.mem_live.2 (.inl rfl))
      rw [heq, Finset.insert_eq_of_mem hmem]
      rfl
  | some r =>
      rw [hr] at hversion
      have heq : (ev.step e).version = e.version.next :=
        congrArg Version.mk hversion
      have hmem : e.version.next ∉ e.liveVersions.toFinset := fun hmem =>
        hb.next_notMem hfew (List.mem_toFinset.1 hmem)
      rw [heq, Finset.card_insert_of_notMem hmem]
      rfl

/-- An event counts as reclaimed exactly what it takes out of use. -/
theorem Balanced.reclaimed_step (hb : Balanced base n e) (ht : e.Tallied)
    (he : e.Serial) (ev : Event) (hfew : n + 1 < 2 ^ 64) :
    (ev.step e).stats.versionsReclaimed
      = e.stats.versionsReclaimed + (e.liveVersions.toFinset
          \ (ev.step e).liveVersions.toFinset).card := by
  have hone : (ev.record? e).toList.length ≤ 1 := Option.length_toList_le
  have hnext := hb.step ht he ev (by omega)
  have hsdiff := Finset.card_sdiff_add_card e.liveVersions.toFinset
    (ev.step e).liveVersions.toFinset
  rw [ht.live_union he ev, hb.card_insert ht hfew hnext, card_live] at hsdiff
  have htotal := hb.total
  have htotal' := hnext.total
  omega

-- ==================================================== the base of a writer

/-- Only moving on or going on to read changes what a transaction pins, and
both make it a reader. -/
theorem Turn.writing (h : Turn e ev id (some t) (some t'))
    (hrole : t'.role ≠ .reader) :
    t.role ≠ .reader ∧ t'.pinned = t.pinned := by
  have hwriter (hactive : t.role = .writer .active true) :
      t.role ≠ .reader := by
    rw [hactive]
    exact nofun
  cases h with
  | worked _ hworked =>
      exact ⟨hworked.role_eq ▸ hrole, hworked.pinned_eq⟩
  | rolledBack hactive => exact ⟨hwriter hactive, rfl⟩
  | committed hactive => exact ⟨hwriter hactive, rfl⟩
  | handedOff => exact (hrole rfl).elim
  | moved _ hreader => exact (hrole hreader).elim

/-- A writer pins what it began on for as long as it is there, also after it
has ended. -/
theorem Serial.writing (h : e.Serial) (htyped : TypedRun e events)
    (ht : e.transaction? id = some t)
    (ht' : (e.through events).transaction? id = some t')
    (hrole : t'.role ≠ .reader) :
    t.role ≠ .reader ∧ t'.pinned = t.pinned := by
  induction events generalizing e t with
  | nil =>
      obtain rfl := Option.some.inj (ht.symm.trans ht')
      exact ⟨hrole, rfl⟩
  | cons ev evs ih =>
      obtain ⟨u, hu, hturn⟩ := h.stays htyped ht ht'
      obtain ⟨hu', hpinned⟩ := ih ((h.step ev).serial h) htyped.2 hu ht'
      obtain ⟨hwriter, hpinned'⟩ := hturn.writing hu'
      exact ⟨hwriter, hpinned.trans hpinned'⟩

-- ======================================================= the whole of it

/-- What can be asked about versions is what the transactions there are
account for. -/
structure Accounted (e : Engine) : Prop where
  ascending : e.liveVersions.Pairwise fun v w => v.raw < w.raw
  mem_iff : ∀ v, v ∈ e.liveVersions
    ↔ v = e.version ∨ ∃ id t, e.transaction? id = some t ∧ t.pinned = v
  oldest_iff : ∀ v, e.oldestPinned? = some v
    ↔ (∃ id t, e.transaction? id = some t ∧ t.pinned = v)
      ∧ ∀ id t, e.transaction? id = some t → v.raw ≤ t.pinned.raw
  oldest_none_iff : e.oldestPinned? = none
    ↔ ∀ id, e.transaction? id = none

/-- A tallied engine accounts for its versions. -/
theorem Tallied.accounted (h : e.Tallied) : e.Accounted where
  ascending := e.pins.live_ascending
  mem_iff _ := h.mem_live
  oldest_iff v := by
    unfold oldestPinned?
    rw [Pins.oldest?_eq_some, h.mem_counts]
    refine and_congr_right fun _ => ⟨fun hleast id t ht => ?_, ?_⟩
    · exact hleast _ (h.mem_counts.2 ⟨id, t, ht, rfl⟩)
    · intro hleast w hw
      obtain ⟨id, t, ht, rfl⟩ := h.mem_counts.1 hw
      exact hleast id t ht
  oldest_none_iff := by
    unfold oldestPinned?
    rw [Pins.oldest?_eq_none]
    constructor
    · intro hnone id
      cases ht : e.transaction? id with
      | none => rfl
      | some t => exact (hnone _ (h.mem_counts.2 ⟨id, t, ht, rfl⟩)).elim
    · intro hnone v hv
      obtain ⟨id, t, ht, -⟩ := h.mem_counts.1 hv
      rw [hnone id] at ht
      cases ht

/-- At every point of every run the versions in use are the current one and
those of the transactions that were not dropped, in order, and the oldest
pinned one is the lowest that a transaction has; a writer that begins counts
with what is current then, also after it has ended. As long as fewer versions
were made than there are numbers, those that were reclaimed and those in use
add up to all that were made, and each event counts as reclaimed those that
it takes out of use and no others. Versions are numbered by words, and so is
their difference. -/
theorem versions_accounted (s : Snapshot) (log : Option HistoryLog)
    (limits : Limits) (events : List Event) :
    let e₀ := starting s log limits
    let e := e₀.through events
    e.Accounted
      ∧ (∀ after t, e.writerBusy = false →
        TypedRun e (.call .beginWrite :: after) →
        (e.through (.call .beginWrite :: after)).transaction? e.nextId
          = some t →
        t.role ≠ .reader → t.pinned = e.version)
      ∧ ((committed e₀ events).length < 2 ^ 64 →
        e.stats.versionsReclaimed + e.liveVersions.length
          = (e.version.raw - s.version.raw).toNat + 1)
      ∧ ((committed e₀ events).length + 1 < 2 ^ 64 → ∀ ev : Event,
        (ev.step e).stats.versionsReclaimed
          = e.stats.versionsReclaimed + (e.liveVersions.toFinset
            \ (ev.step e).liveVersions.toFinset).card) := by
  intro e₀ e
  have he₀ : e₀.Serial := serial_starting s log limits
  have ht₀ : e₀.Tallied := tallied_starting s log limits
  have he : e.Serial := he₀.through
  have ht : e.Tallied := ht₀.through he₀
  have hb (hfew : (committed e₀ events).length < 2 ^ 64) :
      Balanced s.version (committed e₀ events).length e := by
    rw [← Nat.zero_add (committed e₀ events).length] at hfew ⊢
    exact (balanced_starting s log limits).through ht₀ he₀ hfew
  refine ⟨ht.accounted, fun after t hfree htyped ht' hrole => ?_,
    fun hfew => ?_, fun hfew ev => ?_⟩
  · have hbegun : Event.step e (.call .beginWrite) = e.begun :=
      step_beginWrite_free hfree
    -- a writer begins on the current version, and while it is active that
    -- stays
    have hwriter : (Event.step e (.call .beginWrite)).transaction? e.nextId
        = some ⟨{ mode := .writing, snapshot := e.current }, e.version,
          .writer .active true⟩ := by
      rw [hbegun]
      exact transaction?_self _ e.nextId _
    exact (((he.step _).serial he).writing htyped.2 hwriter ht' hrole).2
  · have hversion : (e.version.raw - s.version.raw).toNat
        = (committed e₀ events).length := by
      rw [(hb hfew).version_eq, UInt64.add_comm, UInt64.add_sub_cancel,
        UInt64.toNat_ofNat', Nat.mod_eq_of_lt hfew]
    rw [hversion]
    exact (hb hfew).total
  · exact (hb (by omega)).reclaimed_step ht he ev hfew

/-- A writer begins and commits, and another commits and goes on to read,
while a reader is there that is dropped in the end. -/
def endsAndReads : List Event :=
  [.call .beginRead, .call .beginWrite, .call (.commit ⟨2⟩),
    .call .beginWrite, .call (.commitAndRead ⟨3⟩), .call (.drop ⟨1⟩)]

/-- The first version is still in use then, by the writer that has ended on
it, and the second is reclaimed; the first is reclaimed once that writer is
dropped. -/
theorem versions_accounted_endedWriter :
    let before : List Event := [.call .beginRead]
    let e := (inMemory {}).through endsAndReads
    let e' := Event.step e (.call (.drop ⟨2⟩))
    (∀ t, e.transaction? ⟨2⟩ = some t → t.role ≠ .reader →
        t.pinned = ((inMemory {}).through before).version)
      ∧ (e.transaction? ⟨2⟩).map (·.role) = some (.writer .committed false)
      ∧ e.liveVersions = [⟨0⟩, ⟨2⟩] ∧ e.oldestPinned? = some ⟨0⟩
      ∧ e.stats.versionsReclaimed + e.liveVersions.length
        = (e.version.raw - Snapshot.empty.version.raw).toNat + 1
      ∧ e.stats.versionsReclaimed = 1
      ∧ e'.stats.versionsReclaimed = e.stats.versionsReclaimed
        + (e.liveVersions.toFinset \ e'.liveVersions.toFinset).card
      ∧ e'.stats.versionsReclaimed = 2 := by
  intro before e e'
  have hfew : (committed (inMemory {}) endsAndReads).length + 1 < 2 ^ 64 := by
    decide +kernel
  have hfree : ((inMemory {}).through before).writerBusy = false := by
    decide +kernel
  have hid : ((inMemory {}).through before).nextId = ⟨2⟩ := by
    decide +kernel
  have htyped : TypedRun ((inMemory {}).through before)
      (.call .beginWrite :: endsAndReads.drop 2) :=
    ⟨trivial, trivial, trivial, trivial, trivial, trivial⟩
  have hsplit : e = ((inMemory {}).through before).through
      (.call .beginWrite :: endsAndReads.drop 2) :=
    through_append (inMemory {}) before _
  obtain ⟨-, hbase, -, -⟩ :=
    versions_accounted .empty none ({} : Config).limits before
  obtain ⟨-, -, htotal, hstep⟩ :=
    versions_accounted .empty none ({} : Config).limits endsAndReads
  have hpinned (t : Transaction) (ht : e.transaction? ⟨2⟩ = some t)
      (hrole : t.role ≠ .reader) :
      t.pinned = ((inMemory {}).through before).version := by
    rw [hsplit, ← hid] at ht
    exact hbase _ t hfree htyped ht hrole
  exact ⟨hpinned, by decide +kernel, by decide +kernel, by decide +kernel,
    htotal (Nat.lt_of_succ_lt hfew), by decide +kernel,
    hstep hfew (.call (.drop ⟨2⟩)), by decide +kernel⟩

end Colonnade.Engine
