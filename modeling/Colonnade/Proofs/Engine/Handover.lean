/-
Whether a version can be pinned after it was reclaimed. Where a view is
opened and where a reader moves on, the current version is pinned in the step
in which it is looked at, and what is current is in use. A commit that goes on
to read publishes, frees the writer slot, and pins only later. In between
another writer can begin, commit and be dropped, and then what the first has
published is neither current nor pinned: it is out of use, and is counted,
before the transaction that published it has pinned it (`Overtakes`).

Nothing else can go wrong. The pins are exactly those that are held, in
whatever order the steps are taken (`Orderly`), and as long as no commit was
overtaken, what was counted is out of use for good (`Clean`). So every point
of a run is `Sound` exactly if no commit is overtaken at any.

Chain: over `Engine.Courses`; nothing above uses this.
-/
import Colonnade.Proofs.Engine.Courses
import Mathlib.Algebra.BigOperators.Group.Finset.Basic
import Mathlib.Algebra.Order.BigOperators.Group.Finset
import Mathlib.Data.List.Infix

namespace Colonnade.Engine.Traffic

variable {c c' : Traffic} {id : TransactionId} {v w : Version}

-- ================================================= the books stay exact

/-- How many pins are held on a version. -/
def tally (c : Traffic) (v : Version) : Nat :=
  ∑ i ∈ Finset.range c.engine.nextId.raw, (c.heldFor ⟨i⟩).count v

/-- The pins are those that are held, and what was reclaimed was counted.
What a commit has published and is yet to pin is in use or was counted. -/
structure Orderly (c : Traffic) : Prop extends c.Tidy where
  published_mem : ∀ id next, published? (c.under id) = some next →
    next.version ∈ c.engine.liveVersions ∨ next.version ∈ c.counted
  current_eq : c.engine.pins.current = c.engine.version
  counts : c.engine.pins.Counts c.tally
  counted_length : c.counted.length = c.engine.stats.versionsReclaimed

/-- Counting over more ids than were handed out finds no more pins. -/
theorem Tidy.tally_eq (h : c.Tidy) {n : Nat}
    (hn : c.engine.nextId.raw ≤ n) (v : Version) :
    c.tally v = ∑ i ∈ Finset.range n, (c.heldFor ⟨i⟩).count v := by
  refine Finset.sum_subset (Finset.range_mono hn) fun i _ hi => ?_
  rw [h.heldFor_of_le (by simpa using hi)]
  rfl

/-- Without the one transaction, as many pins are held as before. -/
theorem Course.tally {p : Posting} (h : Course id p c c') (ht : c.Tidy)
    (v : Version) :
    c'.tally v + (c.heldFor id).count v
      = c.tally v + (c'.heldFor id).count v := by
  -- Both tallies are taken over as many ids as either needs, and differ at
  -- the one.
  let n := max c'.engine.nextId.raw (id.raw + 1)
  have hmem : id.raw ∈ Finset.range n := Finset.mem_range.2 (by omega)
  have hrest : ∑ i ∈ (Finset.range n).erase id.raw, (c'.heldFor ⟨i⟩).count v
      = ∑ i ∈ (Finset.range n).erase id.raw, (c.heldFor ⟨i⟩).count v := by
    refine Finset.sum_congr rfl fun i hi => ?_
    have hne : (⟨i⟩ : TransactionId) ≠ id := fun heq =>
      (Finset.mem_erase.1 hi).1 (congrArg TransactionId.raw heq)
    unfold heldFor
    rw [h.under_eq _ hne, h.face?_eq _ hne]
  have hle : c.engine.nextId.raw ≤ n :=
    Nat.le_trans h.nextId_le (Nat.le_max_left _ _)
  rw [ht.tally_eq hle, (h.tidy ht).tally_eq (Nat.le_max_left _ _),
    ← Finset.sum_erase_add _ _ hmem, ← Finset.sum_erase_add _ _ hmem, hrest]
  show _ + (c'.heldFor id).count v + _ = _ + (c.heldFor id).count v + _
  omega

/-- The pins follow what is held. -/
theorem Course.counts {p : Posting} (h : Course id p c c') (ho : c.Orderly) :
    c'.engine.pins.Counts c'.tally := by
  have htally := h.tally ho.toTidy
  have hpasses := h.passes
  have hone (u w : Version) : [u].count w = if u = w then 1 else 0 := by
    rw [List.count_singleton]
    simp only [beq_iff_eq]
  have hsame (hheld : c'.heldFor id = c.heldFor id) : c'.tally = c.tally := by
    refine funext fun w => ?_
    have hw := htally w
    rw [hheld] at hw
    omega
  rw [h.pins_eq]
  cases p with
  | none => exact hsame hpasses ▸ ho.counts
  | published => exact hsame hpasses ▸ ho.counts.setCurrent _
  | pinned u =>
      refine ho.counts.pin fun w => ?_
      have hw := htally w
      rw [show c'.heldFor id = [u] ++ c.heldFor id from hpasses,
        List.count_append, hone] at hw
      omega
  | unpinned u =>
      refine ho.counts.unpin fun w => ?_
      have hw := htally w
      rw [show c.heldFor id = c'.heldFor id ++ [u] from hpasses,
        List.count_append, hone] at hw
      omega
  | repinned u =>
      refine (ho.counts.pin fun _ => rfl).unpin fun w => ?_
      have hw := htally w
      rw [hpasses.1, hpasses.2, hone, hone] at hw
      exact hw

/-- What is current stays the version that the pins take for it. -/
theorem Course.current_eq {p : Posting} (h : Course id p c c')
    (ho : c.Orderly) : c'.engine.pins.current = c'.engine.version := by
  have hcurrent := ho.current_eq
  rw [h.pins_eq, h.version_eq]
  cases p with
  | none | pinned => exact hcurrent
  | unpinned | repinned => exact (Pins.unpin_current _ _).trans hcurrent
  | published => rfl

/-- What goes out of use is counted. -/
theorem Course.mem_live {p : Posting} (h : Course id p c c')
    (hv : v ∈ c.engine.liveVersions) :
    v ∈ c'.engine.liveVersions ∨ v ∈ c'.counted := by
  unfold liveVersions at hv ⊢
  rw [h.pins_eq, h.counted_eq, List.mem_append]
  cases p with
  | none => exact .inl hv
  | pinned u => exact .inl (Pins.mem_live_pin.2 (.inr hv))
  | unpinned u =>
      exact (Pins.mem_live_or_lapsed _ u hv).imp_right .inr
  | repinned u =>
      exact (Pins.mem_live_or_lapsed _ u
        (Pins.mem_live_pin.2 (.inr hv))).imp_right .inr
  | published => exact (Pins.mem_live_or_superseded _ _ hv).imp_right .inr

/-- A published version is live or has been counted. -/
theorem Course.published_mem {p : Posting} (h : Course id p c c')
    (ho : c.Orderly) (a : TransactionId) (next : Snapshot)
    (hpub : published? (c'.under a) = some next) :
    next.version ∈ c'.engine.liveVersions ∨ next.version ∈ c'.counted := by
  have hold (hpub : published? (c.under a) = some next) :
      next.version ∈ c'.engine.liveVersions ∨ next.version ∈ c'.counted := by
    rcases ho.published_mem a next hpub with hlive | hmem
    · exact h.mem_live hlive
    · rw [h.counted_eq]
      exact .inr (List.mem_append_left _ hmem)
  by_cases ha : a = id
  · subst ha
    rcases h.published?_eq next hpub with hpub | hversion
    · exact hold hpub
    · exact .inl (Pins.mem_live.2 (.inl
        (hversion.trans (h.current_eq ho).symm)))
  · exact hold (h.under_eq a ha ▸ hpub)

/-- Every course keeps things in order. -/
theorem Course.orderly {p : Posting} (h : Course id p c c') (ho : c.Orderly) :
    c'.Orderly where
  toTidy := h.tidy ho.toTidy
  published_mem := h.published_mem ho
  counts := h.counts ho
  current_eq := h.current_eq ho
  counted_length := by
    rw [h.counted_eq, h.reclaimed_eq, List.length_append, ho.counted_length]

/-- What is pinned for a transaction is in use. -/
theorem Orderly.mem_live (h : c.Orderly) (hv : v ∈ c.heldFor id) :
    v ∈ c.engine.liveVersions := by
  have hid : id.raw < c.engine.nextId.raw := by
    by_contra hnot
    rw [h.heldFor_of_le (by omega)] at hv
    exact absurd hv List.not_mem_nil
  have hle : (c.heldFor id).count v ≤ c.tally v :=
    Finset.single_le_sum (f := fun i => (c.heldFor ⟨i⟩).count v)
      (fun _ _ => Nat.zero_le _) (Finset.mem_range.2 hid)
  have hpos : 0 < c.tally v :=
    Nat.lt_of_lt_of_le (List.count_pos_iff.2 hv) hle
  exact Pins.mem_live.2 (.inr (h.counts.mem_iff.2 hpos))

/-- The current version is live. -/
theorem Orderly.version_live (h : c.Orderly) :
    c.engine.version ∈ c.engine.liveVersions :=
  Pins.mem_live.2 (.inl h.current_eq.symm)

-- ==================================================== what is gone is gone

/-- A step that pins only what is in use brings into use only what it
publishes, and what it reclaims was in use. -/
theorem Orderly.post_live (ho : c.Orderly) {p : Posting}
    (hpin : ∀ v, p = .pinned v → v ∈ c.engine.liveVersions) :
    (∀ w ∈ (p.post c.engine).1.live, w ∈ c.engine.liveVersions
        ∨ p.made = 1 ∧ w = c.engine.version.next)
      ∧ ∀ w ∈ (p.post c.engine).2, w ∈ c.engine.liveVersions := by
  have hcurrent := ho.version_live
  have hnil (w : Version) (hw : w ∈ []) : w ∈ c.engine.liveVersions :=
    absurd hw List.not_mem_nil
  cases p with
  | none => exact ⟨fun w hw => .inl hw, hnil⟩
  | pinned u =>
      exact ⟨fun w hw => .inl (Pins.mem_live_of_pin (hpin u rfl) hw), hnil⟩
  | unpinned u =>
      exact ⟨fun w hw => .inl (Pins.mem_live_of_unpin hw),
        fun w hw => Pins.mem_live_of_lapsed hw⟩
  | repinned u =>
      refine ⟨fun w hw => .inl ?_, fun w hw => ?_⟩
      · exact Pins.mem_live_of_pin hcurrent (Pins.mem_live_of_unpin hw)
      · exact Pins.mem_live_of_pin hcurrent (Pins.mem_live_of_lapsed hw)
  | published =>
      refine ⟨fun w hw => ?_, fun w hw => Pins.mem_live_of_superseded hw⟩
      exact (Pins.mem_live_of_setCurrent hw).elim
        (fun heq => .inr ⟨rfl, heq⟩) .inl

/-- Up to here everything was in order: the versions that were made are
numbered from the first, and those that were reclaimed are out of use and
were counted once. -/
structure Clean (base : Version) (n : Nat) (c : Traffic) : Prop where
  version_eq : c.engine.version.raw = base.raw + UInt64.ofNat n
  within : ∀ v, v ∈ c.engine.liveVersions ∨ v ∈ c.counted →
    ∃ k ≤ n, v.raw = base.raw + UInt64.ofNat k
  gone : c.engine.pins.Gone c.counted

/-- The next version is none that was counted, unless numbers have come
round. -/
theorem Clean.next_notMem {base : Version} {n : Nat} (h : c.Clean base n)
    (hfew : n + 1 < 2 ^ 64) : c.engine.version.next ∉ c.counted := by
  intro hmem
  obtain ⟨k, hk, hraw⟩ := h.within _ (.inr hmem)
  exact Version.next_ne_of_few h.version_eq hraw hk hfew rfl

/-- A course keeps the count clean, if what it pins is live. -/
theorem Course.clean {base : Version} {n : Nat} {p : Posting}
    (h : Course id p c c') (ho : c.Orderly) (hc : c.Clean base n)
    (hpin : ∀ v, p = .pinned v → v ∈ c.engine.liveVersions)
    (hfew : n + p.made < 2 ^ 64) : c'.Clean base (n + p.made) := by
  obtain ⟨hlive, hpost⟩ := ho.post_live hpin
  have hversion : c'.engine.version.raw
      = base.raw + UInt64.ofNat (n + p.made) := by
    rw [h.version_eq]
    cases p with
    | published =>
        show c.engine.version.raw + 1 = _
        rw [hc.version_eq, UInt64.ofNat_add, UInt64.add_assoc]
        rfl
    | none | pinned | unpinned | repinned => exact hc.version_eq
  have hold (w : Version) (hw : w ∈ c.engine.liveVersions ∨ w ∈ c.counted) :
      ∃ k ≤ n + p.made, w.raw = base.raw + UInt64.ofNat k := by
    obtain ⟨k, hk, hraw⟩ := hc.within w hw
    exact ⟨k, Nat.le_add_right_of_le hk, hraw⟩
  refine ⟨hversion, fun w hw => ?_, ?_⟩
  · unfold liveVersions at hw
    rw [h.pins_eq, h.counted_eq, List.mem_append] at hw
    rcases hw with hw | hw | hw
    -- what comes to be live is the version that is made now
    · rcases hlive w hw with hw | ⟨hmade, rfl⟩
      · exact hold w (.inl hw)
      · refine ⟨n + p.made, Nat.le_refl _, ?_⟩
        rw [← hversion, h.version_eq, if_pos hmade]
    · exact hold w (.inr hw)
    · exact hold w (.inl (hpost w hw))
  · rw [h.pins_eq, h.counted_eq]
    cases p with
    | none => exact (List.append_nil c.counted).symm ▸ hc.gone
    | pinned u =>
        exact (List.append_nil c.counted).symm ▸ hc.gone.pin (hpin u rfl)
    | unpinned u => exact hc.gone.unpin u
    | repinned u => exact (hc.gone.pin ho.version_live).unpin u
    | published => exact hc.gone.setCurrent (hc.next_notMem hfew)

-- ======================================================== along a run

/-- Whether a transaction reads a version: its view is open and shows it. One
that moves on has left what its view still shows. -/
def Reads (c : Traffic) (id : TransactionId) (v : Version) : Prop :=
  (∃ t, c.engine.transaction? id = some t ∧ t.view.mode ≠ .closed
      ∧ t.view.snapshot.version = v)
    ∧ ∀ next, c.under id ≠ some (.moved next)

/-- No version was counted twice, none is pinned that was counted, and what is
current and what somebody reads is in use. -/
structure Sound (c : Traffic) : Prop where
  counted_once : c.counted.Nodup
  not_pinned : ∀ v ∈ c.counted, c.engine.pins.isPinned v = false
  current_live : c.engine.version ∈ c.engine.liveVersions
  read_live : ∀ id v, c.Reads id v → v ∈ c.engine.liveVersions

/-- Whether a commit that goes on to read shows a version that it has yet to
pin, that is no longer current, and that nobody else has pinned. -/
def Overtakes (c : Traffic) (id : TransactionId) (v : Version) : Prop :=
  c.showing? id = some v ∧ v ≠ c.engine.version
    ∧ c.engine.pins.isPinned v = false

instance : Decidable (c.Overtakes id v) :=
  inferInstanceAs (Decidable (_ ∧ _ ∧ _))

/-- A call shows a version between replacing its view and pinning it. -/
theorem showing?_eq_some : c.showing? id = some v
    ↔ ∃ next, c.under id = some (.shown next) ∧ next.version = v := by
  unfold showing?
  constructor
  · intro h
    split at h
    next next hunder => exact ⟨next, hunder, Option.some.inj h⟩
    next => cases h
  · rintro ⟨next, hunder, rfl⟩
    rw [hunder]

/-- Live are the current version and what is pinned. -/
theorem Orderly.mem_live_iff (h : c.Orderly) :
    v ∈ c.engine.liveVersions
      ↔ v = c.engine.version ∨ c.engine.pins.isPinned v = true := by
  unfold liveVersions
  rw [Pins.mem_live, h.current_eq]
  exact or_congr_right Std.TreeMap.contains_iff_mem.symm

/-- A commit is overtaken if what it has yet to pin is out of use. -/
theorem Orderly.overtakes_iff (h : c.Orderly) :
    c.Overtakes id v
      ↔ c.showing? id = some v ∧ v ∉ c.engine.liveVersions := by
  unfold Overtakes
  rw [h.mem_live_iff, not_or, Bool.not_eq_true]

/-- Whatever a commit is overtaken at was counted. -/
theorem Orderly.counted_of_overtakes (h : c.Orderly)
    (hover : c.Overtakes id v) : v ∈ c.counted := by
  obtain ⟨hshowing, hnot⟩ := h.overtakes_iff.1 hover
  obtain ⟨next, hunder, rfl⟩ := showing?_eq_some.1 hshowing
  have hpub : published? (c.under id) = some next := by
    rw [hunder]
    rfl
  exact (h.published_mem id next hpub).resolve_left hnot

/-- Who has yet to pin a version reads it already. -/
theorem Orderly.reads_of_showing (h : c.Orderly)
    (hshowing : c.showing? id = some v) : c.Reads id v := by
  obtain ⟨next, hunder, rfl⟩ := showing?_eq_some.1 hshowing
  obtain ⟨t, ht, hopen, hshown⟩ := h.present hunder
  refine ⟨⟨t, ht, hopen, hshown⟩, fun next' hmoved => ?_⟩
  rw [hunder] at hmoved
  cases hmoved

/-- An open view shows what is pinned for its transaction, or what a commit
has yet to pin. -/
theorem Orderly.reads_cases (h : c.Orderly) (hreads : c.Reads id v) :
    v ∈ c.heldFor id ∨ c.showing? id = some v := by
  obtain ⟨⟨t, ht, hopen, rfl⟩, hmoved⟩ := hreads
  have hsuits := h.suits id
  rw [face?_of_some ht] at hsuits
  have hsteady (hsteady : t.face.Steady) :
      t.view.snapshot.version ∈ c.heldFor id := by
    rw [heldFor_of_some ht, show t.view.snapshot.version = t.pinned from
      hsteady hopen]
    exact List.mem_cons_self
  cases hunder : c.under id with
  | none =>
      rw [hunder] at hsuits
      exact .inl (hsteady hsuits)
  | some ph =>
      rw [hunder] at hsuits
      cases ph with
      | shown next =>
          exact .inr (showing?_eq_some.2 ⟨next, hunder, hsuits.2.symm⟩)
      | moved next => exact absurd hunder (hmoved next)
      | published | released | repinned | refused | closed | leaving =>
          exact .inl (hsteady hsuits)

/-- Where everything was in order up to here, and no commit is overtaken, all
is sound. -/
theorem Clean.sound {base : Version} {n : Nat} (hc : c.Clean base n)
    (ho : c.Orderly) (hnot : ∀ id v, ¬ c.Overtakes id v) : c.Sound where
  counted_once := hc.gone.nodup
  not_pinned v hv := by
    have hlive := hc.gone.notMem v hv
    rw [Pins.mem_live, not_or] at hlive
    exact Bool.eq_false_iff.2 fun hpinned =>
      hlive.2 (Std.TreeMap.contains_iff_mem.1 hpinned)
  current_live := ho.version_live
  read_live id v hreads := by
    rcases ho.reads_cases hreads with hheld | hshowing
    · exact ho.mem_live hheld
    · by_contra hgone
      exact hnot id v (ho.overtakes_iff.2 ⟨hshowing, hgone⟩)

/-- A starting engine is in order. -/
theorem orderly_starting (s : Snapshot) (log : Option HistoryLog)
    (limits : Limits) : (quiet (starting s log limits)).Orderly := by
  have hnone (id : TransactionId) :
      (quiet (starting s log limits)).engine.face? id = none :=
    congrArg (Option.map Transaction.face) Std.TreeMap.getElem?_emptyc
  have htally : (quiet (starting s log limits)).tally = fun _ => 0 := by
    refine funext fun v => Finset.sum_eq_zero fun i _ => ?_
    unfold heldFor
    rw [hnone]
    rfl
  exact {
    fresh := fun id hne => absurd (hnone id) hne
    suits := fun id => by
      rw [hnone]
      trivial
    published_mem := nofun
    current_eq := rfl
    counts := htally ▸ Pins.counts_empty s.version
    counted_length := rfl }

/-- A starting engine has counted nothing. -/
theorem clean_starting (s : Snapshot) (log : Option HistoryLog)
    (limits : Limits) :
    (quiet (starting s log limits)).Clean s.version 0 where
  version_eq := (UInt64.add_zero _).symm
  within v hv := by
    have hlive := hv.resolve_right List.not_mem_nil
    have heq := (Pins.mem_live.1 hlive).resolve_right
      Std.TreeMap.not_mem_emptyc
    exact ⟨0, Nat.le_refl _, heq ▸ (UInt64.add_zero _).symm⟩
  gone := ⟨List.nodup_nil, fun _ hv => absurd hv List.not_mem_nil⟩

/-- Every run keeps things in order. -/
theorem Orderly.run (h : c.Orderly) (moves : List Move) :
    (c.run moves).Orderly := by
  induction moves generalizing c with
  | nil => exact h
  | cons m ms ih =>
      obtain ⟨id, p, hcourse, -⟩ := h.toTidy.course m
      exact ih (hcourse.orderly h)

/-- A move keeps everything in order that a commit was not overtaken
before. -/
theorem Clean.move {base : Version} {n : Nat} (hc : c.Clean base n)
    (ho : c.Orderly) (hnot : ∀ id v, ¬ c.Overtakes id v) (m : Move)
    (hfew : n + m.commits.toNat < 2 ^ 64) :
    ∃ k ≤ n + m.commits.toNat, (c.move m).Clean base k := by
  obtain ⟨id, p, hcourse, hmade⟩ := ho.toTidy.course m
  refine ⟨n + p.made, by omega, hcourse.clean ho hc ?_ (by omega)⟩
  rintro v rfl
  rcases hcourse.allowed with rfl | ⟨a, hshowing⟩
  · exact ho.version_live
  · by_contra hgone
    exact hnot a v (ho.overtakes_iff.2 ⟨hshowing, hgone⟩)

/-- A run in which nothing is overtaken keeps the count clean. -/
theorem Clean.run {base : Version} {n : Nat} {moves : List Move}
    (hc : c.Clean base n) (ho : c.Orderly)
    (hnot : ∀ before, before <+: moves →
      ∀ id v, ¬ (c.run before).Overtakes id v)
    (hfew : n + moves.countP Move.commits < 2 ^ 64) :
    ∃ k, (c.run moves).Clean base k := by
  -- A prefix of the rest of the run is one of the run with its first move.
  induction moves generalizing c n with
  | nil => exact ⟨n, hc⟩
  | cons m ms ih =>
      have hcount : (m :: ms).countP Move.commits
          = ms.countP Move.commits + m.commits.toNat := by
        rw [List.countP_cons]
        cases m.commits <;> rfl
      have hfirst : ∀ id v, ¬ c.Overtakes id v := hnot [] List.nil_prefix
      obtain ⟨k, hk, hclean⟩ := hc.move ho hfirst m (by omega)
      refine ih hclean (ho.run [m]) (fun before hbefore => ?_) (by omega)
      exact hnot (m :: before) (List.cons_prefix_cons.2 ⟨rfl, hbefore⟩)

/-- Whatever the order in which the steps of any number of calls are taken, as
many versions were counted as the engine says, and what a commit is overtaken
at was counted. No version is counted twice, none is pinned that was counted,
and what is current or read is in use, at every point of the run, exactly if
no commit is overtaken at any. Fewer versions are published than there are
numbers. -/
theorem pinned_in_time_iff (s : Snapshot) (log : Option HistoryLog)
    (limits : Limits) (moves : List Move)
    (hfew : moves.countP Move.commits < 2 ^ 64) :
    let c₀ := quiet (starting s log limits)
    (∀ before, before <+: moves →
        (c₀.run before).counted.length
            = (c₀.run before).engine.stats.versionsReclaimed
          ∧ ∀ id v, (c₀.run before).Overtakes id v →
            v ∈ (c₀.run before).counted)
      ∧ ((∀ before, before <+: moves → (c₀.run before).Sound)
        ↔ ∀ before, before <+: moves →
          ∀ id v, ¬ (c₀.run before).Overtakes id v) := by
  intro c₀
  have ho₀ : c₀.Orderly := orderly_starting s log limits
  have hc₀ : c₀.Clean s.version 0 := clean_starting s log limits
  refine ⟨fun before _ => ?_, fun hsound before hbefore id v hover => ?_,
    fun hnot before hbefore => ?_⟩
  · have ho : (c₀.run before).Orderly := ho₀.run before
    exact ⟨ho.counted_length, fun id v => ho.counted_of_overtakes⟩
  · -- Who is overtaken reads what is out of use, so that point is not sound.
    have ho : (c₀.run before).Orderly := ho₀.run before
    obtain ⟨hshowing, hnot⟩ := ho.overtakes_iff.1 hover
    exact hnot ((hsound before hbefore).read_live id v
      (ho.reads_of_showing hshowing))
  · have hfew' : 0 + before.countP Move.commits < 2 ^ 64 := by
      have hle := hbefore.sublist.countP_le (p := Move.commits)
      omega
    obtain ⟨k, hclean⟩ := hc₀.run ho₀
      (fun first hfirst => hnot first (hfirst.trans hbefore)) hfew'
    exact hclean.sound (ho₀.run before) (hnot before hbefore)

/-- Nobody is overtaken if nobody is among the ids that were handed out. -/
theorem Tidy.not_overtakes (h : c.Tidy)
    (hall : ∀ i < c.engine.nextId.raw, (c.showing? ⟨i⟩).all fun v =>
      v = c.engine.version || c.engine.pins.isPinned v) :
    ∀ id v, ¬ c.Overtakes id v := by
  rintro id v ⟨hshowing, hne, hpinned⟩
  by_cases hid : id.raw < c.engine.nextId.raw
  · have hv := hall id.raw hid
    rw [show c.showing? ⟨id.raw⟩ = some v from hshowing, Option.all_some,
      hpinned, Bool.or_false] at hv
    exact hne (of_decide_eq_true hv)
  · unfold showing? at hshowing
    rw [(h.none_of_le (Nat.le_of_not_lt hid)).2] at hshowing
    cases hshowing

/-- While a reader is there, a writer commits and goes on to read. The next
writer begins before that is done, and commits after it. -/
def handingOver : List Move :=
  [.beginRead, .acquire, .enter, .commit ⟨2⟩ true, .proceed ⟨2⟩,
    .acquire, .enter, .proceed ⟨2⟩, .proceed ⟨2⟩, .proceed ⟨2⟩,
    .commit ⟨3⟩ false, .proceed ⟨3⟩, .proceed ⟨3⟩, .drop ⟨3⟩, .proceed ⟨3⟩,
    .advance ⟨1⟩, .proceed ⟨1⟩, .drop ⟨2⟩, .proceed ⟨2⟩]

/-- At no point of it is anything out of order, and in the end both versions
that were left were counted. -/
theorem pinned_in_time_iff_handingOver :
    let c₀ := quiet (inMemory {})
    handingOver.countP Move.commits < 2 ^ 64
      ∧ (∀ before, before <+: handingOver → (c₀.run before).Sound)
      ∧ (c₀.run handingOver).counted = [⟨0⟩, ⟨1⟩]
      ∧ (c₀.run handingOver).engine.stats.versionsReclaimed = 2 := by
  intro c₀
  have hfew : handingOver.countP Move.commits < 2 ^ 64 := by decide
  have hmain := pinned_in_time_iff .empty none ({} : Config).limits
    handingOver hfew
  have hlength (before : List Move) (hbefore : before <+: handingOver) :
      (c₀.run before).counted.length
        = (c₀.run before).engine.stats.versionsReclaimed :=
    (hmain.1 before hbefore).1
  have ho₀ : c₀.Orderly := orderly_starting .empty none ({} : Config).limits
  have hall : ∀ before ∈ handingOver.inits,
      ∀ i < (c₀.run before).engine.nextId.raw,
        ((c₀.run before).showing? ⟨i⟩).all fun v =>
          v = (c₀.run before).engine.version
            || (c₀.run before).engine.pins.isPinned v := by
    decide +kernel
  have hcounted : (c₀.run handingOver).counted = [⟨0⟩, ⟨1⟩] := by
    decide +kernel
  -- The points of this run are gone through one by one.
  refine ⟨hfew, hmain.2.2 fun before hbefore => ?_, hcounted, ?_⟩
  · exact (ho₀.run before).toTidy.not_overtakes
      (hall before ((List.mem_inits _ _).2 hbefore))
  · rw [← hlength handingOver (List.prefix_refl _), hcounted]
    rfl

/-- A writer commits and goes on to read, but before its view shows what it
published, another writer begins, commits and is dropped. In the end the
first is dropped too. -/
def overtaking : List Move :=
  [.acquire, .enter, .commit ⟨1⟩ true, .proceed ⟨1⟩,
    .acquire, .enter, .commit ⟨2⟩ false, .proceed ⟨2⟩, .proceed ⟨2⟩,
    .drop ⟨2⟩, .proceed ⟨2⟩,
    .proceed ⟨1⟩, .proceed ⟨1⟩, .proceed ⟨1⟩, .drop ⟨1⟩, .proceed ⟨1⟩]

/-- The version is counted as reclaimed before the transaction that has
committed it reads it; it is read while it is out of use; it is pinned after
that; and it is counted once more when the transaction is dropped. So of the
versions 0, 1 and 2, of which the last is current, three were counted. -/
theorem overtaken_version_counted_twice :
    let c₀ := quiet (inMemory {})
    let gap := c₀.run (overtaking.take 11)
    let shown := c₀.run (overtaking.take 12)
    let pinned := c₀.run (overtaking.take 13)
    let c := c₀.run overtaking
    ⟨1⟩ ∈ gap.counted
      ∧ (shown.Reads ⟨1⟩ ⟨1⟩ ∧ shown.engine.liveVersions = [⟨0⟩, ⟨2⟩])
      ∧ (⟨1⟩ ∈ pinned.counted ∧ pinned.engine.pins.isPinned ⟨1⟩ = true)
      ∧ (c.counted = [⟨1⟩, ⟨0⟩, ⟨1⟩] ∧ c.engine.stats.versionsReclaimed = 3
        ∧ c.engine.version = ⟨2⟩)
      ∧ ¬ ∀ before, before <+: overtaking → (c₀.run before).Sound := by
  intro c₀ gap shown pinned c
  have ho₀ : c₀.Orderly := orderly_starting .empty none ({} : Config).limits
  have hshowing : shown.showing? ⟨1⟩ = some ⟨1⟩ := by decide +kernel
  have hcounted : c.counted = [⟨1⟩, ⟨0⟩, ⟨1⟩] := by decide +kernel
  refine ⟨by decide +kernel, ⟨(ho₀.run _).reads_of_showing hshowing,
    by decide +kernel⟩, ⟨by decide +kernel, by decide +kernel⟩,
    ⟨hcounted, by decide +kernel, by decide +kernel⟩, fun hsound => ?_⟩
  have honce := (hsound overtaking (List.prefix_refl _)).counted_once
  rw [hcounted] at honce
  exact absurd honce (by decide)

end Colonnade.Engine.Traffic
