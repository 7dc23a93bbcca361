/-
The locks of a host and its engines. A host is `Orderly` if a file is locked
exactly while there is an engine that claims it, if no two engines claim the
same file, and if what an engine claims or writes to is there. What changes
neither which engines there are nor what they claim keeps a host orderly;
that leaves two steps that are looked at by themselves, adding an engine with
a lock of its own and taking one away with its lock.

In an orderly host it can be told what opening comes to (`Decided`): it fails
for the lock exactly if there is an engine on the directory that the path
leads to, and otherwise there is none.

Chain: on `Host.Claims` for the ways in which opening ends; `Host.Held` says
for which engines there is somebody who holds them.
-/
import Colonnade.Proofs.Host.Claims
import Colonnade.Proofs.OrderedMap

namespace Colonnade.Host

variable {h h' : Host} {v : Volume} {n : Nat} {o : OpenEngine}
  {path : String} {lock : Place}

-- ========================================================== the engines

/-- What the engine with a number claims. -/
def claimOf? (h : Host) (n : Nat) : Option Claim :=
  h.engines[n]?.bind (·.claim)

/-- Where the engine with a number keeps its history. -/
def mediumOf? (h : Host) (n : Nat) : Option Medium :=
  h.engines[n]?.map (·.medium)

theorem claimOf?_of_some (ho : h.engines[n]? = some o) :
    h.claimOf? n = o.claim := by
  unfold claimOf?
  rw [ho]
  rfl

theorem mediumOf?_of_some (ho : h.engines[n]? = some o) :
    h.mediumOf? n = some o.medium := by
  unfold mediumOf?
  rw [ho]
  rfl

/-- A claim is that of an engine that is there. -/
theorem mem_of_claimOf? {c : Claim} (hc : h.claimOf? n = some c) :
    n ∈ h.engines := by
  obtain ⟨o, ho, -⟩ := Option.bind_eq_some_iff.1 hc
  exact Std.TreeMap.mem_iff_isSome_getElem?.2 (Option.isSome_of_eq_some ho)

theorem exists_of_mem (hn : n ∈ h.engines) :
    ∃ o, h.engines[n]? = some o :=
  Option.isSome_iff_exists.1 (Std.TreeMap.mem_iff_isSome_getElem?.1 hn)

/-- Whether a path leads to the directory that an engine was opened on. -/
def On (h : Host) (n : Nat) (path : String) : Prop :=
  ∃ c lock, h.claimOf? n = some c ∧ Leads h.volume c.path lock
    ∧ Leads h.volume path lock

/-- Whether the files that are locked are those that engines claim, each one
its own. -/
structure Orderly (h : Host) : Prop where
  numbered : ∀ n, n ∈ h.engines → n < h.nextNumber
  lockable : ∀ n c, h.claimOf? n = some c → Lockable h.volume c.path c.lock
  filed : ∀ n place, h.mediumOf? n = some (.file place) →
    ∃ bytes, h.volume.entryAt? place = some (.file bytes)
  locked : ∀ p, p ∈ h.volume.locks ↔ ∃ n c, h.claimOf? n = some c ∧ c.lock = p
  sole : ∀ m n c c', h.claimOf? m = some c → h.claimOf? n = some c' →
    c.lock = c'.lock → m = n

/-- There is no engine under the next number. -/
theorem Orderly.none_fresh (horder : h.Orderly) :
    h.engines[h.nextNumber]? = none := by
  cases ho : h.engines[h.nextNumber]? with
  | none => rfl
  | some o =>
      have hmem : h.nextNumber ∈ h.engines :=
        Std.TreeMap.mem_iff_isSome_getElem?.2 (Option.isSome_of_eq_some ho)
      exact absurd (horder.numbered _ hmem) (Nat.lt_irrefl _)

/-- An engine is on the directory that it was opened on. -/
theorem Orderly.on (horder : h.Orderly) {c : Claim}
    (hc : h.claimOf? n = some c) : h.On n c.path :=
  ⟨c, c.lock, hc, (horder.lockable n c hc).1, (horder.lockable n c hc).1⟩

-- ===================================================== the same engines

/-- Engines that claim and keep what they did, on a volume that has grown. -/
theorem Orderly.of_same (horder : h.Orderly)
    (hgrown : h.volume.Grown h'.volume)
    (hnumber : h'.nextNumber = h.nextNumber)
    (hmem : ∀ n, n ∈ h'.engines ↔ n ∈ h.engines)
    (hclaim : ∀ n, h'.claimOf? n = h.claimOf? n)
    (hmedium : ∀ n, h'.mediumOf? n = h.mediumOf? n) : h'.Orderly where
  numbered n hn := hnumber ▸ horder.numbered n ((hmem n).1 hn)
  lockable n c hc :=
    (horder.lockable n c (hclaim n ▸ hc)).within hgrown.within
  filed n place hplace := by
    obtain ⟨bytes, hentry⟩ := horder.filed n place (hmedium n ▸ hplace)
    exact hgrown.within.file hentry
  locked p := by
    rw [hgrown.locks_eq, horder.locked p]
    simp only [hclaim]
  sole m n c c' hc hc' := horder.sole m n c c' (hclaim m ▸ hc) (hclaim n ▸ hc')

/-- A host stays orderly when its volume grows. -/
theorem Orderly.grown (horder : h.Orderly) (hgrown : h.volume.Grown v) :
    Orderly { h with volume := v } := by
  let after : Host := { h with volume := v }
  have hafter : after.Orderly := horder.of_same hgrown rfl
    (fun _ => .rfl) (fun _ => rfl) fun _ => rfl
  exact hafter

/-- An engine in the place of one with the same claim and medium. -/
theorem Orderly.replaced (horder : h.Orderly) (ho : h.engines[n]? = some o)
    {o' : OpenEngine} (hgrown : h.volume.Grown h'.volume)
    (hnumber : h'.nextNumber = h.nextNumber)
    (hengines : h'.engines = h.engines.insert n o')
    (hclaim : o'.claim = o.claim) (hmedium : o'.medium = o.medium) :
    h'.Orderly := by
  have hfind (m : Nat) :
      h'.engines[m]? = if m = n then some o' else h.engines[m]? := by
    rw [hengines]
    exact OrderedMap.getElem?_insert h.engines n m o'
  have hn : n ∈ h.engines :=
    Std.TreeMap.mem_iff_isSome_getElem?.2 (Option.isSome_of_eq_some ho)
  refine horder.of_same hgrown hnumber (fun m => ?_) (fun m => ?_) fun m => ?_
  · rw [hengines, OrderedMap.mem_insert]
    exact or_iff_right_of_imp fun heq => heq ▸ hn
  · unfold claimOf?
    rw [hfind]
    split
    next heq =>
      rw [heq, ho]
      exact hclaim
    next => rfl
  · unfold mediumOf?
    rw [hfind]
    split
    next heq =>
      rw [heq, ho]
      exact congrArg some hmedium
    next => rfl

-- ================================================== one more, one fewer

/-- A new engine is found under the next number. -/
theorem engines_withEngine (h : Host) (v : Volume) (o : OpenEngine)
    (m : Nat) :
    (h.withEngine v o).engines[m]?
      = if m = h.nextNumber then some o else h.engines[m]? :=
  OrderedMap.getElem?_insert h.engines h.nextNumber m o

/-- The claim of a new engine is its own. -/
theorem claimOf?_withEngine (h : Host) (v : Volume) (o : OpenEngine)
    (m : Nat) :
    (h.withEngine v o).claimOf? m
      = if m = h.nextNumber then o.claim else h.claimOf? m := by
  unfold claimOf?
  rw [engines_withEngine]
  split <;> rfl

/-- An engine that was there before claims what it did. -/
theorem Orderly.claimOf?_kept (horder : h.Orderly) {c : Claim}
    (hc : h.claimOf? n = some c) :
    (h.withEngine v o).claimOf? n = h.claimOf? n := by
  have hne : n ≠ h.nextNumber :=
    Nat.ne_of_lt (horder.numbered n (mem_of_claimOf? hc))
  rw [claimOf?_withEngine, if_neg hne]

/-- An engine is added with a lock that was free. -/
theorem Orderly.opened (horder : h.Orderly) (hwithin : h.volume.Within v)
    (hlocks : v.locks = lock :: h.volume.locks)
    (hlockable : Lockable v path lock) (hfree : lock ∉ h.volume.locks)
    (hfresh : Fresh v ⟨path, lock⟩ o) : (h.withEngine v o).Orderly := by
  -- a claim is the new one, or it was there before
  have hclaim {m : Nat} {c : Claim}
      (hc : (h.withEngine v o).claimOf? m = some c) :
      m = h.nextNumber ∧ c = ⟨path, lock⟩ ∨ h.claimOf? m = some c := by
    rw [claimOf?_withEngine] at hc
    split at hc
    next heq =>
      exact .inl ⟨heq, Option.some.inj (hc.symm.trans hfresh.claim_eq)⟩
    next => exact .inr hc
  have hlocked {m : Nat} {c : Claim} (hc : h.claimOf? m = some c) :
      c.lock ∈ h.volume.locks := (horder.locked c.lock).2 ⟨m, c, hc, rfl⟩
  refine ⟨fun m hm => ?_, fun m c hc => ?_, fun m place hplace => ?_,
    fun p => ?_, fun m m' c c' hc hc' heq => ?_⟩
  · show m < h.nextNumber + 1
    rcases OrderedMap.mem_insert.1 hm with rfl | hm
    · exact Nat.lt_succ_self _
    · exact Nat.lt_succ_of_lt (horder.numbered m hm)
  · rcases hclaim hc with ⟨-, rfl⟩ | hc
    · exact hlockable
    · exact (horder.lockable m c hc).within hwithin
  · unfold mediumOf? at hplace
    rw [engines_withEngine] at hplace
    split at hplace
    next =>
      obtain ⟨file, bytes, hmedium, hentry⟩ := hfresh.medium
      cases hmedium.symm.trans (Option.some.inj hplace)
      exact ⟨bytes, hentry⟩
    next =>
      obtain ⟨bytes, hentry⟩ := horder.filed m place hplace
      exact hwithin.file hentry
  · show p ∈ v.locks ↔ _
    rw [hlocks, List.mem_cons]
    constructor
    · rintro (rfl | hp)
      · refine ⟨h.nextNumber, ⟨path, p⟩, ?_, rfl⟩
        rw [claimOf?_withEngine, if_pos rfl]
        exact hfresh.claim_eq
      · obtain ⟨m, c, hc, rfl⟩ := (horder.locked p).1 hp
        exact ⟨m, c, (horder.claimOf?_kept hc).trans hc, rfl⟩
    · rintro ⟨m, c, hc, rfl⟩
      rcases hclaim hc with ⟨-, rfl⟩ | hc
      · exact .inl rfl
      · exact .inr (hlocked hc)
  · rcases hclaim hc with ⟨rfl, rfl⟩ | hc <;>
      rcases hclaim hc' with ⟨rfl, rfl⟩ | hc'
    · rfl
    · have heq : lock = c'.lock := heq
      exact (hfree (heq ▸ hlocked hc')).elim
    · have heq : c.lock = lock := heq
      exact (hfree (heq ▸ hlocked hc)).elim
    · exact horder.sole m m' c c' hc hc' heq

/-- The volume with what an engine claims unlocked. -/
def unclaimed (h : Host) (o : OpenEngine) : Volume :=
  match o.claim with
  | some claim => h.volume.unlock claim.lock
  | none => h.volume

/-- Without an engine the locks are those of the others. -/
theorem mem_unclaimed {p : Place} :
    p ∈ (h.unclaimed o).locks
      ↔ p ∈ h.volume.locks ∧ ∀ c, o.claim = some c → c.lock ≠ p := by
  unfold unclaimed
  cases o.claim with
  | none => exact (and_iff_left nofun).symm
  | some claim =>
      show p ∈ h.volume.locks.filter _ ↔ _
      rw [List.mem_filter, bne_iff_ne]
      refine and_congr_right fun _ => ?_
      exact ⟨fun hne c hc => Option.some.inj hc ▸ hne.symm, fun hall =>
        (hall claim rfl).symm⟩

/-- Giving up a claim leaves what is on the volume. -/
theorem within_unclaimed (h : Host) (o : OpenEngine) :
    h.volume.Within (h.unclaimed o) := by
  unfold unclaimed
  cases o.claim with
  | none => exact .refl _
  | some claim => exact (Volume.Within.refl h.volume).locks _

/-- An engine is taken away with its lock. -/
theorem Orderly.erased (horder : h.Orderly) (ho : h.engines[n]? = some o) :
    Orderly { h with
      volume := h.unclaimed o, engines := h.engines.erase n } := by
  let after : Host :=
    { h with volume := h.unclaimed o, engines := h.engines.erase n }
  have hfind (m : Nat) :
      after.engines[m]? = if m = n then none else h.engines[m]? :=
    OrderedMap.getElem?_erase h.engines n m
  have hclaim {m : Nat} {c : Claim} :
      after.claimOf? m = some c ↔ m ≠ n ∧ h.claimOf? m = some c := by
    unfold claimOf?
    rw [hfind]
    split
    next heq => exact ⟨nofun, fun hc => (hc.1 heq).elim⟩
    next hne => exact (and_iff_right hne).symm
  have hwithin := within_unclaimed h o
  refine ⟨fun m hm => ?_, fun m c hc => ?_, fun m place hplace => ?_,
    fun p => ?_, fun m m' c c' hc hc' => ?_⟩
  · exact horder.numbered m (OrderedMap.mem_erase.1 hm).2
  · exact (horder.lockable m c (hclaim.1 hc).2).within hwithin
  · have hplace : (after.engines[m]?.map (·.medium)) = some (.file place) :=
      hplace
    rw [hfind] at hplace
    split at hplace
    next => cases hplace
    next =>
      obtain ⟨bytes, hentry⟩ := horder.filed m place hplace
      exact hwithin.file hentry
  · show p ∈ (h.unclaimed o).locks ↔ _
    rw [mem_unclaimed, horder.locked]
    constructor
    · rintro ⟨⟨m, c, hc, rfl⟩, hothers⟩
      refine ⟨m, c, hclaim.2 ⟨?_, hc⟩, rfl⟩
      rintro rfl
      exact hothers c ((claimOf?_of_some ho).symm.trans hc) rfl
    · rintro ⟨m, c, hc, rfl⟩
      obtain ⟨hne, hc⟩ := hclaim.1 hc
      -- no two engines claim one lock
      refine ⟨⟨m, c, hc, rfl⟩, fun c' hc' heq => hne ?_⟩
      exact horder.sole m n c c' hc ((claimOf?_of_some ho).trans hc') heq.symm
  · exact horder.sole m m' c c' (hclaim.1 hc).2 (hclaim.1 hc').2

-- ================================================ what opening comes to

/-- The host that an attempt to open a directory leaves. -/
def left : EStateM.Result Error Host Nat → Host
  | .ok _ h | .error _ h => h

/-- An engine stays on its directory as the volume grows. -/
theorem On.within (hon : h.On n path) (hwithin : h.volume.Within h'.volume)
    (hclaim : ∀ c, h.claimOf? n = some c → h'.claimOf? n = some c) :
    h'.On n path := by
  obtain ⟨c, lock, hc, hleads, hpath⟩ := hon
  exact ⟨c, lock, hclaim c hc, hleads.within hwithin, hpath.within hwithin⟩

/-- Opening leaves engines on the directories that they were on. -/
theorem Orderly.on_left (horder : h.Orderly) (hon : h.On n path)
    (opened : String) (config : Config) :
    (left ((openDirectory opened config).run h)).On n path := by
  have hopened := openDirectory_opened h opened config
  generalize (openDirectory opened config).run h = result at hopened
  cases hopened with
  | opened hwithin _ _ _ _ =>
      exact hon.within hwithin fun c hc => (horder.claimOf?_kept hc).trans hc
  | locked hgrown _ _ => exact hon.within hgrown.within fun _ hc => hc
  | refused hgrown _ _ => exact hon.within hgrown.within fun _ hc => hc

/-- What opening comes to with regard to the engines that there are. If it
fails it leaves them and the locks alone; it fails for the lock exactly if
one of them is on the directory; and if it succeeds none of them is. -/
def Decided (h : Host) (path : String) :
    EStateM.Result Error Host Nat → Prop
  | .ok n h' => n ∉ h.engines ∧ h'.On n path
    ∧ ∀ m, m ∈ h.engines → ¬ h'.On m path
  | .error err h' =>
    h'.engines = h.engines ∧ h'.volume.locks = h.volume.locks
      ∧ (∀ p, err = .locked p → p = path)
      ∧ (err = .locked path ↔ ∃ n, h'.On n path)

/-- A lock that some engine holds is on a file, so a path that leads to it
could be locked. -/
theorem Orderly.lockable_of_leads (horder : h.Orderly)
    (hgrown : h.volume.Grown v) {c : Claim} (hc : h.claimOf? n = some c)
    (hleads : Leads v c.path lock) (hpath : Leads v path lock) :
    Lockable v path lock ∧ lock ∈ h.volume.locks := by
  have hclaimed := (horder.lockable n c hc).within hgrown.within
  obtain rfl := hclaimed.1.unique hleads
  exact ⟨⟨hpath, hclaimed.2⟩, (horder.locked c.lock).2 ⟨n, c, hc, rfl⟩⟩

/-- Opening a directory comes out by whether it leads somewhere and is locked.
-/
theorem Orderly.decided (horder : h.Orderly) (path : String)
    (config : Config) :
    Decided h path ((openDirectory path config).run h) := by
  have hopened := openDirectory_opened h path config
  generalize (openDirectory path config).run h = result at hopened
  cases hopened with
  | @opened v o lock hwithin hlocks hlockable hfree hfresh =>
      have hafter := horder.opened hwithin hlocks hlockable hfree hfresh
      refine ⟨fun hmem => ?_, ?_, fun m hm hon => ?_⟩
      · exact absurd (horder.numbered _ hmem) (Nat.lt_irrefl _)
      · refine hafter.on (c := ⟨path, lock⟩) ?_
        rw [claimOf?_withEngine, if_pos rfl]
        exact hfresh.claim_eq
      · obtain ⟨c, lock', hc, hleads, hpath⟩ := hon
        rw [claimOf?_withEngine,
          if_neg (Nat.ne_of_lt (horder.numbered m hm))] at hc
        have hclaimed := (horder.lockable m c hc).within hwithin
        obtain rfl := hclaimed.1.unique hleads
        obtain rfl := hpath.unique hlockable.1
        exact hfree ((horder.locked c.lock).2 ⟨m, c, hc, rfl⟩)
  | @locked v lock hgrown hlockable hlocked =>
      obtain ⟨n, c, hc, rfl⟩ := (horder.locked lock).1 hlocked
      have hclaimed := (horder.lockable n c hc).within hgrown.within
      refine ⟨rfl, hgrown.locks_eq, fun p heq => ?_, iff_of_true rfl ?_⟩
      · cases heq
        rfl
      · exact ⟨n, c, c.lock, hc, hclaimed.1, hlockable.1⟩
  | @refused v err hgrown herr hfree =>
      refine ⟨rfl, hgrown.locks_eq, fun p heq => (herr p heq).elim,
        iff_of_false (herr path) ?_⟩
      rintro ⟨n, c, lock, hc, hleads, hpath⟩
      obtain ⟨hlockable, hlocked⟩ :=
        horder.lockable_of_leads hgrown hc hleads hpath
      exact hfree lock hlocked hlockable

/-- Where the path leads to a directory and no engine is on it, opening does
not fail for the lock. -/
theorem Orderly.run_openDirectory_ne_locked (horder : h.Orderly)
    (hpath : h.volume.isDirectory path) (hfree : ∀ n, ¬ h.On n path)
    (config : Config) (p : String) (h' : Host) :
    (openDirectory path config).run h ≠ .error (.locked p) h' := by
  have hopened := openDirectory_opened h path config
  intro hrun
  rw [hrun] at hopened
  cases hopened with
  | @locked v lock hgrown hlockable hlocked =>
      obtain ⟨n, c, hc, rfl⟩ := (horder.locked lock).1 hlocked
      have hplace := hgrown.within.placeOf_join hpath
        (by decide) hlockable.1.place
      exact hfree n ⟨c, c.lock, hc, (horder.lockable n c hc).1, hpath, hplace⟩
  | refused _ herr _ => exact herr p rfl

/-- Opening fails for the lock while an engine is on the directory. -/
theorem Orderly.run_openDirectory_on (horder : h.Orderly)
    (hon : h.On n path) (config : Config) :
    ∃ h', (openDirectory path config).run h = .error (.locked path) h' := by
  have hdecided := horder.decided path config
  have hstays := horder.on_left hon path config
  obtain ⟨c, -, hc, -, -⟩ := hon
  cases hrun : (openDirectory path config).run h with
  | ok m h' =>
      rw [hrun] at hdecided hstays
      exact (hdecided.2.2 n (mem_of_claimOf? hc) hstays).elim
  | error err h' =>
      rw [hrun] at hdecided hstays
      obtain ⟨-, -, -, hlocked⟩ := hdecided
      exact ⟨h', by rw [hlocked.2 ⟨n, hstays⟩]⟩

/-- A directory that a database was left in opens if no engine is on it. -/
theorem Orderly.run_openDirectory_ready (horder : h.Orderly)
    {config : Config} (hready : Ready h.volume path config)
    (hfree : ∀ n, ¬ h.On n path) :
    ∃ n h', (openDirectory path config).run h = .ok n h' := by
  refine openDirectory_ready hready fun lock hleads hlocked => ?_
  obtain ⟨n, c, hc, rfl⟩ := (horder.locked lock).1 hlocked
  exact hfree n ⟨c, c.lock, hc, (horder.lockable n c hc).1, hleads⟩

end Colonnade.Host
