/-
Opening the database in a directory, up to what comes of its lock. A path
leads to a database directory and to the file in it by which the directory is
locked (`Leads`). Opening ends in one of three ways: the file is not locked
and is locked from then on; it is locked already, and that is what opening
fails with; or opening fails with something else, and then the locks are what
they were.

When it fails with something else before it comes to the file, the path leads
to no directory even then, or to nothing that could be locked: of what could
have been made on the way, nothing was left out. So whether opening fails for
the lock can be told from where the path leads afterwards.

Chain: on `Host.Volume` for what comes of files and directories;
`Host.Locks` keeps the locks of a host together with its engines.
-/
import Colonnade.Host
import Colonnade.Proofs.Engine.Events
import Colonnade.Proofs.History.Acknowledged
import Colonnade.Proofs.Host.Volume

namespace Colonnade

-- ================================================= outcomes of an edit

namespace Edit

variable {ε σ α β γ : Type} {P : EStateM.Result ε σ β → Prop} {s : σ}
  {c d : Prop} [Decidable c] [Decidable d]

/-- An outcome of two steps is one of the second, or a failure of the
first. -/
theorem comes_bind {x : EStateM ε σ α} {f : α → EStateM ε σ β}
    (hok : ∀ a s', x.run s = .ok a s' → P ((f a).run s'))
    (herr : ∀ e s', x.run s = .error e s' → P (.error e s')) :
    P ((x >>= f).run s) := by
  rw [EStateM.run_bind]
  cases hrun : x.run s with
  | ok a s' => exact hok a s' hrun
  | error e s' => exact herr e s' hrun

/-- What is read is the state itself. -/
theorem comes_get {f : σ → EStateM ε σ β} (h : P ((f s).run s)) :
    P ((get >>= f).run s) := h

/-- A refusal is the outcome where it is due. -/
theorem comes_unless {err : ε} {go : EStateM ε σ β}
    (hfail : c → P (.error err s)) (hgo : ¬ c → P (go.run s)) :
    P ((if c then do let _ ← (throw err : EStateM ε σ γ); go
      else go).run s) := by
  split
  next hc => exact hfail hc
  next hc => exact hgo hc

/-- The same where something is made first if it is missing. -/
theorem comes_making {err : ε} {make : EStateM ε σ Unit}
    {go : EStateM ε σ β} (hfail : c → d → P (.error err s))
    (herr : ∀ e s', make.run s = .error e s' → P (.error e s'))
    (hgo : ∀ s', s' = s ∨ make.run s = .ok () s' → P (go.run s')) :
    P ((if c then
        if d then do let _ ← (throw err : EStateM ε σ γ); make; go
        else do make; go
      else go).run s) := by
  split
  next hc =>
    refine comes_unless (hfail hc) fun _ => comes_bind ?_ herr
    exact fun _ s' hrun => hgo s' (.inr hrun)
  next => exact hgo s (.inl rfl)

end Edit

-- ======================================================= what is locked

namespace Host

variable {h : Host} {v w : Volume} {path : String} {lock : Place}

/-- Whether a path leads to a directory that the file at a place locks. -/
structure Leads (v : Volume) (path : String) (lock : Place) : Prop where
  directory : v.isDirectory path
  place : v.placeOf (Path.join path lockFile) = .ok lock

theorem Leads.within (hleads : Leads v path lock) (hwithin : v.Within w) :
    Leads w path lock :=
  ⟨hwithin.isDirectory hleads.directory, hwithin.placeOf hleads.place⟩

theorem endsInSlash_lockFile (path : String) :
    Path.endsInSlash (Path.join path lockFile) = false :=
  Path.endsInSlash_join path (by decide) (by decide)

/-- Whether a path leads to a directory with a file that locks it. -/
def Lockable (v : Volume) (path : String) (lock : Place) : Prop :=
  Leads v path lock ∧ ∃ bytes, v.entryAt? lock = some (.file bytes)

/-- The ways in which claiming a directory ends. -/
inductive Claimed (h : Host) (path : String) :
    EStateM.Result Error Host Claim → Prop
  | claimed {v : Volume} {lock : Place} (hgrown : h.volume.Grown v)
      (hlockable : Lockable v path lock) (hfree : lock ∉ h.volume.locks) :
      Claimed h path (.ok ⟨path, lock⟩ { h with volume := v.lock lock })
  | locked {v : Volume} {lock : Place} (hgrown : h.volume.Grown v)
      (hlockable : Lockable v path lock) (hlocked : lock ∈ h.volume.locks) :
      Claimed h path (.error (.locked path) { h with volume := v })
  | refused {v : Volume} {fault : StoreFault} (hgrown : h.volume.Grown v)
      (hnone : ∀ lock, ¬ Lockable v path lock) :
      Claimed h path (.error (.storage fault) { h with volume := v })

theorem not_lockable (h : ¬ v.isDirectory path) (lock : Place) :
    ¬ Lockable v path lock :=
  fun hlockable => h hlockable.1.directory

section OnVolume

variable {α : Type} {e : VolumeEdit α} {Q : α → Volume → Prop}
  {E : Volume → Prop} {h' : Host}

/-- A step of the volume changes nothing else. -/
theorem onVolume_ok (he : Edit.Ends (· = h.volume) e Q E) {a : α}
    (hrun : (onVolume e).run h = .ok a h') :
    ∃ v, h' = { h with volume := v } ∧ Q a v := by
  have hend := he h.volume rfl
  unfold onVolume at hrun
  dsimp only [EStateM.run] at hend hrun
  cases hstep : e h.volume with
  | ok a v =>
      rw [hstep] at hend hrun
      cases hrun
      exact ⟨v, rfl, hend⟩
  | error fault v =>
      rw [hstep] at hrun
      cases hrun

theorem onVolume_error (he : Edit.Ends (· = h.volume) e Q E) {err : Error}
    (hrun : (onVolume e).run h = .error err h') :
    ∃ fault v, err = .storage fault ∧ h' = { h with volume := v } ∧ E v := by
  have hend := he h.volume rfl
  unfold onVolume at hrun
  dsimp only [EStateM.run] at hend hrun
  cases hstep : e h.volume with
  | ok a v =>
      rw [hstep] at hrun
      cases hrun
  | error fault v =>
      rw [hstep] at hend hrun
      cases hrun
      exact ⟨_, v, rfl, rfl, hend⟩

end OnVolume

theorem claimDirectory_claimed (h : Host) (path : String)
    (createIfMissing : Bool) :
    Claimed h path ((claimDirectory path createIfMissing).run h) := by
  have hmake := Volume.makeDirectories_ends h.volume path
  unfold claimDirectory
  refine Edit.comes_get (Edit.comes_making ?_ ?_ ?_)
  · intro hmissing _
    refine .refused (.refl _) (not_lockable fun hdirectory => ?_)
    rw [Volume.holds_of_isDirectory hdirectory] at hmissing
    cases hmissing
  · intro err h' hrun
    obtain ⟨fault, v, rfl, rfl, hgrown, hnone⟩ := onVolume_error hmake hrun
    exact .refused hgrown (not_lockable hnone)
  -- the directory is there by now, whoever made it
  intro h' hmade
  obtain ⟨v, rfl, hgrown⟩ : ∃ v, h' = { h with volume := v }
      ∧ h.volume.Grown v := by
    rcases hmade with rfl | hrun
    · exact ⟨h'.volume, rfl, .refl _⟩
    · exact onVolume_ok hmake hrun
  refine Edit.comes_get (Edit.comes_unless ?_ fun hdirectory => ?_)
  · exact fun hnone => .refused hgrown (not_lockable (by simpa using hnone))
  have hdirectory : v.isDirectory path = true := by simpa using hdirectory
  have hopen := Volume.openFile_ends v (Path.join path lockFile)
  refine Edit.comes_bind ?_ ?_
  · rintro ⟨lock, bytes⟩ h' hrun
    obtain ⟨w, rfl, hgrown', hfile, -⟩ := onVolume_ok hopen hrun
    have hall := hgrown.trans hgrown'
    have hlockable : Lockable w path lock :=
      ⟨⟨hgrown'.within.isDirectory hdirectory, hfile.place⟩, bytes, hfile.entry⟩
    have hlocked : w.isLocked lock = true ↔ lock ∈ h.volume.locks := by
      unfold Volume.isLocked
      rw [hall.locks_eq]
      exact List.contains_iff_mem
    refine Edit.comes_get (Edit.comes_unless (fun h => ?_) fun hfree => ?_)
    · exact .locked hall hlockable (hlocked.1 h)
    · exact .claimed hall hlockable (hlocked.not.1 hfree)
  · intro err h' hrun
    obtain ⟨fault, w, rfl, rfl, rfl⟩ := onVolume_error hopen hrun
    refine .refused hgrown fun lock hlockable => ?_
    -- a lock file that a path leads to would have been opened
    obtain ⟨hleads, bytes, hentry⟩ := hlockable
    have hfile : w.FileAt (Path.join path lockFile) lock bytes :=
      ⟨endsInSlash_lockFile path, hleads.place, hentry⟩
    have hfound := hfile.run_openFile
    unfold onVolume at hrun
    dsimp only [EStateM.run] at hfound hrun
    rw [hfound] at hrun
    cases hrun

-- ========================================================== the history

/-- Opening a history fails for damage in it only. -/
theorem openOver_error {store after : Store} {config : Config} {err : Error}
    (hexact : store.Exact)
    (hrun : Engine.openOver store config = (.error err, after)) :
    ∃ n, History.DamageAt n err := by
  have hlog : (HistoryLog.ofStore store config).store.Exact := hexact
  unfold Engine.openOver at hrun
  rcases History.read_ends hexact Snapshot.replayRecord .empty with
    ⟨sum, s, hread, -⟩ | ⟨err', s, hread, hstops⟩
  · obtain ⟨sum', log', hreplay⟩ :=
      (HistoryLog.gives_replay_iff hlog).2 ⟨sum, hread⟩
    have hrecover : HistoryLog.recover.run (.ofStore store config)
        = .ok s log' := HistoryLog.gives_recover.2 ⟨sum', hreplay⟩
    rw [hrecover] at hrun
    cases hrun
  · have hrecover : HistoryLog.recover.run (.ofStore store config)
        = .error err' (.ofStore store config) :=
      HistoryLog.run_recover_error hread
    rw [hrecover] at hrun
    cases hrun
    obtain ⟨n, -, hdamage⟩ := hstops.damage
    exact ⟨n, hdamage⟩

/-- An engine that was just opened on a claim: it has one owner and no
transactions, and its history is in a file. -/
structure Fresh (v : Volume) (claim : Claim) (o : OpenEngine) : Prop where
  owners_eq : o.owners = 1
  claim_eq : o.claim = some claim
  none_begun : ∀ id, o.engine.transaction? id = none
  serial : o.engine.Serial
  medium : ∃ place bytes, o.medium = .file place
    ∧ v.entryAt? place = some (.file bytes)

/-- The host with a volume in the place of its own and an engine added. -/
def withEngine (h : Host) (v : Volume) (o : OpenEngine) : Host :=
  { h with
    volume := v
    engines := h.engines.insert h.nextNumber o
    nextNumber := h.nextNumber + 1 }

/-- The ways in which opening a history ends. -/
inductive HistoryOpened (h : Host) (claim : Claim) :
    EStateM.Result Error Host Nat → Prop
  | opened {v : Volume} {o : OpenEngine} (hgrown : h.volume.Grown v)
      (hfresh : Fresh v claim o) :
      HistoryOpened h claim (.ok h.nextNumber (h.withEngine v o))
  | failed {v : Volume} {err : Error} (hgrown : h.volume.Grown v)
      (herr : ∀ path, err ≠ .locked path) :
      HistoryOpened h claim (.error err { h with volume := v })

theorem openHistory_opened (h : Host) (claim : Claim) (config : Config) :
    HistoryOpened h claim ((openHistory claim config).run h) := by
  have hopen := Volume.openWithin_ends h.volume
    (Path.join claim.path historyFile)
  unfold openHistory
  refine Edit.comes_get ?_
  dsimp only
  refine Edit.comes_unless (fun _ => .failed (.refl _) nofun) fun _ => ?_
  refine Edit.comes_unless (fun _ => .failed (.refl _) nofun) fun _ => ?_
  refine Edit.comes_bind ?_ ?_
  · rintro ⟨place, bytes⟩ h' hrun
    obtain ⟨v, rfl, hgrown, hfile⟩ := onVolume_ok hopen hrun
    have hexact : (Store.file (.opened bytes)).Exact := rfl
    have hkept (store : Store) :
        h.volume.Grown (v.put place (.file store.bytes)) :=
      hgrown.trans (Volume.grown_put_file hfile.entry)
    dsimp only
    unfold openOver
    cases hengine : Engine.openOver (.file (.opened bytes)) config with
    | mk opened store =>
        cases opened with
        | error err =>
            obtain ⟨n, hdamage⟩ := openOver_error hexact hengine
            refine .failed (hkept store) fun path heq => ?_
            subst heq
            rcases hdamage with ⟨_, hcorrupt⟩ | ⟨_, _, hcorrupt⟩ <;>
              cases hcorrupt
        | ok engine =>
            obtain ⟨s, log, -, rfl, -⟩ := Engine.openOver_eq_ok.1 hengine
            have hput := Volume.entryAt?_put_self v (.file store.bytes)
              (Volume.isGiven_eq_false_of_file hfile.entry)
            exact .opened (hkept store) ⟨rfl, rfl,
              fun _ => Std.TreeMap.getElem?_emptyc,
              Engine.serial_starting .., place, store.bytes, rfl, hput⟩
  · intro err h' hrun
    obtain ⟨fault, v, rfl, rfl, hgrown⟩ := onVolume_error hopen hrun
    exact .failed hgrown nofun

-- ========================================================= the directory

/-- The ways in which opening the database in a directory ends. -/
inductive Opened (h : Host) (path : String) :
    EStateM.Result Error Host Nat → Prop
  | opened {v : Volume} {o : OpenEngine} {lock : Place}
      (hwithin : h.volume.Within v)
      (hlocks : v.locks = lock :: h.volume.locks)
      (hlockable : Lockable v path lock) (hfree : lock ∉ h.volume.locks)
      (hfresh : Fresh v ⟨path, lock⟩ o) :
      Opened h path (.ok h.nextNumber (h.withEngine v o))
  | locked {v : Volume} {lock : Place} (hgrown : h.volume.Grown v)
      (hlockable : Lockable v path lock) (hlocked : lock ∈ h.volume.locks) :
      Opened h path (.error (.locked path) { h with volume := v })
  | refused {v : Volume} {err : Error} (hgrown : h.volume.Grown v)
      (herr : ∀ path, err ≠ .locked path)
      (hfree : ∀ lock ∈ h.volume.locks, ¬ Lockable v path lock) :
      Opened h path (.error err { h with volume := v })

theorem Lockable.within (hlockable : Lockable v path lock)
    (hwithin : v.Within w) : Lockable w path lock := by
  obtain ⟨hleads, bytes, hentry⟩ := hlockable
  exact ⟨hleads.within hwithin, hwithin.file hentry⟩

theorem Leads.unique {lock' : Place} (hleads : Leads v path lock)
    (hleads' : Leads v path lock') : lock = lock' :=
  Except.ok.inj (hleads.place.symm.trans hleads'.place)

theorem openDirectory_opened (h : Host) (path : String) (config : Config) :
    Opened h path ((openDirectory path config).run h) := by
  have hclaimed := claimDirectory_claimed h path config.createIfMissing
  unfold openDirectory
  rw [EStateM.run_bind]
  generalize (claimDirectory path config.createIfMissing).run h = result
    at hclaimed
  cases hclaimed with
  | locked hgrown hlockable hlocked =>
      exact .locked hgrown hlockable hlocked
  | refused hgrown hnone =>
      exact .refused hgrown nofun fun lock _ => hnone lock
  | @claimed v lock hgrown hlockable hfree =>
      have hopened := openHistory_opened { h with volume := v.lock lock }
        ⟨path, lock⟩ config
      have hlocks {w : Volume} (hlocked : (v.lock lock).Grown w) :
          w.locks = lock :: h.volume.locks := by
        rw [hlocked.locks_eq, ← hgrown.locks_eq]
        rfl
      dsimp only
      rw [EStateM.run_bind, Edit.run_attempt]
      generalize (openHistory ⟨path, lock⟩ config).run
        { h with volume := v.lock lock } = result at hopened
      cases hopened with
      | @opened w o hgrown' hfresh =>
          have hwithin : h.volume.Within w :=
            hgrown.within.trans hgrown'.within
          exact .opened hwithin (hlocks hgrown')
            (hlockable.within hgrown'.within) hfree hfresh
      | @failed w err hgrown' herr =>
          -- the lock is given back, and no other was there
          have hback : (w.unlock lock).locks = h.volume.locks := by
            show w.locks.filter _ = _
            rw [hlocks hgrown', List.filter_cons_of_neg (by simp)]
            exact List.filter_eq_self.2 fun p hp =>
              bne_iff_ne.2 fun heq => hfree (heq ▸ hp)
          have hwithin : h.volume.Within (w.unlock lock) :=
            hgrown.within.trans hgrown'.within
          have hlockable' : Lockable (w.unlock lock) path lock :=
            hlockable.within hgrown'.within
          refine .refused ⟨hwithin, hback⟩ herr fun other hother hled => ?_
          exact hfree (hlockable'.1.unique hled.1 ▸ hother)

-- ================================================== directories that open

/-- A directory that a database was left in: it can be locked, and its
history can be read. -/
structure Ready (v : Volume) (path : String) (config : Config) : Prop where
  lockable : ∃ lock, Leads v path lock ∧ v.entryAt? lock ≠ some .directory
  history : ∃ place bytes sum s,
    v.FileAt (Path.join path historyFile) place bytes
      ∧ Edit.Gives (History.read (.file (.opened bytes)) Snapshot.replayRecord)
        .empty sum s
      ∧ (config.errorIfExists = true → bytes = [])

/-- A history that can be read opens. -/
theorem openHistory_ready {claim : Claim} {config : Config} {place : Place}
    {bytes : Bytes} {sum : History.Summary} {s : Snapshot}
    (hfile : h.volume.FileAt (Path.join claim.path historyFile) place bytes)
    (hread : Edit.Gives
      (History.read (.file (.opened bytes)) Snapshot.replayRecord) .empty sum s)
    (hnew : config.errorIfExists = true → bytes = []) :
    ∃ n h', (openHistory claim config).run h = .ok n h' := by
  have hentry := Volume.find_of_placeOf hfile.place
  rw [hfile.entry, hfile.slash] at hentry
  have hholds : h.volume.holds (Path.join claim.path historyFile) = true := by
    unfold Volume.holds
    rw [hentry]
    rfl
  have hnone : h.volume.isDirectory (Path.join claim.path historyFile)
      = false := by
    unfold Volume.isDirectory
    rw [hentry]
    rfl
  -- a history that must be new is refused only if it has bytes
  have hallowed : ((h.volume.isDirectory (Path.join claim.path historyFile)
      || (h.volume.read? (Path.join claim.path historyFile)).any (!·.isEmpty))
      && config.errorIfExists) = false := by
    rw [hnone, hfile.read?]
    cases hexists : config.errorIfExists with
    | false => exact Bool.and_false _
    | true =>
        rw [hnew hexists]
        rfl
  have hwithin : (onVolume (Volume.openWithin
      (Path.join claim.path historyFile))).run h = .ok (place, bytes) h := by
    have hrun := hfile.run_openWithin
    unfold onVolume
    dsimp only [EStateM.run] at hrun ⊢
    rw [hrun]
  -- reading and recovering go over the same records
  have hopens : ∃ e after, Engine.openOver (.file (.opened bytes)) config
      = (.ok e, after) := by
    have hexact : (HistoryLog.ofStore (.file (.opened bytes)) config).store.Exact
      := rfl
    obtain ⟨sum', log, hreplay⟩ :=
      (HistoryLog.gives_replay_iff hexact).2 ⟨sum, hread⟩
    exact ⟨_, _, Engine.openOver_eq_ok.2
      ⟨s, log, HistoryLog.gives_recover.2 ⟨sum', hreplay⟩, rfl, rfl⟩⟩
  obtain ⟨e, after, hopens⟩ := hopens
  unfold openHistory
  rw [EStateM.run_bind, EStateM.run_get]
  dsimp only
  rw [hholds, hallowed]
  simp only [Bool.not_true, Bool.false_and, Bool.false_eq_true, if_false]
  rw [EStateM.run_bind, hwithin]
  dsimp only
  unfold openOver
  rw [hopens]
  exact ⟨_, _, rfl⟩

/-- A directory that a database was left in opens if its lock is free. -/
theorem openDirectory_ready {config : Config}
    (hready : Ready h.volume path config)
    (hfree : ∀ lock, Leads h.volume path lock → lock ∉ h.volume.locks) :
    ∃ n h', (openDirectory path config).run h = .ok n h' := by
  obtain ⟨lock, hleads, hentry⟩ := hready.lockable
  obtain ⟨place, bytes, sum, s, hfile, hread, hnew⟩ := hready.history
  obtain ⟨held, w, hopen, hgrown, hspares⟩ := Volume.openFile_spares
    (endsInSlash_lockFile path) hleads.place hentry
  have hdirectory := hleads.directory
  have hholds := Volume.holds_of_isDirectory hdirectory
  have hlock : (onVolume (Volume.openFile (Path.join path lockFile))).run h
      = .ok (lock, held) { h with volume := w } := by
    unfold onVolume
    dsimp only [EStateM.run] at hopen ⊢
    rw [hopen]
  have hunlocked : w.isLocked lock = false := by
    unfold Volume.isLocked
    rw [hgrown.locks_eq]
    simpa using hfree lock hleads
  have hclaim : (claimDirectory path config.createIfMissing).run h
      = .ok ⟨path, lock⟩ { h with volume := w.lock lock } := by
    unfold claimDirectory
    simp only [EStateM.run_bind, EStateM.run_get, hholds, hdirectory,
      Bool.not_true, Bool.false_eq_true, if_false, hlock, hunlocked]
    rfl
  have hhistory : ∃ n h', (openHistory ⟨path, lock⟩ config).run
      { h with volume := w.lock lock } = .ok n h' := by
    have hfile' := hspares _ _ _ hfile
    exact openHistory_ready ⟨hfile'.slash, hfile'.place, hfile'.entry⟩ hread
      hnew
  obtain ⟨n, h', hhistory⟩ := hhistory
  refine ⟨n, h', ?_⟩
  unfold openDirectory
  rw [EStateM.run_bind, hclaim]
  dsimp only
  rw [EStateM.run_bind, Edit.run_attempt, hhistory]
  rfl

end Host

end Colonnade
