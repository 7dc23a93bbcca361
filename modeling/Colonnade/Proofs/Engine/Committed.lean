/-
What a commit with writes between its steps publishes, and what it logs.
Published is always the snapshot that was seen, and logged is always the
list that was taken: `Committing.Tracks` says so at each stage, every step
and every write keeps it, and at the end it is a `Publication`.

A late write is in the first and not in the second. It was carried out, its
caller was told so, readers of the new version see it, and it is gone when
the log is opened again (`late_write_lost`). The commit does what it should
exactly if no write came late.

Chain: above `Engine.Interleaved`.
-/
import Colonnade.Proofs.Engine.Interleaved

namespace Colonnade.Engine.Committing

variable {b e : Engine} {id : TransactionId} {t : Transaction}

-- ========================================================== the tracking

/-- What a write through a handle does to the engine: it changes the view of
the transaction if it succeeds, and otherwise nothing that matters. -/
theorem write_cases (e : Engine) (ht : e.transaction? id = some t)
    (generation : UInt64) (stale : Error)
    (build : Snapshot → Except Error Instruction) :
    (∃ i v, (Anchor.write ⟨id, generation⟩ stale build).run e
        = .ok i (e.withTransaction id { t with view := v })
        ∧ View.Wrote e.limits build t.view i v)
      ∨ ∃ err stats, (Anchor.write ⟨id, generation⟩ stale build).run e
        = .error err { e.withTransaction id t with stats } := by
  unfold Anchor.write
  rw [EStateM.run_bind, EStateM.run_get]
  dsimp only
  rw [ht]
  dsimp only
  cases hwrite : t.view.write e.limits generation build with
  | mk result view =>
      rcases View.write_cases hwrite with ⟨i, rfl, hwrote⟩ | ⟨rfl, hno⟩
      · exact .inl ⟨i, view, rfl, hwrote⟩
      · cases result with
        | none => exact .inr ⟨_, _, rfl⟩
        | some result =>
            cases result with
            | ok i => exact (hno i rfl).elim
            | error err => exact .inr ⟨err, e.stats, rfl⟩

/-- A transaction with changes put back in front of those it has. -/
def restored (t : Transaction) (changes : List Instruction) : Transaction :=
  let all := changes ++ t.view.changes.toList
  { t with view := { t.view with changes := all.toArray } }

/-- Nothing was published yet. -/
structure Unpublished (b : Engine) (id : TransactionId) (e : Engine) :
    Prop where
  current_eq : e.current = b.current
  limits_eq : e.limits = b.limits
  log_eq : e.log = b.log
  sole : Sole id e

/-- What a write changes at most: its transaction, and the counters. -/
def Touched (id : TransactionId) (e e' : Engine) : Prop :=
  e' = e ∨ ∃ t stats, e' = { e.withTransaction id t with stats }

/-- What is touched by its writer only stays unpublished. -/
theorem Touched.unpublished {e' : Engine} (h : Touched id e e')
    (hun : Unpublished b id e) : Unpublished b id e' := by
  rcases h with rfl | ⟨t, stats, rfl⟩
  · exact hun
  · exact ⟨hun.current_eq, hun.limits_eq, hun.log_eq,
      hun.sole.withTransaction t⟩

/-- What is touched by its writer only keeps what is told by the log. -/
theorem Touched.ofLog {P : Engine → Prop} {e' : Engine}
    (h : Touched id e e') (hP : OfLog P) (he : P e) : P e' := by
  rcases h with rfl | ⟨t, stats, rfl⟩
  · exact he
  · exact hP e _ rfl rfl he

/-- What was taken and what the transaction has recorded since are pending
together, and they are what was written. -/
structure Owes (b : Engine) (id : TransactionId)
    (changes : List Instruction) (c : Committing) : Prop where
  unpublished : Unpublished b id c.engine
  owed : ∃ t, c.engine.transaction? id = some t
    ∧ (restored t changes).Pending b.current b.limits
    ∧ c.written = changes ++ t.view.changes.toList

/-- What was seen is what everything written leads to. -/
structure Seen (b : Engine) (changes : List Instruction) (working : Snapshot)
    (c : Committing) : Prop where
  applied : Edit.Gives (Snapshot.applyAll b.limits c.written) b.current ()
    working
  keys : ∀ i ∈ c.written, i.KeysNonneg
  written_eq : c.written = changes ++ c.late

/-- What was seen is current, and what was taken is in the log. -/
structure Outcome (b : Engine) (record : CommitRecord) (next : Snapshot)
    (c : Committing) : Prop where
  version_eq : record.version = b.version.next
  seen : ∃ working, Seen b record.instructions working c
    ∧ next = { working with version := record.version }
  logged : ∃ bytes data, Rests bytes b.current b
    ∧ HistoryLog.LeadsTo bytes b.current
    ∧ Wire.encode Wire.newestFormat record = .ok data
    ∧ Rests (bytes ++ data) next c.engine

/-- What holds of a commit at each of its stages. -/
def Tracks (b : Engine) (id : TransactionId) (c : Committing) : Prop :=
  match c.stage with
  | .begun => Owes b id [] c ∧ c.late = []
  | .taken changes => Owes b id changes c ∧ c.written = changes ++ c.late
  | .looked changes working =>
    Unpublished b id c.engine ∧ Seen b changes working c
  | .published record next | .closed record next => Outcome b record next c
  | .failed => ∃ bytes, Rests bytes b.current b
    ∧ HistoryLog.LeadsTo bytes b.current ∧ Rests bytes b.current c.engine

variable {c : Committing} {changes : List Instruction}

/-- At its start a commit has published nothing, and the writer is as it was.
-/
theorem tracks_start (hb : b.Recoverable) (ht : b.transaction? id = some t)
    (hw : t.IsWriting) : Tracks b id (start b t) := by
  have hun : Unpublished b id b := ⟨rfl, rfl, rfl, hb.sole ht hw⟩
  exact ⟨⟨hun, t, ht, hb.pending id t ht hw, rfl⟩, rfl⟩

/-- Taking the changes moves them and loses none. -/
theorem tracks_step_begun (h : Owes b id [] c) (hlate : c.late = [])
    (hstage : c.stage = .begun) : Tracks b id (c.step id) := by
  obtain ⟨hun, t, ht, hpending, hwritten⟩ := h
  have hmoved : restored { t with view := { t.view with changes := #[] } }
      t.view.changes.toList = restored t [] := by
    simp [restored]
  unfold step
  rw [hstage]
  dsimp only
  rw [run_takeChanges ht]
  have htouched : Touched id c.engine (takenFrom c.engine id t) :=
    .inr ⟨_, c.engine.stats, rfl⟩
  have hfound := requireTransaction_eq_ok.1
    (requireTransaction_takenFrom c.engine id t)
  refine ⟨⟨htouched.unpublished hun, _, hfound, ?_, ?_⟩, ?_⟩
  · rw [hmoved]
    exact hpending
  · simpa using hwritten
  · simpa [hlate] using hwritten

/-- Looking at the snapshot sees everything that was written. -/
theorem tracks_step_taken (h : Owes b id changes c)
    (hlate : c.written = changes ++ c.late)
    (hstage : c.stage = .taken changes) : Tracks b id (c.step id) := by
  obtain ⟨hun, t, ht, hpending, hwritten⟩ := h
  have hchanges : (restored t changes).view.changes.toList = c.written := by
    rw [hwritten]
    rfl
  unfold step
  rw [hstage]
  dsimp only
  rw [requireTransaction_eq_ok.2 ht]
  dsimp only
  refine ⟨hun, ?_, ?_, hlate⟩
  · have happlied := hpending.applied
    rw [hchanges] at happlied
    exact happlied
  · have hkeys := hpending.changes
    rw [hchanges] at hkeys
    exact hkeys

/-- While nothing is published the log rests where it was. -/
theorem Unpublished.rests {bytes : Bytes} (h : Unpublished b id e)
    (hb : Rests bytes b.current b) : Rests bytes b.current e :=
  ofLog_rests _ _ b e h.log_eq h.current_eq hb

/-- Publishing what was seen brings the outcome, or nothing. -/
theorem tracks_step_looked {working : Snapshot} (hb : b.Recoverable)
    (hun : Unpublished b id c.engine) (hseen : Seen b changes working c)
    (hstage : c.stage = .looked changes working) :
    Tracks b id (c.step id) := by
  obtain ⟨log, bytes, hlog, hholds, hleads⟩ := hb.logged
  have hb : Rests bytes b.current b := ⟨rfl, log, hlog, hholds⟩
  have hversion : c.engine.version = b.version :=
    congrArg Snapshot.version hun.current_eq
  have hends : Edit.Meets _ _ ((conclude id working changes).run c.engine) :=
    conclude_ends (hun.rests hb) hun.sole c.engine rfl
  unfold step
  rw [hstage]
  dsimp only
  cases hrun : (conclude id working changes).run c.engine with
  | ok next e' =>
      rw [hrun] at hends
      obtain ⟨⟨data, hdata, hnext, hrests⟩, -⟩ := hends
      dsimp only
      rw [hversion]
      exact ⟨rfl, ⟨working, ⟨hseen.applied, hseen.keys, hseen.written_eq⟩,
        hnext⟩, bytes, data, hb, hleads, hdata, hrests⟩
  | error err e' =>
      rw [hrun] at hends
      exact ⟨bytes, hb, hleads, hends.1⟩

/-- An outcome is known by the log and the current snapshot. -/
theorem Outcome.rests {c' : Committing} {record : CommitRecord}
    {next : Snapshot} (h : Outcome b record next c)
    (hwritten : c'.written = c.written) (hlate : c'.late = c.late)
    (hrests : ∀ bytes s, Rests bytes s c.engine → Rests bytes s c'.engine) :
    Outcome b record next c' := by
  obtain ⟨hversion, ⟨working, hseen, hnext⟩, bytes, data, hb, hleads, hdata,
    hlog⟩ := h
  have hseen' : Seen b record.instructions working c' := by
    obtain ⟨happlied, hkeys, heq⟩ := hseen
    rw [← hwritten] at happlied hkeys heq
    rw [← hlate] at heq
    exact ⟨happlied, hkeys, heq⟩
  exact ⟨hversion, ⟨working, hseen', hnext⟩, bytes, data, hb, hleads, hdata,
    hrests _ _ hlog⟩

/-- Closing the view is not seen in the log. -/
theorem tracks_step_published {record : CommitRecord} {next : Snapshot}
    (h : Outcome b record next c) (hstage : c.stage = .published record next) :
    Tracks b id (c.step id) := by
  have hkeeps (bytes : Bytes) (s : Snapshot)
      (hrests : Rests bytes s c.engine) :
      Edit.Meets (fun _ => Rests bytes s) (fun _ => False)
        ((mapView id (View.replace next .closed true)).run c.engine) :=
    (ofLog_rests bytes s).mapView _ c.engine hrests
  unfold step
  rw [hstage]
  dsimp only
  cases hrun : (mapView id (View.replace next .closed true)).run c.engine with
  | ok u e' =>
      rw [hrun] at hkeeps
      exact h.rests rfl rfl hkeeps
  | error err e' =>
      rw [hrun] at hkeeps
      obtain ⟨_, _, _, _, -, -, -, hrests⟩ := h
      exact (hkeeps _ _ hrests).elim

/-- Every step of the commit keeps track. -/
theorem tracks_step (hb : b.Recoverable) (h : Tracks b id c) :
    Tracks b id (c.step id) := by
  cases hstage : c.stage with
  | begun =>
      rw [Tracks, hstage] at h
      exact tracks_step_begun h.1 h.2 hstage
  | taken changes =>
      rw [Tracks, hstage] at h
      exact tracks_step_taken h.1 h.2 hstage
  | looked changes working =>
      rw [Tracks, hstage] at h
      exact tracks_step_looked hb h.1 h.2 hstage
  | published record next =>
      rw [Tracks, hstage] at h
      exact tracks_step_published h hstage
  | closed record next =>
      unfold step
      rw [hstage]
      exact h
  | failed =>
      unfold step
      rw [hstage]
      exact h

/-- A write that succeeds while the snapshot was not looked at yet is owed
with the others. -/
theorem Owes.wrote {c' : Committing}
    {build : Snapshot → Except Error Instruction} {i : Instruction}
    {v : View} (h : Owes b id changes c)
    (ht : c.engine.transaction? id = some t)
    (hwrote : View.Wrote c.engine.limits build t.view i v)
    (hbuild : CreatesNonneg build t.view.snapshot)
    (hengine : c'.engine = c.engine.withTransaction id { t with view := v })
    (hwritten : c'.written = c.written ++ [i]) : Owes b id changes c' := by
  obtain ⟨hun, u, hu, hpending, hsum⟩ := h
  obtain rfl : t = u := Option.some.inj (ht.symm.trans hu)
  rw [hun.limits_eq] at hwrote
  have hrestored : View.Wrote b.limits build (restored t changes).view i
      (restored { t with view := v } changes).view := by
    refine ⟨hwrote.writing, hwrote.built, hwrote.applied, ?_,
      hwrote.mode_eq, hwrote.generation_eq⟩
    simp [restored, hwrote.changes_eq]
  have hnew (table : TableKey) (key : ObjectKey)
      (hi : i = .createObject table key) : 0 ≤ key.raw :=
    hbuild table key (hi ▸ hwrote.built)
  have htouched : Touched id c.engine c'.engine :=
    .inr ⟨_, c.engine.stats, hengine⟩
  refine ⟨htouched.unpublished hun, { t with view := v }, ?_,
    hpending.wrote hrestored hnew, ?_⟩
  · rw [hengine, transaction?_withTransaction, if_pos rfl]
  · rw [hwritten, hsum, hwrote.changes_eq]
    simp

/-- What is owed does not depend on counters. -/
theorem Owes.uncounted {c' : Committing} (h : Owes b id changes c)
    (ht : c.engine.transaction? id = some t) {stats : Stats}
    (hengine : c'.engine = { c.engine.withTransaction id t with stats })
    (hwritten : c'.written = c.written) : Owes b id changes c' := by
  obtain ⟨hun, u, hu, hpending, hsum⟩ := h
  obtain rfl : t = u := Option.some.inj (ht.symm.trans hu)
  have htouched : Touched id c.engine c'.engine := .inr ⟨t, stats, hengine⟩
  have hsame : c'.engine.transaction? id = some t := by
    rw [hengine]
    show (c.engine.withTransaction id t).transaction? id = some t
    rw [transaction?_withTransaction, if_pos rfl]
  exact ⟨htouched.unpublished hun, t, hsame, hpending, hwritten.trans hsum⟩

/-- Where writes are not noted any more they touch the engine alone. -/
theorem write_unnoted (generation : UInt64) (stale : Error)
    (build : Snapshot → Except Error Instruction)
    (hnoted : ∀ i, c.noted i = c) :
    ∃ e, c.write id generation stale build = { c with engine := e }
      ∧ Touched id c.engine e := by
  unfold write
  cases ht : c.engine.transaction? id with
  | none =>
      refine ⟨c.engine, ?_, .inl rfl⟩
      unfold Anchor.write
      rw [EStateM.run_bind, EStateM.run_get]
      dsimp only
      rw [ht]
      rfl
  | some t =>
      rcases write_cases c.engine ht generation stale build with
        ⟨i, v, hrun, -⟩ | ⟨err, stats, hrun⟩
      · rw [hrun]
        dsimp only
        rw [hnoted]
        exact ⟨_, rfl, .inr ⟨_, c.engine.stats, rfl⟩⟩
      · rw [hrun]
        exact ⟨_, rfl, .inr ⟨t, stats, rfl⟩⟩

/-- A write keeps track while the snapshot was not looked at yet. -/
theorem tracks_write_owed (howes : Owes b id changes c)
    (generation : UInt64) (stale : Error)
    {build : Snapshot → Except Error Instruction}
    (hfits : c.Fits id (.write generation stale build))
    (hwrote : ∀ i e', Owes b id changes { c.noted i with engine := e' } →
      Tracks b id { c.noted i with engine := e' })
    (hkept : ∀ e', Owes b id changes { c with engine := e' } →
      Tracks b id { c with engine := e' })
    (hnoted : ∀ i, (c.noted i).written = c.written ++ [i]) :
    Tracks b id (c.write id generation stale build) := by
  obtain ⟨t, ht, -⟩ := howes.owed
  unfold write
  rcases write_cases c.engine ht generation stale build with
    ⟨i, v, hrun, hwrites⟩ | ⟨err, stats, hrun⟩
  · rw [hrun]
    exact hwrote i _ (howes.wrote ht hwrites (hfits t ht) rfl (hnoted i))
  · rw [hrun]
    exact hkept _ (howes.uncounted ht rfl rfl)

/-- A write keeps track later on, when it changes nothing that is tracked. -/
theorem tracks_write_unnoted (generation : UInt64) (stale : Error)
    (build : Snapshot → Except Error Instruction)
    (hnoted : ∀ i, c.noted i = c)
    (hkept : ∀ e, Touched id c.engine e →
      Tracks b id { c with engine := e }) :
    Tracks b id (c.write id generation stale build) := by
  obtain ⟨e, heq, htouched⟩ : ∃ e,
      c.write id generation stale build = { c with engine := e }
        ∧ Touched id c.engine e :=
    write_unnoted generation stale build hnoted
  rw [heq]
  exact hkept e htouched

/-- Every write keeps track, at every stage. -/
theorem tracks_write (h : Tracks b id c) {generation : UInt64}
    {stale : Error} {build : Snapshot → Except Error Instruction}
    (hfits : c.Fits id (.write generation stale build)) :
    Tracks b id (c.write id generation stale build) := by
  obtain ⟨e, stage, written, late⟩ := c
  cases stage with
  | begun =>
      obtain ⟨howes, hlate⟩ := h
      exact tracks_write_owed howes generation stale hfits
        (fun i e' h => ⟨h, hlate⟩) (fun e' h => ⟨h, hlate⟩) fun _ => rfl
  | taken changes =>
      obtain ⟨howes, hlate⟩ := h
      refine tracks_write_owed howes generation stale hfits
        (fun i e' h => ⟨h, ?_⟩) (fun e' h => ⟨h, hlate⟩) fun _ => rfl
      show written ++ [i] = changes ++ (late ++ [i])
      rw [show written = changes ++ late from hlate, List.append_assoc]
  | looked changes working =>
      obtain ⟨hun, happlied, hkeys, hsum⟩ := h
      exact tracks_write_unnoted generation stale build (fun _ => rfl)
        fun _ h => ⟨h.unpublished hun, happlied, hkeys, hsum⟩
  | published record next =>
      exact tracks_write_unnoted generation stale build (fun _ => rfl)
        fun _ ht => Outcome.rests h rfl rfl fun _ _ =>
          ht.ofLog (ofLog_rests _ _)
  | closed record next =>
      exact tracks_write_unnoted generation stale build (fun _ => rfl)
        fun _ ht => Outcome.rests h rfl rfl fun _ _ =>
          ht.ofLog (ofLog_rests _ _)
  | failed =>
      obtain ⟨bytes, hb, hleads, hrests⟩ := h
      exact tracks_write_unnoted generation stale build (fun _ => rfl)
        fun _ ht => ⟨bytes, hb, hleads, ht.ofLog (ofLog_rests _ _) hrests⟩

/-- A run keeps track from its beginning to its end. -/
theorem tracks_run {moves : List Move} (hb : b.Recoverable)
    (h : Tracks b id c) (hfits : NoKeyWraps id c moves) :
    Tracks b id (c.run id moves) := by
  induction moves generalizing c with
  | nil => exact h
  | cons m ms ih =>
      obtain ⟨hm, hms⟩ := hfits
      cases m with
      | commit => exact ih (tracks_step hb h) hms
      | write generation stale build => exact ih (tracks_write h hm) hms

-- ============================================================ outcomes

/-- What a commit made current, and what its log is opened to. -/
structure Publication (b : Engine) (record : CommitRecord)
    (next reopened : Snapshot) (c : Committing) : Prop where
  current_eq : c.engine.current = next
  published : ∃ s, Edit.Gives (Snapshot.applyAll b.limits c.written) b.current
    () s ∧ next = { s with version := b.version.next }
  logged : ∃ old log data, b.log = some old ∧ c.engine.log = some log
    ∧ Wire.encode Wire.newestFormat record = .ok data
    ∧ log.store.bytes = old.store.bytes ++ data
    ∧ ∀ config, ∃ e, openOver (.memory log.store.bytes) config
        = (.ok e, .memory log.store.bytes) ∧ e.current = reopened
  replayed : ∃ s, Edit.Gives (Snapshot.applyAll b.limits record.instructions)
    b.current () s ∧ reopened = { s with version := b.version.next }
  written_eq : c.written = record.instructions ++ c.late

variable {record : CommitRecord} {next reopened : Snapshot}

/-- Every outcome of a commit is a publication. -/
theorem Outcome.publication (h : Outcome b record next c) :
    ∃ reopened, Publication b record next reopened c := by
  obtain ⟨hversion, ⟨working, hseen, hnext⟩, bytes, data,
    ⟨-, old, hold, hholds⟩, hleads, hdata, hcurrent, log, hlog, hholds'⟩ := h
  have happlied := hseen.applied
  rw [hseen.written_eq, Snapshot.gives_applyAll_append] at happlied
  obtain ⟨s, hs, -⟩ := happlied
  have hkeys : ∀ i ∈ record.instructions, i.KeysNonneg := by
    intro i hi
    refine hseen.keys i ?_
    rw [hseen.written_eq]
    exact List.mem_append_left _ hi
  have hleads' : HistoryLog.LeadsTo (bytes ++ data)
      { s with version := record.version } :=
    hleads.append_encoded hversion hs hkeys hdata
  rw [hversion] at hnext hleads'
  refine ⟨{ s with version := b.version.next }, hcurrent,
    ⟨working, hseen.applied, hnext⟩, ⟨old, log, data, hold, hlog, hdata, ?_,
      fun config => ?_⟩, ⟨s, hs, rfl⟩, hseen.written_eq⟩
  · rw [hholds'.bytes_eq, hholds.bytes_eq]
  · rw [hholds'.bytes_eq]
    exact openOver_of_leadsTo hleads' config

/-- The log says what was published, and the record everything that was
written, exactly if nothing came late. -/
theorem Publication.faithful_iff (h : Publication b record next reopened c) :
    (reopened = next ∧ c.written = record.instructions) ↔ c.late = [] := by
  constructor
  · intro hfaithful
    have hsum := h.written_eq
    rw [hfaithful.2] at hsum
    exact List.append_right_eq_self.1 hsum.symm
  · intro hlate
    have hwritten : c.written = record.instructions := by
      rw [h.written_eq, hlate, List.append_nil]
    obtain ⟨s, hs, hnext⟩ := h.published
    obtain ⟨s', hs', hreopened⟩ := h.replayed
    rw [hwritten] at hs
    obtain ⟨-, rfl⟩ := hs.unique hs'
    exact ⟨hreopened.trans hnext.symm, hwritten⟩

section Runs

variable {moves : List Move}

/-- A commit that fails makes nothing current and logs nothing, whatever was
written meanwhile. -/
theorem kept_of_failed (hb : b.Recoverable) (ht : b.transaction? id = some t)
    (hw : t.IsWriting) (hmoves : NoKeyWraps id (start b t) moves)
    (hfailed : ((start b t).run id moves).stage = .failed) :
    ((start b t).run id moves).engine.current = b.current
      ∧ ∃ old log, b.log = some old
        ∧ ((start b t).run id moves).engine.log = some log
        ∧ log.store.bytes = old.store.bytes := by
  have htracks := tracks_run hb (tracks_start hb ht hw) hmoves
  rw [Tracks, hfailed] at htracks
  obtain ⟨bytes, ⟨-, old, hold, hholds⟩, -, hcurrent, log, hlog, hholds'⟩ :=
    htracks
  exact ⟨hcurrent, old, log, hold, hlog,
    hholds'.bytes_eq.trans hholds.bytes_eq.symm⟩

/-- A commit that comes out has published, whatever happened in between. -/
theorem publication_of_outcome (hb : b.Recoverable)
    (ht : b.transaction? id = some t) (hw : t.IsWriting)
    (hmoves : NoKeyWraps id (start b t) moves)
    (houtcome : ((start b t).run id moves).stage.outcome?
      = some (record, next)) :
    ∃ reopened, Publication b record next reopened
      ((start b t).run id moves) := by
  have htracks := tracks_run hb (tracks_start hb ht hw) hmoves
  cases hstage : ((start b t).run id moves).stage with
  | begun | taken | looked | failed =>
      rw [hstage] at houtcome
      cases houtcome
  | published | closed =>
      rw [hstage] at houtcome
      cases houtcome
      rw [Tracks, hstage] at htracks
      exact htracks.publication

/-- A commit logs what it publishes, and all of what was written until it
looked at the snapshot, exactly if no write came late. -/
theorem logs_what_it_publishes_iff {store store' : Store} {config : Config}
    (hexact : store.Exact) (hformat : config.formatVersion = 1)
    (hopen : openOver store config = (.ok e, store')) {calls : List Call}
    (hcalls : e.NoKeyWraps calls)
    (ht : (e.after calls).transaction? id = some t) (hw : t.IsWriting)
    (hmoves : NoKeyWraps id (start (e.after calls) t) moves)
    (houtcome : ((start (e.after calls) t).run id moves).stage.outcome?
      = some (record, next)) :
    ∃ reopened,
      Publication (e.after calls) record next reopened
        ((start (e.after calls) t).run id moves)
      ∧ ((reopened = next
          ∧ ((start (e.after calls) t).run id moves).written
            = record.instructions)
        ↔ ((start (e.after calls) t).run id moves).late = []) := by
  have hb := (recoverable_of_openOver hexact hformat hopen).after hcalls
  obtain ⟨reopened, h⟩ := publication_of_outcome hb ht hw hmoves houtcome
  exact ⟨reopened, h, h.faithful_iff⟩

end Runs

-- ========================================================= two schedules

/-- A writer has added a table. -/
def addsTable : List Call := [.beginWrite, .addTable ⟨1⟩ "t"]

/-- The writer of `addsTable`. -/
def writer : Transaction :=
  ((fresh.after addsTable).transaction? ⟨1⟩).get (by decide +kernel)

/-- A handle to the table. -/
def table : TableHandle := ⟨⟨⟨1⟩, 0⟩, ⟨0⟩⟩

/-- A new object through the handle. -/
def addsObject : Move :=
  .write table.anchor.generation .tableDetached fun s => do
    let t ← table.resolve s
    return .createObject table.key t.nextObject

/-- The commit takes its steps after the object was added. -/
def inTime : List Move := [addsObject, .commit, .commit, .commit, .commit]

/-- The object is added when the changes were taken. -/
def tooLate : List Move := [.commit, addsObject, .commit, .commit, .commit]

theorem transaction?_writer :
    (fresh.after addsTable).transaction? ⟨1⟩ = some writer :=
  (Option.some_get _).symm

theorem isWriting_writer : writer.IsWriting := ⟨true, by decide +kernel⟩

/-- Adding an object fits while its table has keys. -/
theorem fits_addsObject (c : Committing)
    (hfits : (c.engine.transaction? ⟨1⟩).all (fun t =>
      (t.view.snapshot.table? table.key).all fun u => 0 ≤ u.nextObject.raw)
      = true) : c.Fits ⟨1⟩ addsObject := by
  intro t ht
  exact table.createsNonneg (table.counterFits_of_all hfits ht)

theorem noKeyWraps_inTime :
    NoKeyWraps ⟨1⟩ (start (fresh.after addsTable) writer) inTime :=
  ⟨fits_addsObject _ (by decide +kernel), trivial, trivial, trivial, trivial,
    trivial⟩

theorem noKeyWraps_tooLate :
    NoKeyWraps ⟨1⟩ (start (fresh.after addsTable) writer) tooLate :=
  ⟨trivial, fits_addsObject _ (by decide +kernel), trivial, trivial, trivial,
    trivial⟩

/-- What is written in time is logged and published. -/
theorem logs_what_it_publishes_inTime :
    ∃ record next reopened,
      Publication (fresh.after addsTable) record next reopened
        ((start (fresh.after addsTable) writer).run ⟨1⟩ inTime)
      ∧ reopened = next ∧ record.instructions.length = 2 := by
  have hexact : (Store.memory []).Exact := trivial
  obtain ⟨⟨record, next⟩, houtcome⟩ := Option.isSome_iff_exists.1
    (show ((start (fresh.after addsTable) writer).run ⟨1⟩
      inTime).stage.outcome?.isSome = true by decide +kernel)
  have hcalls : fresh.NoKeyWraps addsTable := ⟨trivial, trivial, trivial⟩
  obtain ⟨reopened, h, hiff⟩ := logs_what_it_publishes_iff hexact rfl
    openOver_nil hcalls transaction?_writer isWriting_writer
    noKeyWraps_inTime houtcome
  have hlate : ((start (fresh.after addsTable) writer).run ⟨1⟩ inTime).late
      = [] := by decide +kernel
  obtain ⟨heq, hwritten⟩ := hiff.2 hlate
  have hlength : ((start (fresh.after addsTable) writer).run ⟨1⟩
      inTime).written.length = 2 := by decide +kernel
  exact ⟨record, next, reopened, h, heq, hwritten ▸ hlength⟩

/-- How many objects the table holds in a snapshot. -/
def objects (s : Snapshot) : Option Nat := (s.table? table.key).map (·.size)

theorem recoverable_addsTable : (fresh.after addsTable).Recoverable := by
  have hexact : (Store.memory []).Exact := trivial
  exact (recoverable_of_openOver hexact rfl openOver_nil).after
    ⟨trivial, trivial, trivial⟩

/-- The commit in which the object is added too late. -/
def disturbed : Committing :=
  (start (fresh.after addsTable) writer).run ⟨1⟩ tooLate

/-- What is written too late is published, and gone when the log is opened
again. -/
theorem late_write_lost :
    ∃ record next reopened,
      disturbed.stage.outcome? = some (record, next)
      ∧ Publication (fresh.after addsTable) record next reopened disturbed
      ∧ objects next = some 1 ∧ objects reopened = some 0
      ∧ ∃ i ∈ disturbed.written, i ∉ record.instructions := by
  obtain ⟨⟨record, next⟩, houtcome⟩ := Option.isSome_iff_exists.1
    (show disturbed.stage.outcome?.isSome = true by decide +kernel)
  have hpublished : ∃ reopened, Publication (fresh.after addsTable) record
      next reopened disturbed :=
    publication_of_outcome recoverable_addsTable transaction?_writer
      isWriting_writer noKeyWraps_tooLate houtcome
  obtain ⟨reopened, h⟩ := hpublished
  have hnext : objects disturbed.engine.current = some 1 := by
    decide +kernel
  rw [h.current_eq] at hnext
  have hreopened : (disturbed.engine.log.bind fun log =>
      (openOver (.memory log.store.bytes) {}).1.toOption.bind
        (objects ·.current)) = some 0 := by decide +kernel
  obtain ⟨-, log, -, -, hlog, -, -, hopens⟩ := h.logged
  obtain ⟨e, hopen, hcurrent⟩ := hopens {}
  rw [hlog, Option.bind_some, hopen] at hreopened
  have hrecord : disturbed.stage.outcome?.all (fun p =>
      decide (.createObject ⟨0⟩ ⟨0⟩ ∉ p.1.instructions)) = true := by
    decide +kernel
  rw [houtcome, Option.all_some] at hrecord
  exact ⟨record, next, reopened, houtcome, h, hnext, hcurrent ▸ hreopened,
    .createObject ⟨0⟩ ⟨0⟩, by decide +kernel, of_decide_eq_true hrecord⟩

end Colonnade.Engine.Committing
