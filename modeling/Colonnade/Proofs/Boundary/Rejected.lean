/-
Calls that are rejected for a null pointer. Most of them have no effect. Six
have: those that ask for the place of the result only after the session has
done its part, where that part is to begin a read transaction, to move one,
to lend out a table that was found, or to add a table, a column or an
object. The caller is told that the call failed, and the session is what the
same call with a place would have made of it (`Request.Acts`).

`Unchanged` compares what a caller can see of two sessions. The calls are
gone through once, by the three ways in which pointers are checked: never,
before the session is asked, and after.

Chain: `Boundary.Calls` for what the session does in between.
-/
import Colonnade.Proofs.Boundary.Calls
import Colonnade.Proofs.Boundary.Opening

namespace Colonnade.Boundary

-- ========================================================== requests

/-- The calls on a session to which pointers are passed. -/
inductive Request where
  | beginRead (place : Export.Place)
  | beginWrite (place : Export.Place)
  | commit (txn : Int64)
  | rollback (txn : Int64)
  | closeTransaction (txn : Int64)
  | advance (txn : Int64) (place : Export.Place)
  | table (txn : Int64) (name : TextArgument) (place : Export.Place)
  | addTable (txn : Int64) (name : TextArgument) (place : Export.Place)
  | addColumn (table : Int64) (name : TextArgument) (code : Int32)
      (nullable : UInt8) (place : Export.Place)
  | createObject (table : Int64) (place : Export.Place)
  | findFirstInt (table col value : Int64) (place : Export.Place)
  | getInt (object col : Int64) (place : Export.Place)
  | setInt (object col value : Int64)
  | setString (object col : Int64) (text : TextArgument)
  | getTimestamp (object col : Int64) (place : Export.Place)
  | setTimestamp (object col ms : Int64)
  | setNull (object col : Int64)

namespace Request

/-- Makes the call; what it answers is left aside. -/
def run : Request → Export Unit
  | beginRead place => do let _ ← Export.beginRead place
  | beginWrite place => do let _ ← Export.beginWrite? place
  | commit txn => do let _ ← Export.commit txn
  | rollback txn => do let _ ← Export.rollback txn
  | closeTransaction txn => do let _ ← Export.closeTransaction txn
  | advance txn place => do let _ ← Export.advance txn place
  | table txn name place => do let _ ← Export.table txn name place
  | addTable txn name place => do let _ ← Export.addTable txn name place
  | addColumn t name code nullable place => do
    let _ ← Export.addColumn t name code nullable place
  | createObject t place => do let _ ← Export.createObject t place
  | findFirstInt t col value place => do
    let _ ← Export.findFirstInt t col value place
  | getInt object col place => do let _ ← Export.getInt object col place
  | setInt object col value => do let _ ← Export.setInt object col value
  | setString object col text => do let _ ← Export.setString object col text
  | getTimestamp object col place => do
    let _ ← Export.getTimestamp object col place
  | setTimestamp object col ms => do
    let _ ← Export.setTimestamp object col ms
  | setNull object col => do let _ ← Export.setNull object col

/-- The same call with a place for what it answers. -/
def placed : Request → Request
  | beginRead _ => beginRead true
  | beginWrite _ => beginWrite true
  | advance txn _ => advance txn true
  | table txn name _ => table txn name true
  | addTable txn name _ => addTable txn name true
  | addColumn t name code nullable _ => addColumn t name code nullable true
  | createObject t _ => createObject t true
  | findFirstInt t col value _ => findFirstInt t col value true
  | getInt object col _ => getInt object col true
  | getTimestamp object col _ => getTimestamp object col true
  | q => q

end Request

/-- Whether a call on a session succeeds with an answer of some kind. -/
def Succeeds {α : Type} (call : Call α) (s : Session) (P : α → Prop) :
    Prop :=
  ∃ a s', call.run s = .ok a s' ∧ P a

/-- Whether the session does its part of a call, and changes by it, before
the missing place for the answer is noticed. -/
def Request.Acts (s : Session) : Request → Prop
  | beginRead place => place = false
  | advance txn place =>
    place = false ∧ Succeeds (Session.advance txn) s (· = true)
  | table txn name place =>
    place = false ∧ ∃ text lent found,
      (Export.nameArgument name).run s = .ok text s
        ∧ s.transactions.get? txn = some lent
        ∧ s.engine.table? lent.id text = .ok (some found)
  | addTable txn name place =>
    place = false ∧ Succeeds
      (do Session.addTable txn (← Export.nameArgument name)) s fun _ => True
  | addColumn t name code nullable place =>
    place = false ∧ Succeeds
      (do Session.addColumn t (← Export.nameArgument name) code
            (truthOfByte nullable)) s fun _ => True
  | createObject t place =>
    place = false ∧ Succeeds (Session.createObject t) s fun _ => True
  | _ => False

-- ============================================================ the state

/-- What a transaction sees, what it has pending, and the version it is
at. -/
def Session.sees (s : Session) (id : TransactionId) :
    Option (Snapshot × Array Instruction × Version) :=
  (s.engine.transaction? id).map fun t =>
    (t.view.snapshot, t.view.changes, t.pinned)

/-- Whether two sessions are the same to a caller. -/
structure Unchanged (s s' : Session) : Prop where
  sees_eq : ∀ id, s'.sees id = s.sees id
  version_eq : s'.engine.version = s.engine.version
  liveVersions_eq : s'.engine.liveVersions = s.engine.liveVersions
  oldestPinned_eq : s'.engine.oldestPinned? = s.engine.oldestPinned?
  transactions_eq : s'.transactions = s.transactions
  tables_eq : s'.tables = s.tables
  objects_eq : s'.objects = s.objects

variable {α β : Type} {s s' : Session}

/-- A session that is untouched is unchanged. -/
theorem Session.Untouched.unchanged (h : s.Untouched s') : Unchanged s s' where
  sees_eq id := by
    unfold Session.sees
    rw [h.engine.transaction?_eq id]
    rfl
  version_eq := congrArg Snapshot.version h.engine.current_eq
  liveVersions_eq := congrArg Pins.live h.engine.pins_eq
  oldestPinned_eq := congrArg Pins.oldest? h.engine.pins_eq
  transactions_eq := h.transactions_eq
  tables_eq := h.tables_eq
  objects_eq := h.objects_eq

/-- A transaction that is seen to be the same has the same changes, and is
at the same version. -/
theorem Unchanged.transaction_eq (h : Unchanged s s') {id : TransactionId}
    {t t' : Transaction} (ht : s.engine.transaction? id = some t)
    (ht' : s'.engine.transaction? id = some t') :
    t'.view.changes = t.view.changes ∧ t'.pinned = t.pinned := by
  have hsees := h.sees_eq id
  unfold Session.sees at hsees
  rw [ht, ht'] at hsees
  simp only [Option.map_some, Option.some.injEq, Prod.mk.injEq] at hsees
  exact hsees.2

-- ======================================================= three ways

namespace Export

variable {call : Call α} {place : Place} {argument asked : String}
  {after : Option Session}

/-- An export without an answer comes out as the one whose answer it drops. -/
theorem run_discard (x : Export α) (s : Option Session) :
    (do let _ ← x : Export Unit).run s
      = match x.run s with
        | .ok _ s' => .ok () s'
        | .error f s' => .error f s' := by
  rw [EStateM.run_bind]
  cases x.run s <;> rfl

/-- A call on a session that is there comes out in it. -/
theorem run_onSession (call : Call α) (s : Session) :
    (onSession call).run (some s)
      = match call.run s with
        | .ok a s' => .ok a (some s')
        | .error f s' => .error f (some s') := rfl

/-- With a place the answer of the session is passed on, and without one
all that has changed is that nobody gets it. -/
theorem run_thenPlace (call : Call α) (place : Place) (argument : String)
    (s : Session) :
    (thenPlace call place argument).run (some s)
      = match call.run s with
        | .ok a s' =>
          if place then .ok a (some s')
          else .error (.nullPointer argument) (some s')
        | .error f s' => .error f (some s') := by
  unfold thenPlace
  rw [EStateM.run_bind, run_onSession]
  cases call.run s with
  | ok a s' => cases place <;> rfl
  | error f s' => rfl

/-- A name that is looked at leaves the session as it is. -/
theorem run_nameArgument (name : TextArgument) (s : Session) :
    (∃ text, (nameArgument name).run s = .ok text s)
      ∨ ∃ f, (nameArgument name).run s = .error f s := by
  unfold nameArgument
  cases name with
  | none => exact .inr ⟨_, rfl⟩
  | some bytes =>
      dsimp only
      rw [EStateM.run_bind, EStateM.run_get]
      dsimp only
      unfold Session.ofFault
      cases TextArgument.toText? (some bytes) s.config.maxString with
      | error f => exact .inr ⟨f, rfl⟩
      | ok text =>
          cases text with
          | none => exact .inr ⟨_, rfl⟩
          | some text => exact .inl ⟨text, rfl⟩

/-- A call with a name fails for a null pointer only before it does
anything. -/
theorem named_rejected {f : String → Call α} (hf : ∀ text, NullFree (f text))
    {name : TextArgument}
    (h : (do f (← nameArgument name) : Call α).run s
      = .error (.nullPointer argument) s') : s' = s := by
  rw [EStateM.run_bind] at h
  rcases run_nameArgument name s with ⟨text, hrun⟩ | ⟨fault, hrun⟩
  · rw [hrun] at h
    exact absurd h (hf text s argument s')
  · rw [hrun] at h
    cases h
    rfl

/-- A call with a name that succeeds has gone on with the text of it. -/
theorem named_succeeds {f : String → Call α} {name : TextArgument} {a : α}
    (h : (do f (← nameArgument name) : Call α).run s = .ok a s') :
    ∃ text, (nameArgument name).run s = .ok text s
      ∧ (f text).run s = .ok a s' := by
  rw [EStateM.run_bind] at h
  rcases run_nameArgument name s with ⟨text, hrun⟩ | ⟨fault, hrun⟩
  · rw [hrun] at h
    exact ⟨text, hrun, h⟩
  · rw [hrun] at h
    cases h

end Export

-- ==================================================== what the parts do

/-- One more entry makes an arena larger by one. -/
theorem Arena.size_insert (a : Arena α) (x : α) :
    (a.insert x).2.size = a.size + 1 := by
  unfold Arena.insert
  split <;> rfl

/-- What only looks leaves the session untouched. -/
theorem Looks.untouched {call : Call α} (h : Looks call) {a : α}
    (hrun : call.run s = .ok a s') : s.Untouched s' := by
  have hends := h.spares s s (.refl s)
  rw [hrun] at hends
  exact hends

/-- An arena that has grown is another one. -/
theorem Arena.ne_of_size {a a' : Arena α} (h : a'.size = a.size + 1) :
    a' ≠ a := by
  rintro rfl
  exact absurd h (Nat.ne_of_lt (Nat.lt_succ_self _))

/-- Looking leaves everything but the engine as it is. -/
theorem Looks.keeps {γ : Type} {call : Call α} (h : Looks call)
    {part : Session → γ}
    (hpart : ∀ s s' : Session, s.Untouched s' → part s' = part s) (v : γ) :
    Edit.Preserves (part · = v) call := by
  rintro s rfl
  have hends := h.spares s s (.refl s)
  cases hrun : call.run s with
  | ok a s' =>
      rw [hrun] at hends
      exact hpart s s' hends
  | error f s' =>
      rw [hrun] at hends
      exact hpart s s' hends

/-- So does a step of the engine. -/
theorem onEngine_keeps {γ : Type} (step : Edit Engine α)
    {part : Session → γ}
    (hpart : ∀ (s : Session) engine, part { s with engine } = part s)
    (v : γ) : Edit.Preserves (part · = v) (Session.onEngine step) := by
  rintro s rfl
  unfold Session.onEngine
  dsimp only [EStateM.run]
  cases step s.engine with
  | ok a engine => exact hpart s engine
  | error err engine => exact hpart s engine

/-- Doing one thing after the other succeeds where both do. -/
theorem run_bind_eq_ok {x : Call α} {f : α → Call β} {b : β} :
    (x >>= f).run s = .ok b s'
      ↔ ∃ a between, x.run s = .ok a between
        ∧ (f a).run between = .ok b s' := by
  rw [EStateM.run_bind]
  cases hx : x.run s with
  | ok a between =>
      constructor
      · exact fun h => ⟨a, between, rfl, h⟩
      · rintro ⟨_, _, ha, h⟩
        cases ha
        exact h
  | error f between => exact ⟨nofun, fun ⟨_, _, ha, _⟩ => nomatch ha⟩

/-- A call on the engine succeeds if its step does. -/
theorem run_onEngine_eq_ok {step : Edit Engine α} {a : α} :
    (Session.onEngine step).run s = .ok a s'
      ↔ ∃ engine, Edit.Gives step s.engine a engine
        ∧ { s with engine } = s' := by
  unfold Session.onEngine Edit.Gives
  dsimp only [EStateM.run]
  cases step s.engine with
  | ok b engine =>
      constructor
      · intro h
        cases h
        exact ⟨engine, rfl, rfl⟩
      · rintro ⟨_, hgives, rfl⟩
        cases hgives
        rfl
  | error err engine => exact ⟨nofun, fun ⟨_, h, _⟩ => nomatch h⟩

namespace Session

/-- Beginning to read lends one more transaction. -/
theorem beginRead_lends (s : Session) :
    ∃ h s', beginRead.run s = .ok h s'
      ∧ s'.transactions.size = s.transactions.size + 1 :=
  ⟨_, _, rfl, Arena.size_insert ..⟩

/-- Adding a table lends one more table. -/
theorem addTable_lends (s : Session) (txn : Int64) (name : String) :
    Edit.Ends (·.tables = s.tables) (addTable txn name)
      (fun _ s' => s'.tables.size = s.tables.size + 1) (fun _ => True) := by
  refine Edit.Ends.bind (((looks_transactionOf .write txn).keeps
    (fun _ _ h => h.tables_eq) _).weaken (fun _ h => h) (fun _ _ h => h)
    fun _ _ => trivial) fun lent => ?_
  refine Edit.Ends.bind ((onEngine_keeps _ (fun _ _ => rfl) _).weaken
    (fun _ h => h) (fun _ _ h => h) fun _ _ => trivial) fun t => ?_
  rintro s' hs'
  show (s'.tables.insert t).2.size = _
  rw [Arena.size_insert, hs']

/-- Creating an object lends one more object. -/
theorem createObject_lends (s : Session) (h : Int64) :
    Edit.Ends (·.objects = s.objects) (createObject h)
      (fun _ s' => s'.objects.size = s.objects.size + 1)
      (fun _ => True) := by
  refine Edit.Ends.bind (((looks_liveTable h).keeps
    (fun _ _ h => h.objects_eq) _).weaken (fun _ h => h) (fun _ _ h => h)
    fun _ _ => trivial) fun t => ?_
  refine Edit.Ends.bind ((onEngine_keeps _ (fun _ _ => rfl) _).weaken
    (fun _ h => h) (fun _ _ h => h) fun _ _ => trivial) fun o => ?_
  rintro s' hs'
  show (s'.objects.insert o).2.size = _
  rw [Arena.size_insert, hs']

/-- The table with a name is lent out if it is found, and that is all. -/
theorem run_findTable (txn : Int64) (name : String) (s : Session) :
    (findTable txn name).run s
      = match s.transactions.get? txn with
        | some lent =>
          match s.engine.table? lent.id name with
          | .ok found =>
            match found with
            | some found =>
              .ok (s.tables.insert found).1
                { s with tables := (s.tables.insert found).2 }
            | none => .ok notFound s
          | .error err => .error (.core err) s
        | none => .error (.staleHandle .transaction txn) s := by
  unfold findTable transaction
  rw [EStateM.run_bind, EStateM.run_bind, EStateM.run_get]
  dsimp only
  cases s.transactions.get? txn with
  | none => rfl
  | some lent =>
      show (do
        match ← ofCore (s.engine.table? lent.id name) with
        | some found => lendTable found
        | none => return notFound : Call Int64).run s = _
      dsimp only
      cases s.engine.table? lent.id name with
      | error err => rfl
      | ok found => cases found <;> rfl

/-- A column that was added is one more change pending. -/
theorem addColumn_seen {h : Int64} {name : String} {code : Int32}
    {nullable : Bool} {col : Int64}
    (hrun : (addColumn h name code nullable).run s = .ok col s') :
    ¬ Unchanged s s' := by
  unfold addColumn at hrun
  cases hcode : ColumnType.ofCode? code.toInt with
  | none =>
      rw [hcode] at hrun
      cases hrun
  | some type =>
  rw [hcode] at hrun
  simp only [run_bind_eq_ok, run_onEngine_eq_ok] at hrun
  obtain ⟨table, between, hlive, key, _, ⟨engine, hadd, rfl⟩, hdone⟩ := hrun
  cases hdone
  have hlook := (looks_liveTable h).untouched hlive
  obtain ⟨i, after, hwrite, hkey⟩ := Edit.gives_bind.1 hadd
  obtain ⟨t, view, ht, hview, rfl⟩ :=
    Handle.gives_write (h := .table table) hwrite
  have hengine : between.engine.withTransaction table.anchor.transaction
      { t with view } = engine := by
    split at hkey
    · cases hkey
      rfl
    · cases hkey
  subst hengine
  rcases View.write_cases hview with ⟨j, -, hwrote⟩ | ⟨-, hno⟩
  · intro hsame
    have hbefore : s.engine.transaction? table.anchor.transaction = some t :=
      (hlook.engine.transaction?_eq _).symm.trans ht
    have hafter := (Engine.transaction?_withTransaction
      (e := between.engine) (t := { t with view })
      table.anchor.transaction).trans (if_pos rfl)
    have hchanges := (hsame.transaction_eq hbefore hafter).1
    rw [hwrote.changes_eq] at hchanges
    exact absurd (congrArg Array.size hchanges) (by simp)
  · exact absurd rfl (hno i)

/-- A move is seen, and only a move. -/
theorem advance_seen {h : Int64} {moved : Bool}
    (hrun : (advance h).run s = .ok moved s') :
    Unchanged s s' ↔ ¬ moved = true := by
  simp only [advance, run_bind_eq_ok, run_onEngine_eq_ok] at hrun
  obtain ⟨lent, between, hkind, engine, hmove, rfl⟩ := hrun
  have hlook := (looks_transactionOf .read h).untouched hkind
  unfold Edit.Gives at hmove
  cases ht : between.engine.transaction? lent.id with
  | none =>
      obtain ⟨err, hfails⟩ := Engine.run_advance_none ht
      rw [hfails] at hmove
      cases hmove
  | some t =>
  by_cases hpinned : between.engine.version = t.pinned
  · rw [Engine.run_advance_still ht hpinned] at hmove
    cases hmove
    exact ⟨fun _ => nofun, fun _ => hlook.unchanged⟩
  · rw [Engine.run_advance_moved ht hpinned] at hmove
    cases hmove
    refine ⟨fun hsame => ?_, fun hstill => absurd rfl hstill⟩
    have hbefore : s.engine.transaction? lent.id = some t :=
      (hlook.engine.transaction?_eq _).symm.trans ht
    have hafter : (between.engine.advancedTo lent.id t).transaction? lent.id
        = some (between.engine.moved t) :=
      (Engine.transaction?_withTransaction _).trans (if_pos rfl)
    exact absurd (hsame.transaction_eq hbefore hafter).2 hpinned

end Session

-- =================================================== what comes of it

/-- Whether a call on a session has an effect exactly if a condition holds,
in which case it succeeds. -/
structure ActsIf (call : Call α) (s : Session) (acts : Prop) : Prop where
  early : ∀ argument s', call.run s = .error (.nullPointer argument) s' →
    s' = s
  succeeds : acts → ∃ a s', call.run s = .ok a s'
  unchanged_iff : ∀ a s', call.run s = .ok a s' → (Unchanged s s' ↔ ¬ acts)

namespace ActsIf

/-- What only looks never acts. -/
theorem looks {call : Call α} (h : Looks call) : ActsIf call s False where
  early argument s' hrun := absurd hrun (h.nullFree s argument s')
  succeeds := False.elim
  unchanged_iff a s' hrun := by
    simpa using (h.untouched hrun).unchanged

/-- A call that is seen whenever it succeeds. -/
theorem seen {call : Call α}
    (hearly : ∀ argument s', call.run s = .error (.nullPointer argument) s' →
      s' = s)
    (hseen : ∀ a s', call.run s = .ok a s' → ¬ Unchanged s s') :
    ActsIf call s (Succeeds call s fun _ => True) where
  early := hearly
  succeeds := fun ⟨a, s', hrun, _⟩ => ⟨a, s', hrun⟩
  unchanged_iff a s' hrun :=
    iff_of_false (hseen a s' hrun) (not_not_intro ⟨a, s', hrun, trivial⟩)

/-- The same for one that takes a name. -/
theorem named_seen {f : String → Call α} (hf : ∀ text, NullFree (f text))
    {name : TextArgument}
    (hseen : ∀ text a s', (f text).run s = .ok a s' → ¬ Unchanged s s') :
    ActsIf (do f (← Export.nameArgument name)) s
      (Succeeds (do f (← Export.nameArgument name)) s fun _ => True) := by
  refine seen (fun _ _ => Export.named_rejected hf) fun a s' hrun => ?_
  obtain ⟨text, -, hrun⟩ := Export.named_succeeds hrun
  exact hseen text a s' hrun

end ActsIf

namespace Session

/-- Beginning to read always acts. -/
theorem actsIf_beginRead (s : Session) : ActsIf beginRead s True where
  early argument s' hrun := absurd hrun (nullFree_beginRead s argument s')
  succeeds _ := by
    obtain ⟨h, s', hrun, -⟩ := beginRead_lends s
    exact ⟨h, s', hrun⟩
  unchanged_iff a s' hrun := by
    obtain ⟨h, t, hrun', hsize⟩ := beginRead_lends s
    rw [hrun] at hrun'
    cases hrun'
    exact iff_of_false
      (fun hsame => Arena.ne_of_size hsize hsame.transactions_eq)
      (not_not_intro trivial)

/-- Advancing acts if there is another version to go to. -/
theorem actsIf_advance (s : Session) (txn : Int64) :
    ActsIf (byteOfTruth <$> advance txn) s
      (Succeeds (advance txn) s (· = true)) := by
  have hmap (a : UInt8) (s' : Session) :
      (byteOfTruth <$> advance txn).run s = .ok a s'
        ↔ ∃ moved, (advance txn).run s = .ok moved s'
          ∧ byteOfTruth moved = a := by
    rw [← bind_pure_comp, run_bind_eq_ok]
    constructor
    · rintro ⟨moved, between, hrun, hdone⟩
      cases hdone
      exact ⟨moved, hrun, rfl⟩
    · rintro ⟨moved, hrun, rfl⟩
      exact ⟨moved, s', hrun, rfl⟩
  refine ⟨fun argument s' hrun => ?_, ?_, fun a s' hrun => ?_⟩
  · exact absurd hrun ((nullFree_advance txn).map _ s argument s')
  · rintro ⟨moved, s', hrun, -⟩
    exact ⟨_, s', (hmap _ _).2 ⟨moved, hrun, rfl⟩⟩
  · obtain ⟨moved, hmove, -⟩ := (hmap _ _).1 hrun
    refine (advance_seen hmove).trans (not_congr ?_)
    constructor
    · exact fun hmoved => ⟨moved, s', hmove, hmoved⟩
    · rintro ⟨moved', s'', hmove', hmoved⟩
      rw [hmove] at hmove'
      cases hmove'
      exact hmoved

/-- Finding a table acts if there is one to lend. -/
theorem actsIf_findTable (s : Session) (txn : Int64) (name : TextArgument) :
    ActsIf (do findTable txn (← Export.nameArgument name)) s
      (∃ text lent found, (Export.nameArgument name).run s = .ok text s
        ∧ s.transactions.get? txn = some lent
        ∧ s.engine.table? lent.id text = .ok (some found)) where
  early argument s' := Export.named_rejected (nullFree_findTable txn)
  succeeds := by
    rintro ⟨text, lent, found, hname, hlent, hfound⟩
    have hrun := run_findTable txn text s
    rw [hlent] at hrun
    dsimp only at hrun
    rw [hfound] at hrun
    exact ⟨_, _, run_bind_eq_ok.2 ⟨text, s, hname, hrun⟩⟩
  unchanged_iff h s' hrun := by
    obtain ⟨text, hname, hrun⟩ := Export.named_succeeds hrun
    rw [run_findTable] at hrun
    cases hlent : s.transactions.get? txn with
    | none =>
        rw [hlent] at hrun
        cases hrun
    | some lent =>
    rw [hlent] at hrun
    dsimp only at hrun
    rcases hfound : s.engine.table? lent.id text with err | _ | found
    all_goals rw [hfound] at hrun; cases hrun
    · refine iff_of_true (Session.Untouched.refl s).unchanged ?_
      rintro ⟨text', lent', found, hname', hlent', hfound'⟩
      rw [hname] at hname'
      cases hname'
      cases hlent'
      rw [hfound] at hfound'
      cases hfound'
    · exact iff_of_false
        (fun hsame => Arena.ne_of_size (Arena.size_insert ..) hsame.tables_eq)
        (not_not_intro ⟨text, lent, found, hname, rfl, hfound⟩)

/-- Adding a table acts if it succeeds. -/
theorem actsIf_addTable (s : Session) (txn : Int64) (name : TextArgument) :
    ActsIf (do addTable txn (← Export.nameArgument name)) s
      (Succeeds (do addTable txn (← Export.nameArgument name)) s
        fun _ => True) := by
  refine .named_seen (nullFree_addTable txn) fun text h s' hrun hsame => ?_
  have hends := addTable_lends s txn text s rfl
  rw [hrun] at hends
  exact Arena.ne_of_size hends hsame.tables_eq

/-- Creating an object acts if it succeeds. -/
theorem actsIf_createObject (s : Session) (h : Int64) :
    ActsIf (createObject h) s
      (Succeeds (createObject h) s fun _ => True) := by
  refine .seen (fun argument s' hrun => ?_) fun o s' hrun hsame => ?_
  · exact absurd hrun (nullFree_createObject h s argument s')
  have hends := createObject_lends s h s rfl
  rw [hrun] at hends
  exact Arena.ne_of_size hends hsame.objects_eq

end Session

-- ========================================================== rejections

/-- Whether a rejection leaves what is unchanged unless the call acts, in
which case it leaves what the call that succeeds does. -/
def Leaves (s : Session) (acts : Prop) (placed : Export Unit)
    (after : Option Session) : Prop :=
  ∃ s', after = some s' ∧ (Unchanged s s' ↔ ¬ acts)
    ∧ (acts → placed.run (some s) = .ok () (some s'))

/-- What does not act leaves the session. -/
theorem Leaves.idle {acts : Prop} (hidle : ¬ acts) (placed : Export Unit) :
    Leaves s acts placed (some s) :=
  ⟨s, rfl, iff_of_true (Session.Untouched.refl s).unchanged hidle,
    fun hacts => absurd hacts hidle⟩

variable {asked : String} {after : Option Session}

/-- A call that asks for the place of its answer at the end is rejected
with all that it does, or before it does anything. -/
theorem ActsIf.rejected {call : Call α} {acts : Prop}
    (h : ActsIf call s acts) {place : Export.Place} {argument : String}
    (hrun : (do let _ ← Export.thenPlace call place argument :
        Export Unit).run (some s) = .error (.nullPointer asked) after) :
    Leaves s (place = false ∧ acts)
      (do let _ ← Export.thenPlace call true argument) after := by
  rw [Export.run_discard, Export.run_thenPlace] at hrun
  cases hcall : call.run s with
  | ok a s' =>
      rw [hcall] at hrun
      cases place with
      | true => cases hrun
      | false =>
          cases hrun
          refine ⟨s', rfl, ?_, fun _ => ?_⟩
          · simpa using h.unchanged_iff a s' hcall
          · rw [Export.run_discard, Export.run_thenPlace, hcall]
            rfl
  | error f s' =>
      rw [hcall] at hrun
      cases hrun
      obtain rfl : s' = s := h.early asked s' hcall
      refine .idle (fun hacts => ?_) _
      obtain ⟨a, t, hok⟩ := h.succeeds hacts.2
      rw [hcall] at hok
      cases hok

/-- A read is rejected with nothing done. -/
theorem Looks.rejected {call : Call α} (h : Looks call)
    {place : Export.Place} {argument : String}
    (hrun : (do let _ ← Export.thenPlace call place argument :
        Export Unit).run (some s) = .error (.nullPointer asked) after) :
    Leaves s False (do let _ ← Export.thenPlace call true argument)
      after := by
  have hleaves := (ActsIf.looks (s := s) h).rejected hrun
  rwa [and_false] at hleaves

/-- A call that needs no place is not rejected at all. -/
theorem NullFree.accepted {call : Call α} (h : NullFree call) :
    (do let _ ← Export.onSession call : Export Unit).run (some s)
      ≠ .error (.nullPointer asked) after := by
  rw [Export.run_discard, Export.run_onSession]
  cases hcall : call.run s with
  | ok a s' => nofun
  | error f s' =>
      intro hrun
      cases hrun
      exact h s asked s' hcall

/-- A write transaction begins only where there is a place for it. -/
theorem rejected_beginWrite {place : Export.Place}
    (hrun : (do let _ ← Export.beginWrite? place : Export Unit).run (some s)
      = .error (.nullPointer asked) after) : after = some s := by
  cases place with
  | false =>
      cases hrun
      rfl
  | true => exact absurd hrun Session.nullFree_beginWrite?.accepted

/-- What a rejected call leaves behind. -/
theorem Request.rejected (q : Request)
    (hrun : q.run.run (some s) = .error (.nullPointer asked) after) :
    Leaves s (q.Acts s) q.placed.run after := by
  cases q with
  | beginRead place =>
      have hleaves := (Session.actsIf_beginRead s).rejected hrun
      rwa [and_true] at hleaves
  | beginWrite place =>
      obtain rfl := rejected_beginWrite hrun
      exact .idle id _
  | advance txn place => exact (Session.actsIf_advance s txn).rejected hrun
  | table txn name place =>
      exact (Session.actsIf_findTable s txn name).rejected hrun
  | addTable txn name place =>
      exact (Session.actsIf_addTable s txn name).rejected hrun
  | addColumn t name code nullable place =>
      have hacts : ActsIf (do
          Session.addColumn t (← Export.nameArgument name) code
            (truthOfByte nullable)) s _ :=
        .named_seen
          (Session.nullFree_addColumn t · code (truthOfByte nullable))
          fun text _ _ => Session.addColumn_seen
      exact hacts.rejected hrun
  | createObject t place =>
      exact (Session.actsIf_createObject s t).rejected hrun
  | findFirstInt t col value place =>
      exact (Session.looks_findFirstInt t col value).rejected hrun
  | getInt object col place =>
      exact (Session.looks_getInt object col).rejected hrun
  | getTimestamp object col place =>
      exact (Session.looks_getTimestamp object col).rejected hrun
  -- these have no place for an answer
  | commit txn | rollback txn =>
      exact absurd hrun (Session.nullFree_endWrite txn _).accepted
  | closeTransaction txn =>
      exact absurd hrun (Session.nullFree_close txn).accepted
  | setInt object col value =>
      exact absurd hrun (Session.nullFree_setTyped object col _ _).accepted
  | setTimestamp object col ms =>
      exact absurd hrun (Session.nullFree_setTyped object col _ _).accepted
  | setString object col text =>
      exact absurd hrun (Session.nullFree_setString object col text).accepted
  | setNull object col =>
      exact absurd hrun (Session.nullFree_setNull object col).accepted

/-- Without a session every call is rejected, and there is nothing to
change. -/
theorem Request.run_none (q : Request) :
    ∃ asked, q.run.run none = .error (.nullPointer asked) none := by
  cases q with
  | beginWrite place => cases place <;> exact ⟨_, rfl⟩
  | _ => exact ⟨_, rfl⟩

/-- A call that is rejected for a null pointer leaves its session unchanged
unless it is one of the six, lacks only the place for its answer, and has
done its part; then the session is the one that the call leaves when it
succeeds. Opening a session leaves every engine of the host as it was. -/
theorem rejected_unchanged_iff (q : Request) :
    (∀ (s : Session) (asked : String) (after : Option Session),
      q.run.run (some s) = .error (.nullPointer asked) after →
        ∃ s', after = some s' ∧ (Unchanged s s' ↔ ¬ q.Acts s)
          ∧ (q.Acts s → q.placed.run.run (some s) = .ok () (some s')))
    ∧ (∃ asked, q.run.run none = .error (.nullPointer asked) none)
    ∧ ∀ (h h' : Host) (place : Bool) (path : Option Bytes)
        (asked : String),
      (HostedSession.exportInMemory place).run h
          = .ok (.error (.nullPointer asked)) h'
        ∨ (HostedSession.exportDirectory path place).run h
          = .ok (.error (.nullPointer asked)) h' →
      h.Spares h' := by
  refine ⟨fun s asked after hrun => q.rejected hrun, q.run_none, ?_⟩
  rintro h h' place path asked (hrun | hrun)
  · have hends := HostedSession.rejects_exportInMemory place h (.refl h)
    rw [hrun] at hends
    exact hends
  · have hends := HostedSession.rejects_exportDirectory path place h (.refl h)
    rw [hrun] at hends
    exact hends

/-- Beginning to read with no place for the handle is one of the requests that
are rejected and change the session. -/
theorem rejected_unchanged_iff_beginRead :
    ∃ s', (Request.beginRead false).run.run (some (.openInMemory {}))
        = .error (.nullPointer "out_txn") (some s')
      ∧ ¬ Unchanged (.openInMemory {}) s' := by
  obtain ⟨s', hafter, hiff, -⟩ := (rejected_unchanged_iff
    (.beginRead false)).1 (.openInMemory {}) "out_txn" _ rfl
  exact ⟨s', congrArg _ hafter, fun hsame => hiff.1 hsame rfl⟩

/-- A read transaction begins although there is no place for its handle,
and its version stays pinned. -/
theorem beginRead_rejected_pins :
    ∃ s', (Export.beginRead false).run (some (.openInMemory {}))
        = .error (.nullPointer "out_txn") (some s')
      ∧ (Session.openInMemory {}).engine.oldestPinned? = none
      ∧ s'.engine.oldestPinned? = some .initial
      ∧ s'.transactions.size = 1 :=
  ⟨_, rfl, by decide +kernel, by decide +kernel, rfl⟩

end Colonnade.Boundary
