/-
What a write transaction finds after its end. There are seven lookups, by
name, by key and by handle; each goes by the snapshot of the view, whatever
has become of the transaction, so that one definition says how any snapshot
answers any of them.

A writer that was rolled back, or whose commit failed, keeps its working copy
in the view. So its lookups go on answering from there. That agrees with the
version that it started from exactly if, of tables and objects, it had taken
away all that it made, and nothing else: keys are not given out twice, and so
a table that was made again under its old name is another table.

Chain: `Snapshot.Balance` has what the working copy holds, `Engine.Ended` why
nothing changes it any more.
-/
import Colonnade.Proofs.Engine.Ended
import Colonnade.Proofs.Engine.Imports
import Colonnade.Proofs.Snapshot.Balance

namespace Colonnade

open Snapshot

-- ============================================================== lookups

/-- A question to a transaction, put by name, key or handle. -/
inductive Lookup where
  | table (name : String)
  | requireTable (name : String)
  | tableByKey (key : TableKey)
  | hasTable (name : String)
  | tableNames
  | importTable (h : TableHandle)
  | importObject (h : ObjectHandle)

/-- What is found, apart from the generation that handles are tied to. -/
inductive Found where
  | table (key : Option TableKey)
  | flag (there : Bool)
  | names (names : List String)
  | object (keys : Option (TableKey × ObjectKey))
deriving DecidableEq

namespace Lookup

/-- Puts the question to a transaction. -/
def ask (e : Engine) (id : TransactionId) : Lookup → Except Error Found
  | table name => do return .table ((← e.table? id name).map (·.key))
  | requireTable name => do
    return .table (some (← e.requireTable id name).key)
  | tableByKey key => do return .table ((← e.tableByKey? id key).map (·.key))
  | hasTable name => do return .flag (← e.hasTable id name)
  | tableNames => do return .names (← e.tableNames id)
  | importTable h => do return .table ((← e.importTable? id h).map (·.key))
  | importObject h => do
    return .object ((← e.importObject? id h).map fun o => (o.table, o.key))

/-- What a snapshot has for an answer. -/
def answer (s : Snapshot) : Lookup → Except Error Found
  | table name => .ok (.table ((s.tableNamed? name).map (·.key)))
  | requireTable name =>
    match s.tableNamed? name with
    | some t => .ok (.table (some t.key))
    | none => .error (.classNotFound name)
  | tableByKey key => .ok (.table ((s.table? key).map fun _ => key))
  | hasTable name => .ok (.flag (s.tableNamed? name).isSome)
  | tableNames => .ok (.names s.tableNames)
  | importTable h => .ok (.table ((s.table? h.key).map fun _ => h.key))
  | importObject h =>
    .ok (.object (if s.hasObject h.table h.key then some (h.table, h.key)
      else none))

variable {e : Engine} {id : TransactionId} {t : Transaction}
  {s s' : Snapshot}

/-- A transaction answers from the snapshot of its view. -/
theorem ask_eq (ht : e.transaction? id = some t) (l : Lookup) :
    l.ask e id = l.answer t.view.snapshot := by
  have hkey (key : TableKey) :
      e.tableByKey? id key = .ok ((t.view.snapshot.table? key).map
        fun _ => ⟨⟨id, t.view.generation⟩, key⟩) :=
    Engine.lookup_of ht _
  have hobject (h : ObjectHandle) :
      e.importObject? id h
        = .ok (if t.view.snapshot.hasObject h.table h.key then
          some ⟨⟨id, t.view.generation⟩, h.table, h.key⟩ else none) :=
    Engine.lookup_of ht _
  cases l with
  | table name =>
      rw [ask, Engine.table?_of ht]
      show Except.ok (Found.table _) = .ok _
      rw [Option.map_map]
      rfl
  | requireTable name =>
      rw [ask, Engine.requireTable, Engine.table?_of ht]
      cases hname : t.view.snapshot.tableNamed? name with
      | none =>
          simp only [answer, hname]
          rfl
      | some u =>
          simp only [answer, hname]
          rfl
  | tableByKey key =>
      rw [ask, hkey]
      show Except.ok (Found.table _) = .ok _
      rw [Option.map_map]
      rfl
  | hasTable name =>
      rw [ask, Engine.hasTable_of ht]
      rfl
  | tableNames =>
      rw [ask, Engine.tableNames, Engine.snapshotOf_eq_ok.2 ⟨t, ht, rfl⟩]
      rfl
  | importTable h =>
      rw [ask, Engine.importTable?, hkey]
      show Except.ok (Found.table _) = .ok _
      rw [Option.map_map]
      rfl
  | importObject h =>
      rw [ask, hobject]
      show Except.ok (Found.object (Option.map _ (ite _ _ _))) = .ok _
      rw [apply_ite (Option.map _)]
      rfl

-- ================================================ answers and contents

/-- A name is answered with the key that the index has for it. -/
theorem key_of_tableNamed? (hs : s.Keyed) (name : String) :
    (s.tableNamed? name).map (·.key) = s.names[name]? := by
  unfold Snapshot.tableNamed?
  cases hname : s.names[name]? with
  | none => rfl
  | some k =>
      obtain ⟨t, ht, -⟩ := (hs.aligned.names_iff name k).1 hname
      show (s.table? k).map _ = _
      rw [ht, Option.map_some, hs.formed.key_eq k t ht]

theorem hasObject_iff {table : TableKey} {key : ObjectKey} :
    s.hasObject table key = true ↔ s.Holds (.object table key) := by
  unfold Snapshot.hasObject Snapshot.Holds
  exact Option.any_eq_true ..

/-- Two snapshots answer alike exactly if they have the same tables and
objects. -/
theorem answer_eq_iff (hs : s.Keyed) (hs' : s'.Keyed) :
    (∀ l : Lookup, l.answer s' = l.answer s)
      ↔ ∀ x : Entity, x.Listed → (s'.Holds x ↔ s.Holds x) := by
  constructor
  · intro hsame x hlisted
    cases x with
    | column => exact hlisted.elim
    | table key name =>
        -- a table is told by looking its name up, an object by importing it
        have hname := hsame (.table name)
        simp only [answer, key_of_tableNamed? hs, key_of_tableNamed? hs',
          Except.ok.injEq, Found.table.injEq] at hname
        exact (hs'.aligned.names_iff name key).symm.trans
          (hname ▸ hs.aligned.names_iff name key)
    | object table key =>
        have hobject := hsame (.importObject ⟨default, table, key⟩)
        rw [← hasObject_iff, ← hasObject_iff]
        cases h : s.hasObject table key <;>
          cases h' : s'.hasObject table key <;> simp_all [answer]
  · intro hsame l
    have hname (name : String) : s'.names[name]? = s.names[name]? := by
      refine Option.ext fun key => ?_
      rw [hs'.aligned.names_iff, hs.aligned.names_iff]
      exact hsame (.table key name) trivial
    -- the names are listed in an order that the map alone decides
    have hnames : s'.tableNames = s.tableNames :=
      (Std.TreeMap.Equiv.of_forall_constGet?_eq hname).keys_eq
    have hnamed (name : String) : (s'.tableNamed? name).map (·.key)
        = (s.tableNamed? name).map (·.key) := by
      rw [key_of_tableNamed? hs', key_of_tableNamed? hs, hname]
    have hkey (key : TableKey) : (s'.table? key).map (fun _ => key)
        = (s.table? key).map fun _ => key := by
      have hthere (u : Snapshot) :
          (u.table? key).isSome ↔ ∃ name, u.Holds (.table key name) := by
        simp [Snapshot.Holds, Option.isSome_iff_exists]
      have hsome : (s'.table? key).isSome ↔ (s.table? key).isSome := by
        rw [hthere, hthere]
        exact exists_congr fun name => hsame (.table key name) trivial
      cases h : s.table? key <;> cases h' : s'.table? key <;> simp_all
    have hobject (table : TableKey) (key : ObjectKey) :
        s'.hasObject table key = s.hasObject table key := by
      rw [Bool.eq_iff_iff, hasObject_iff, hasObject_iff]
      exact hsame (.object table key) trivial
    cases l with
    | table name => rw [answer, answer, hnamed]
    | requireTable name =>
        have hthis := hnamed name
        cases h : s.tableNamed? name <;> cases h' : s'.tableNamed? name <;>
          simp_all [answer]
    | tableByKey key => rw [answer, answer, hkey]
    | hasTable name =>
        rw [answer, answer, ← Option.isSome_map, hnamed, Option.isSome_map]
    | tableNames => rw [answer, answer, hnames]
    | importTable h => rw [answer, answer, hkey]
    | importObject h => rw [answer, answer, hobject]

end Lookup

namespace Engine

variable {e : Engine} {id : TransactionId} {t t' : Transaction}
  {ev : Event} {events : List Event}

-- ===================================================== the working copy

/-- While a writer is at work nothing else becomes current, so it ends on
what it started from. -/
theorem Serial.current_of_writing (h : e.Serial) (htyped : TypedRun e events)
    (ht : e.transaction? id = some t)
    (ht' : (e.through events).transaction? id = some t')
    (hw : t'.IsWriting) :
    t.IsWriting ∧ (e.through events).current = e.current := by
  induction events generalizing e t with
  | nil =>
      obtain rfl := Option.some.inj (ht'.symm.trans ht)
      exact ⟨hw, rfl⟩
  | cons ev evs ih =>
      obtain ⟨u, hu, hturn⟩ := h.stays htyped ht ht'
      obtain ⟨huw, hcurrent⟩ := ih ((h.step ev).serial h) htyped.2 hu ht'
      have hstill := h.record?_eq_none_iff.1 (h.record?_of_isWriting hu huw)
      refine ⟨?_, hcurrent.trans hstill⟩
      rcases hturn.writing_before huw with hnew | ⟨_, heq, hbefore⟩
      · exact absurd (hnew ▸ h.fresh id t ht) (Nat.lt_irrefl _)
      · exact Option.some.inj heq ▸ hbefore

/-- A writer begins with a copy of what is current. -/
theorem transaction?_begun (e : Engine) :
    e.begun.transaction? e.nextId
      = some ⟨{ mode := .writing, snapshot := e.current }, e.version,
        .writer .active true⟩ :=
  transaction?_self _ e.nextId _

/-- Without a commit, a writer goes on to show its working copy. -/
theorem Ending.snapshot_eq (h : Ending e id ev .rolledBack) (he : e.Orderly)
    (ht : e.transaction? id = some t) (hw : t.IsWriting)
    (htyped : TypedRun (ev.step e) events)
    (ht' : ((ev.step e).through events).transaction? id = some t') :
    t'.view.snapshot = t.view.snapshot := by
  obtain ⟨hkept, -⟩ := h.through he ht hw htyped ht'
  rw [h.leaves he.serial ht hw] at hkept
  obtain rfl := Option.some.inj hkept
  rfl

/-- A write transaction that was rolled back, by its own call or because its
commit failed, answers every lookup as it did just before, however much has
happened since. It has the tables and objects that were there when it began
or that it made, but for those that it took away. So it answers as the
version that it started from exactly if it took away what it made, and
nothing else. -/
theorem lookups_after_rollback {is : List Instruction} {s : Snapshot}
    (hopened : Reached is s) (log : Option HistoryLog) (limits : Limits)
    {before within later : List Event} {ev : Event} {id : TransactionId}
    {t t' : Transaction}
    (hbefore : TypedRun (starting s log limits) before) :
    let e₀ := (starting s log limits).through before
    let n := (Annals.opening is).through (starting s log limits) before
    let e₁ := (Event.call .beginWrite).step e₀
    let e := e₁.through within
    let e' := (ev.step e).through later
    let changes := t.view.changes.toList
    e₀.writerBusy = false → id = e₀.nextId → TypedRun e₁ within →
    e.transaction? id = some t → t.IsWriting → Ending e id ev .rolledBack →
    TypedRun (ev.step e) later → e'.transaction? id = some t' →
    (∀ l : Lookup, l.ask e₁ id = l.answer e₀.current)
      ∧ (∀ l : Lookup, l.ask e' id = l.ask e id)
      ∧ (FitCounters (instructions n.committed ++ changes) →
        (∀ x : Entity, x.Listed → (t'.view.snapshot.Holds x
          ↔ (e₀.current.Holds x ∨ ∃ i ∈ changes, i.makes? = some x)
            ∧ ∀ i ∈ changes, ¬ i.Takes x))
        ∧ ((∀ l : Lookup, l.ask e' id = l.ask e₁ id)
          ↔ Undone e₀.current changes)) := by
  intro e₀ n e₁ e e' changes hfree hid hwithin ht hw hending hlater ht'
  have he₀ : e₀.Orderly := (orderly_starting s log limits).through hbefore
  have he₁ : e₁.Orderly := he₀.step trivial
  have he : e.Orderly := he₁.through hwithin
  have htold : Told n e₀ :=
    (told_starting hopened log limits).through (orderly_starting _ _ _)
      hbefore
  have hbegun : e₁ = e₀.begun := step_beginWrite_free hfree
  have hbegan : e₁.transaction? id = some _ :=
    hid ▸ hbegun ▸ transaction?_begun e₀
  obtain ⟨-, hcurrent⟩ := he₁.serial.current_of_writing hwithin hbegan ht hw
  -- nobody else can commit while the writer is active
  have hbase : e.current = e₀.current := hcurrent.trans (by rw [hbegun]; rfl)
  obtain ⟨-, -, -, hbased⟩ := he.serial.active ht hw
  have happ : Edit.Gives (applyAll e.limits changes) e₀.current ()
      t.view.snapshot := hbase ▸ hbased.applied
  -- ending closes the view and leaves its snapshot, which lookups read
  have hkept := hending.snapshot_eq he ht hw hlater ht'
  have hfirst (l : Lookup) : l.ask e₁ id = l.answer e₀.current :=
    l.ask_eq hbegan
  refine ⟨hfirst, fun l => ?_, fun hfit => ⟨fun x hlisted => ?_, ?_⟩⟩
  · rw [l.ask_eq ht', l.ask_eq ht, hkept]
  · rw [hkept]
    exact htold.current.balance happ hfit hlisted
  -- the same answers are the same listings, and those are in balance
  · have hfront : FitCounters (instructions n.committed) := by
      have hfront := hfit.take (instructions n.committed).length
      rwa [List.take_left] at hfront
    rw [← htold.current.unchanged_iff happ hfit, ← Lookup.answer_eq_iff
      (htold.current.keyed hfront) ((htold.current.applyAll happ).keyed hfit)]
    refine forall_congr' fun l => ?_
    rw [l.ask_eq ht', hkept, hfirst]

/-- A reader, then a writer that takes back the table that it has added. -/
def takesBack : List Event :=
  [.call (.addTable ⟨2⟩ "a"), .call (.removeTable ⟨2⟩ "a")]

/-- When that writer gives up and the next begins, it finds what it found at
first. -/
theorem lookups_after_rollback_takesBack :
    let e₀ := (inMemory {}).through [.call .beginRead]
    let e₁ := (Event.call .beginWrite).step e₀
    let e := e₁.through takesBack
    let e' := ((Event.call (.rollback ⟨2⟩)).step e).through
      [.call .beginWrite]
    (e.transaction? ⟨2⟩).map (·.view.changes.toList)
        = some [.addTable ⟨0⟩ "a", .removeTable ⟨0⟩]
      ∧ ∀ l : Lookup, l.ask e' ⟨2⟩ = l.ask e₁ ⟨2⟩ := by
  intro e₀ e₁ e e'
  have hchanges : (e.transaction? ⟨2⟩).map (·.view.changes.toList)
      = some [.addTable ⟨0⟩ "a", .removeTable ⟨0⟩] := by decide +kernel
  have hrole : (e.transaction? ⟨2⟩).map (·.role)
      = some (.writer .active true) := by decide +kernel
  obtain ⟨t, ht, hactive⟩ := Option.map_eq_some_iff.1 hrole
  obtain ⟨t', ht'⟩ : ∃ t', e'.transaction? ⟨2⟩ = some t' :=
    Option.isSome_iff_exists.1 (by decide +kernel)
  have hthese : t.view.changes.toList
      = [.addTable ⟨0⟩ "a", .removeTable ⟨0⟩] := by
    rw [ht] at hchanges
    exact Option.some.inj hchanges
  have hundone : Undone e₀.current t.view.changes.toList := by
    rw [hthese]
    refine ⟨fun x hlisted hmade => ⟨.removeTable ⟨0⟩, by simp, ?_⟩,
      fun x hlisted _ hx => ?_⟩
    · obtain ⟨i, hi, hmakes⟩ := hmade
      rcases List.mem_pair.1 hi with rfl | rfl
      · cases hmakes
        exact rfl
      · cases hmakes
    · change Snapshot.empty.Holds x at hx
      cases x with
      | column => exact hlisted
      | table | object =>
          obtain ⟨t, ht, -⟩ := hx
          simp at ht
  have hbefore : TypedRun (inMemory {}) [.call .beginRead] :=
    ⟨trivial, trivial⟩
  have hwithin : TypedRun e₁ takesBack := ⟨trivial, trivial, trivial⟩
  have hlater : TypedRun ((Event.call (.rollback ⟨2⟩)).step e)
      [.call .beginWrite] := ⟨trivial, trivial⟩
  obtain ⟨-, -, hmore⟩ := lookups_after_rollback .empty none _ hbefore
    (by decide +kernel) (by decide +kernel) hwithin ht ⟨true, hactive⟩
    .rolledBack hlater ht'
  have hfit : FitCounters
      (instructions (signed ⟨2⟩ 0 t.view.changes.toList)) := by
    refine fitCounters_of_length ?_
    rw [hthese]
    decide
  rw [instructions_signed] at hfit
  exact ⟨hchanges, (hmore hfit).2.2 hundone⟩

/-- A writer that gives up the table that it has added still finds it. -/
theorem rolledBack_finds_discarded :
    let e₁ := (Event.call .beginWrite).step (inMemory {})
    let e' := e₁.through
      [.call (.addTable ⟨1⟩ "a"), .call (.rollback ⟨1⟩)]
    (e'.transaction? ⟨1⟩).map (·.role) = some (.writer .rolledBack false)
      ∧ (Lookup.hasTable "a").ask e₁ ⟨1⟩ = .ok (.flag false)
      ∧ (Lookup.hasTable "a").ask e' ⟨1⟩ = .ok (.flag true) := by
  decide +kernel

end Engine

end Colonnade
