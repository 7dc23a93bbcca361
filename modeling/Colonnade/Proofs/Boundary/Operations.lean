/-
The operations of a session, as data. Most of them are carried out through
handles to tables and objects, or only look something up: they begin and end
no transaction, and what they do to the engine is what handles can do
(`ThroughHandles`). Those are gone through here, once.

An operation is given integers, and may have no use for them: the handle is
not lent out, or it is one to a transaction of the other kind, or what it
stands for is out of reach (`Operation.Misses`). Such an operation leaves
the session as it is, in every part.

Chain: `Boundary.Writers` has the operations that are left.
-/
import Colonnade.Boundary.Session
import Colonnade.Proofs.Boundary.Arena
import Colonnade.Proofs.Engine.Handled

namespace Colonnade.Boundary.Session

variable {α β : Type} {s s' : Session}

-- ========================================================== operations

/-- One operation on a session, with its arguments. -/
inductive Operation where
  | beginRead
  | beginWrite
  | commit (txn : Int64)
  | rollback (txn : Int64)
  | close (txn : Int64)
  | advance (txn : Int64)
  | transactionVersion (txn : Int64)
  | openTransactions
  | findTable (txn : Int64) (name : String)
  | addTable (txn : Int64) (name : String)
  | tableNames (txn : Int64)
  | tableIsValid (table : Int64)
  | tableName (table : Int64)
  | tableSize (table : Int64)
  | releaseTable (table : Int64)
  | addColumn (table : Int64) (name : String) (code : Int32)
      (nullable : Bool)
  | addLinkColumn (table : Int64) (name : String) (target : Int64)
  | columnKey (table : Int64) (name : String)
  | columnType (table col : Int64)
  | columnName (table col : Int64)
  | createObject (table : Int64)
  | findObject (table key : Int64)
  | findFirstInt (table col value : Int64)
  | objectKey (object : Int64)
  | objectIsValid (object : Int64)
  | removeObject (object : Int64)
  | releaseObject (object : Int64)
  | releaseDetached
  | isNull (object col : Int64)
  | getInt (object col : Int64)
  | getBool (object col : Int64)
  | getDouble (object col : Int64)
  | getString (object col : Int64)
  | getTimestamp (object col : Int64)
  | getLink (object col : Int64)
  | setInt (object col value : Int64)
  | setBool (object col : Int64) (value : Bool)
  | setDouble (object col : Int64) (value : Number.Double)
  | setString (object col : Int64) (text : TextArgument)
  | setTimestamp (object col ms : Int64)
  | setLink (object col key : Int64)
  | setNull (object col : Int64)

namespace Operation

/-- Carries out an operation; what it answers is left aside. A writer is
begun if none is active, whether or not the caller is ready to wait. -/
def run : Operation → Call Unit
  | beginRead => do let _ ← Session.beginRead
  | beginWrite => do let _ ← Session.beginWrite?
  | commit txn => do let _ ← Session.commit txn
  | rollback txn => Session.rollback txn
  | close txn => Session.close txn
  | advance txn => do let _ ← Session.advance txn
  | transactionVersion txn => do let _ ← Session.transactionVersion txn
  | openTransactions => do let _ := (← get).transactions.size
  | findTable txn name => do let _ ← Session.findTable txn name
  | addTable txn name => do let _ ← Session.addTable txn name
  | tableNames txn => do let _ ← Session.tableNames txn
  | tableIsValid h => do let _ := (← get).tableIsValid h
  | tableName h => do let _ ← Session.tableName h
  | tableSize h => do let _ ← Session.tableSize h
  | releaseTable h => Session.releaseTable h
  | addColumn h name code nullable => do
    let _ ← Session.addColumn h name code nullable
  | addLinkColumn h name target => do
    let _ ← Session.addLinkColumn h name target
  | columnKey h name => do let _ ← Session.columnKey h name
  | columnType h col => do let _ ← Session.columnType h col
  | columnName h col => do let _ ← Session.columnName h col
  | createObject h => do let _ ← Session.createObject h
  | findObject h key => do let _ ← Session.findObject h key
  | findFirstInt h col value => do let _ ← Session.findFirstInt h col value
  | objectKey h => do let _ ← Session.objectKey h
  | objectIsValid h => do let _ := (← get).objectIsValid h
  | removeObject h => Session.removeObject h
  | releaseObject h => Session.releaseObject h
  | releaseDetached => do let _ ← Session.releaseDetached
  | isNull h col => do let _ ← Session.isNull h col
  | getInt h col => do let _ ← Session.getInt h col
  | getBool h col => do let _ ← Session.getBool h col
  | getDouble h col => do let _ ← Session.getDouble h col
  | getString h col => do let _ ← Session.getString h col
  | getTimestamp h col => do let _ ← Session.getTimestamp h col
  | getLink h col => do let _ ← Session.getLink h col
  | setInt h col n => Session.setInt h col n
  | setBool h col b => Session.setBool h col b
  | setDouble h col x => Session.setDouble h col x
  | setString h col t => Session.setString h col t
  | setTimestamp h col ms => Session.setTimestamp h col ms
  | setLink h col key => Session.setLink h col key
  | setNull h col => Session.setNull h col

/-- The session after an operation, whether it succeeded or failed. -/
def step (s : Session) (op : Operation) : Session :=
  match op.run.run s with
  | .ok _ s' => s'
  | .error _ s' => s'

end Operation

-- ====================================================== through handles

/-- Whether a step of the engine is made up of what handles can do. -/
def Handling (step : Edit Engine α) : Prop :=
  ∀ P, Engine.Lasting P → Edit.Preserves P step

/-- Whether a call leaves the transactions that are lent out alone, and does
to the engine only what handles can do. -/
def ThroughHandles (call : Call α) : Prop :=
  ∀ P, Engine.Lasting P →
    ∀ a, Edit.Preserves (fun s => P s.engine ∧ s.transactions = a) call

namespace Handling

variable {h : TableHandle} {o : ObjectHandle} {step : Edit Engine α}

theorem pure (a : α) : Handling (Pure.pure a) :=
  fun _ _ => Edit.Ends.pure fun _ h => h

theorem throw (err : Error) :
    Handling (MonadExcept.throw err : Edit Engine α) :=
  fun _ _ => Edit.Ends.throw fun _ h => h

/-- Two steps that are taken through handles make one. -/
theorem bind {f : α → Edit Engine β} (hstep : Handling step)
    (hf : ∀ a, Handling (f a)) : Handling (step >>= f) :=
  fun P hP => Edit.Ends.bind (hstep P hP) fun a => hf a P hP

theorem map (hstep : Handling step) (g : α → β) : Handling (g <$> step) := by
  rw [← bind_pure_comp]
  exact hstep.bind fun a => .pure (g a)

/-- Reading through a handle of a table is a step taken through handles. -/
theorem read (h : TableHandle) (f : Table → Except Error α) :
    Handling (h.read f) :=
  fun _ hP => hP.read _ _ _

/-- Reading through a handle of an object is a step taken through handles. -/
theorem readObject (o : ObjectHandle) (f : Table → Except Error α) :
    Handling (o.read f) :=
  fun _ hP => hP.read _ _ _

/-- Writing through a handle of an object is a step taken through handles. -/
theorem writeObject (o : ObjectHandle)
    (build : Table → Except Error Instruction) : Handling (o.write build) :=
  fun _ hP => Edit.Ends.bind (hP.write _ _ _) fun _ => .pure fun _ h => h

/-- An object is looked for before a handle to it is made. -/
theorem object (h : TableHandle) (key : ObjectKey) :
    Handling (h.object key) := by
  have hfound : Handling (h.object? key) := by
    refine .bind (.read h fun t => return t.contains key) fun found => ?_
    split
    · exact .pure _
    · exact .pure _
  refine hfound.bind fun found => ?_
  cases found with
  | some o => exact .pure o
  | none => exact .throw _

end Handling

/-- A step of the engine ends as it does without the session around it. -/
theorem ends_onEngine {step : Edit Engine α} {P E : Session → Prop}
    {Q : α → Session → Prop}
    (h : ∀ s, P s → Edit.Ends (· = s.engine) step
      (fun a e => Q a { s with engine := e })
      (fun e => E { s with engine := e })) :
    Edit.Ends P (onEngine step) Q E := by
  intro s hs
  have hends := h s hs s.engine rfl
  unfold Session.onEngine
  dsimp only [EStateM.run] at hends ⊢
  cases hrun : step s.engine with
  | ok b e =>
      rw [hrun] at hends
      exact hends
  | error err e =>
      rw [hrun] at hends
      exact hends

/-- What a step of the engine preserves, it preserves from a session. -/
theorem preserves_onEngine {step : Edit Engine α} {P : Engine → Prop}
    (h : Edit.Preserves P step) :
    Edit.Preserves (fun s => P s.engine) (onEngine step) :=
  ends_onEngine fun _ hs => h.of_eq hs

namespace ThroughHandles

theorem pure (a : α) : ThroughHandles (Pure.pure a) :=
  fun _ _ _ => Edit.Ends.pure fun _ h => h

theorem throw (f : Fault) : ThroughHandles (MonadExcept.throw f : Call α) :=
  fun _ _ _ => Edit.Ends.throw fun _ h => h

/-- Two calls that go through handles make one. -/
theorem bind {x : Call α} {f : α → Call β} (hx : ThroughHandles x)
    (hf : ∀ a, ThroughHandles (f a)) : ThroughHandles (x >>= f) :=
  fun P hP a => Edit.Ends.bind (hx P hP a) fun b => hf b P hP a

/-- Looking at the session first changes nothing. -/
theorem get_bind {f : Session → Call β} (hf : ∀ s, ThroughHandles (f s)) :
    ThroughHandles (get >>= f) :=
  fun P hP a s hs => hf s P hP a s hs

/-- A call that changes only the arenas of tables and objects leaves the
engine to the handles. -/
theorem modify {f : Session → Session}
    (hf : ∀ s, (f s).engine = s.engine ∧ (f s).transactions = s.transactions) :
    ThroughHandles (modify f : Call PUnit) := by
  refine fun P hP a => Edit.Ends.modify fun s hs => ?_
  show P (f s).engine ∧ (f s).transactions = a
  rw [(hf s).1, (hf s).2]
  exact hs

/-- What is handed on to the engine goes through handles if the step does. -/
theorem onEngine {step : Edit Engine α} (hstep : Handling step) :
    ThroughHandles (onEngine step) := by
  intro P hP a
  refine ends_onEngine fun s hs => ?_
  exact ((hstep P hP).of_eq hs.1).weaken (fun _ h => h)
    (fun _ _ h => ⟨h, hs.2⟩) fun _ h => ⟨h, hs.2⟩

theorem ofCore (x : Except Error α) : ThroughHandles (ofCore x) := by
  cases x with
  | ok a => exact .pure a
  | error err => exact .throw _

theorem ofFault (x : Except Fault α) : ThroughHandles (ofFault x) := by
  cases x with
  | ok a => exact .pure a
  | error f => exact .throw f

end ThroughHandles

-- ============================================================ the parts

/-- Looking up a lent transaction asks nothing of the engine. -/
theorem throughHandles_transaction (h : Int64) :
    ThroughHandles (transaction h) := by
  refine .get_bind fun s => ?_
  cases s.transactions.get? h with
  | some t => exact .pure t
  | none => exact .throw _

theorem throughHandles_transactionOf (kind : TransactionKind) (h : Int64) :
    ThroughHandles (transactionOf kind h) := by
  refine .bind (throughHandles_transaction h) fun t => ?_
  split
  · exact .bind (.throw _) fun _ => .pure t
  · exact .pure t

/-- A lent table is looked at through its handle. -/
theorem throughHandles_liveTable (h : Int64) :
    ThroughHandles (liveTable h) := by
  refine .bind (.get_bind fun s => ?_) fun t => .get_bind fun s => ?_
  · cases s.tables.get? h with
    | some t => exact .pure t
    | none => exact .throw _
  · split
    · exact .bind (.throw _) fun _ => .pure t
    · exact .pure t

theorem throughHandles_object (h : Int64) : ThroughHandles (object h) := by
  refine .get_bind fun s => ?_
  cases s.objects.get? h with
  | some o => exact .pure o
  | none => exact .throw _

theorem throughHandles_liveObject (h : Int64) :
    ThroughHandles (liveObject h) := by
  refine .bind (throughHandles_object h) fun o => .get_bind fun s => ?_
  split
  · exact .bind (.throw _) fun _ => .pure o
  · exact .pure o

/-- An object and the type of a column are looked up through handles. -/
theorem throughHandles_typedObject (h col : Int64) (type : ColumnType) :
    ThroughHandles (typedObject h col type) :=
  .bind (throughHandles_liveObject h) fun o =>
    .bind (.onEngine (.read o.tableHandle _)) fun _ => .pure o

/-- Every typed getter goes through handles. -/
theorem throughHandles_getTyped (h col : Int64) (type : ColumnType) :
    ThroughHandles (getTyped h col type) :=
  .bind (throughHandles_typedObject h col type) fun o =>
    .onEngine (.readObject o _)

theorem throughHandles_setTyped (h col : Int64) (type : ColumnType)
    (v : Value) : ThroughHandles (setTyped h col type v) :=
  .bind (throughHandles_typedObject h col type) fun o =>
    .onEngine (.writeObject o _)

/-- Setting a text goes through handles, whatever came for the text. -/
theorem throughHandles_setString (h col : Int64) (t : TextArgument) :
    ThroughHandles (setString h col t) := by
  refine .bind (throughHandles_typedObject h col .string) fun o => ?_
  have hwrite : ThroughHandles (do
      let v ← Session.ofFault (t.toValue (← get).config.maxString)
      Session.onEngine (o.set ⟨col⟩ v) : Call Unit) :=
    .get_bind fun s => .bind (.ofFault _) fun _ => .onEngine (.writeObject o _)
  split
  · exact .bind (.onEngine (.read o.tableHandle _)) fun _ => hwrite
  · exact hwrite

theorem throughHandles_lendTable (t : TableHandle) :
    ThroughHandles (lendTable t) :=
  .get_bind fun _ => .bind (.modify fun _ => ⟨rfl, rfl⟩) fun _ => .pure _

theorem throughHandles_lendObject (o : ObjectHandle) :
    ThroughHandles (lendObject o) :=
  .get_bind fun _ => .bind (.modify fun _ => ⟨rfl, rfl⟩) fun _ => .pure _

/-- A table is found by its name through handles. -/
theorem throughHandles_findTable (txn : Int64) (name : String) :
    ThroughHandles (findTable txn name) := by
  refine .bind (throughHandles_transaction txn) fun t =>
    .get_bind fun s => .bind (.ofCore _) fun found => ?_
  cases found with
  | none => exact .pure _
  | some found => exact throughHandles_lendTable found

/-- Adding a table is one write and a number lent for it. -/
theorem throughHandles_addTable (txn : Int64) (name : String) :
    ThroughHandles (addTable txn name) :=
  .bind (throughHandles_transactionOf .write txn) fun _ =>
    .bind (.onEngine fun _ hP => hP.addTable name) throughHandles_lendTable

/-- Giving back a table touches its arena only. -/
theorem throughHandles_releaseTable (h : Int64) :
    ThroughHandles (releaseTable h) := by
  refine .get_bind fun s => ?_
  rcases s.tables.remove h with ⟨_ | t, tables⟩
  · exact .throw _
  · exact .modify fun _ => ⟨rfl, rfl⟩

/-- Adding a column is one write, if the code is that of a type. -/
theorem throughHandles_addColumn (h : Int64) (name : String) (code : Int32)
    (nullable : Bool) : ThroughHandles (addColumn h name code nullable) := by
  unfold addColumn
  cases ColumnType.ofCode? code.toInt with
  | none => exact .throw _
  | some type =>
      exact .bind (throughHandles_liveTable h) fun t =>
        .bind (.onEngine fun _ hP => t.addColumn_lasting hP _) fun _ => .pure _

/-- Adding a column of links looks at two tables and writes once. -/
theorem throughHandles_addLinkColumn (h : Int64) (name : String)
    (target : Int64) : ThroughHandles (addLinkColumn h name target) :=
  .bind (throughHandles_liveTable target) fun _ =>
    .bind (throughHandles_liveTable h) fun t =>
      .bind (.onEngine fun _ hP => t.addColumn_lasting hP _) fun _ => .pure _

theorem throughHandles_createObject (h : Int64) :
    ThroughHandles (createObject h) :=
  .bind (throughHandles_liveTable h) fun t =>
    .bind (.onEngine fun _ hP => t.createObject_lasting hP)
      throughHandles_lendObject

theorem throughHandles_findObject (h key : Int64) :
    ThroughHandles (findObject h key) := by
  unfold findObject
  cases ObjectKey.ofRaw? key with
  | none => exact .throw _
  | some k =>
      exact .bind (throughHandles_liveTable h) fun t =>
        .bind (.onEngine (.object t k)) throughHandles_lendObject

theorem throughHandles_releaseObject (h : Int64) :
    ThroughHandles (releaseObject h) := by
  refine .get_bind fun s => ?_
  rcases s.objects.remove h with ⟨_ | o, objects⟩
  · exact .throw _
  · exact .modify fun _ => ⟨rfl, rfl⟩

/-- Sweeping out what is detached touches the arenas only. -/
theorem throughHandles_releaseDetached : ThroughHandles releaseDetached :=
  fun _ _ _ _ hs => hs

/-- Following a link reads one cell and lends a number. -/
theorem throughHandles_getLink (h col : Int64) :
    ThroughHandles (getLink h col) := by
  refine .bind (throughHandles_typedObject h col .link) fun o =>
    .bind (.onEngine (.readObject o _)) fun target => ?_
  cases target with
  | none => exact .pure _
  | some target => exact throughHandles_lendObject target

namespace Operation

/-- Whether an operation begins, ends or moves a transaction. -/
def turnsOver : Operation → Bool
  | beginRead | beginWrite | commit _ | rollback _ | close _
  | advance _ => true
  | _ => false

/-- What does not turn over transactions goes through handles. -/
theorem throughHandles {op : Operation} (hop : op.turnsOver = false) :
    ThroughHandles op.run := by
  have hdone {α : Type} {x : Call α} (h : ThroughHandles x) :
      ThroughHandles (do let _ ← x) :=
    h.bind fun _ => .pure ()
  cases op with
  | beginRead | beginWrite | commit | rollback | close | advance => cases hop
  | openTransactions | tableIsValid | objectIsValid =>
      exact .get_bind fun _ => .pure ()
  | transactionVersion txn | tableNames txn =>
      exact hdone (.bind (throughHandles_transaction txn) fun _ =>
        .get_bind fun _ => .ofCore _)
  | findTable txn name => exact hdone (throughHandles_findTable txn name)
  | addTable txn name => exact hdone (throughHandles_addTable txn name)
  | tableName h =>
      exact hdone (.bind (throughHandles_liveTable h) fun t =>
        .onEngine (.read t _))
  | tableSize h | columnKey h | columnType h | columnName h =>
      exact hdone (.bind (throughHandles_liveTable h) fun t =>
        .bind (.onEngine (.read t _)) fun _ => .pure _)
  | releaseTable h => exact throughHandles_releaseTable h
  | addColumn h name code nullable =>
      exact hdone (throughHandles_addColumn h name code nullable)
  | addLinkColumn h name target =>
      exact hdone (throughHandles_addLinkColumn h name target)
  | createObject h => exact hdone (throughHandles_createObject h)
  | findObject h key => exact hdone (throughHandles_findObject h key)
  | findFirstInt h col value =>
      exact hdone (.bind (throughHandles_liveTable h) fun t =>
        .bind (.onEngine (.read t _)) fun _ =>
          .bind (.onEngine (.read t _)) fun _ => .pure _)
  | objectKey h =>
      exact hdone (.bind (throughHandles_object h) fun _ => .pure _)
  | removeObject h =>
      exact .bind (throughHandles_liveObject h) fun o =>
        .onEngine (.writeObject o _)
  | releaseObject h => exact throughHandles_releaseObject h
  | releaseDetached => exact hdone throughHandles_releaseDetached
  | isNull h col =>
      exact hdone (.bind (throughHandles_liveObject h) fun o =>
        .onEngine (.map (.readObject o _) _))
  | getInt h col =>
      exact hdone (.bind (throughHandles_getTyped h col .int) fun _ =>
        .pure _)
  | getBool h col =>
      exact hdone (.bind (throughHandles_getTyped h col .bool) fun _ =>
        .pure _)
  | getDouble h col =>
      exact hdone (.bind (throughHandles_getTyped h col .double) fun _ =>
        .pure _)
  | getString h col =>
      exact hdone (.bind (throughHandles_getTyped h col .string) fun _ =>
        .pure _)
  | getTimestamp h col =>
      exact hdone (.bind (throughHandles_getTyped h col .timestamp) fun _ =>
        .pure _)
  | getLink h col => exact hdone (throughHandles_getLink h col)
  | setInt | setBool | setDouble | setTimestamp | setLink =>
      exact throughHandles_setTyped _ _ _ _
  | setString h col t => exact throughHandles_setString h col t
  | setNull h col =>
      exact .bind (throughHandles_liveObject h) fun o =>
        .bind (.onEngine (.read o.tableHandle _)) fun _ =>
          .onEngine (.writeObject o _)

end Operation

-- ============================================== no use for the handle

/-- Whether a handle reaches no table. -/
def NoTable (s : Session) (h : Int64) : Prop :=
  ∀ t, s.tables.get? h = some t → t.isValid s.engine = false

/-- Whether a handle reaches no object. -/
def NoObject (s : Session) (h : Int64) : Prop :=
  ∀ o, s.objects.get? h = some o → o.isValid s.engine = false

/-- Whether a handle is to no transaction of a kind. -/
def NoTransaction (s : Session) (kind : TransactionKind) (h : Int64) : Prop :=
  ∀ id, s.transactions.get? h ≠ some ⟨id, kind⟩

/-- Whether an operation has no use for a handle that it is given. -/
def Operation.Misses (s : Session) : Operation → Prop
  | commit txn | rollback txn | addTable txn _ => s.NoTransaction .write txn
  | advance txn => s.NoTransaction .read txn
  | close txn | transactionVersion txn | findTable txn _ | tableNames txn =>
    s.transactions.get? txn = none
  | tableIsValid h | tableName h | tableSize h | addColumn h _ _ _
  | columnKey h _ | columnType h _ | columnName h _ | createObject h
  | findObject h _ | findFirstInt h _ _ => s.NoTable h
  | addLinkColumn h _ target => s.NoTable h ∨ s.NoTable target
  | releaseTable h => s.tables.get? h = none
  | objectIsValid h | removeObject h | isNull h _ | getInt h _
  | getBool h _ | getDouble h _ | getString h _ | getTimestamp h _
  | getLink h _ | setInt h _ _ | setBool h _ _ | setDouble h _ _
  | setString h _ _ | setTimestamp h _ _ | setLink h _ _ | setNull h _ =>
    s.NoObject h
  | objectKey h | releaseObject h => s.objects.get? h = none
  | beginRead | beginWrite | openTransactions | releaseDetached => False

/-- Whether a call fails in a session and changes nothing. -/
def Refuses (s : Session) (call : Call α) : Prop :=
  ∃ f, call.run s = .error f s

/-- A call that starts with one that is refused is refused. -/
theorem Refuses.bind {x : Call α} (hx : s.Refuses x) (f : α → Call β) :
    s.Refuses (x >>= f) := by
  obtain ⟨fault, hrun⟩ := hx
  refine ⟨fault, ?_⟩
  rw [EStateM.run_bind, hrun]

theorem refuses_throw (s : Session) (f : Fault) :
    s.Refuses (throw f : Call α) := ⟨f, rfl⟩

/-- What is read from the session can be put in. -/
theorem refuses_get {f : Session → Call α} (h : s.Refuses (f s)) :
    s.Refuses (get >>= f) := h

/-- A number that no transaction was lent under is refused. -/
theorem refuses_transaction {h : Int64}
    (hnone : s.transactions.get? h = none) : s.Refuses (transaction h) := by
  refine refuses_get ?_
  rw [hnone]
  exact s.refuses_throw _

/-- The transaction under a handle that is lent out. -/
theorem run_transaction {h : Int64} {lent : LentTransaction}
    (hlent : s.transactions.get? h = some lent) :
    (transaction h).run s = .ok lent s := by
  unfold transaction
  rw [EStateM.run_bind, EStateM.run_get]
  dsimp only
  rw [hlent]
  rfl

/-- A transaction of the kind asked for is found under its number. -/
theorem run_transactionOf {h : Int64} {kind : TransactionKind}
    {id : TransactionId} (hlent : s.transactions.get? h = some ⟨id, kind⟩) :
    (transactionOf kind h).run s = .ok ⟨id, kind⟩ s := by
  unfold transactionOf
  rw [EStateM.run_bind, run_transaction hlent]
  dsimp only
  rw [if_neg (fun hne : kind ≠ kind => hne rfl)]
  rfl

/-- A number that is lent for no transaction of the kind asked for is refused.
-/
theorem refuses_transactionOf {h : Int64} {kind : TransactionKind}
    (hmisses : s.NoTransaction kind h) :
    s.Refuses (transactionOf kind h) := by
  cases hlent : s.transactions.get? h with
  | none => exact (refuses_transaction hlent).bind _
  | some lent =>
      have hne : lent.kind ≠ kind := by
        rintro rfl
        exact hmisses lent.id hlent
      refine ⟨.wrongTransaction h kind, ?_⟩
      unfold transactionOf
      rw [EStateM.run_bind, run_transaction hlent]
      dsimp only
      rw [if_pos hne]
      rfl

theorem refuses_takeTransaction {h : Int64}
    (hnone : s.transactions.get? h = none) :
    s.Refuses (takeTransaction h) := by
  refine refuses_get ?_
  rcases s.transactions.remove_cases h with ⟨-, heq⟩ | ⟨_, x, -, hsome, -⟩
  · rw [heq]
    exact s.refuses_throw _
  · rw [hnone] at hsome
    cases hsome

/-- A table that is asked for is there, or the call fails; either way the
session is as it was. -/
theorem run_liveTable (s : Session) (h : Int64) :
    (liveTable h).run s
      = match s.tables.get? h with
        | none => .error (.staleHandle .table h) s
        | some t =>
          if t.isValid s.engine then .ok t s
          else .error (.core .tableDetached) s := by
  unfold liveTable table
  rw [EStateM.run_bind, EStateM.run_bind, EStateM.run_get]
  dsimp only
  cases s.tables.get? h with
  | none => rfl
  | some t =>
      show (if !t.isValid s.engine then _ else _ : Call _).run s
        = if t.isValid s.engine then _ else _
      cases t.isValid s.engine <;> rfl

/-- A lent object is answered if its handle is still valid. -/
theorem run_liveObject (s : Session) (h : Int64) :
    (liveObject h).run s
      = match s.objects.get? h with
        | none => .error (.staleHandle .object h) s
        | some o =>
          if o.isValid s.engine then .ok o s
          else .error (.core .objectDetached) s := by
  unfold liveObject object
  rw [EStateM.run_bind, EStateM.run_bind, EStateM.run_get]
  dsimp only
  cases s.objects.get? h with
  | none => rfl
  | some o =>
      show (if !o.isValid s.engine then _ else _ : Call _).run s
        = if o.isValid s.engine then _ else _
      cases o.isValid s.engine <;> rfl

/-- A number that stands for no living table is refused. -/
theorem refuses_liveTable {h : Int64} (hmisses : s.NoTable h) :
    s.Refuses (liveTable h) := by
  unfold Refuses
  rw [run_liveTable]
  cases htable : s.tables.get? h with
  | none => exact ⟨_, rfl⟩
  | some t =>
      dsimp only
      rw [hmisses t htable]
      exact ⟨_, rfl⟩

theorem refuses_liveObject {h : Int64} (hmisses : s.NoObject h) :
    s.Refuses (liveObject h) := by
  unfold Refuses
  rw [run_liveObject]
  cases hobject : s.objects.get? h with
  | none => exact ⟨_, rfl⟩
  | some o =>
      dsimp only
      rw [hmisses o hobject]
      exact ⟨_, rfl⟩

/-- A column of links is refused if either of its tables is missed. -/
theorem refuses_addLinkColumn {h target : Int64} (name : String)
    (hmisses : s.NoTable h ∨ s.NoTable target) :
    s.Refuses (addLinkColumn h name target) := by
  by_cases hgone : s.NoTable target
  · exact (refuses_liveTable hgone).bind _
  have hmisses := hmisses.resolve_right hgone
  -- the target is looked at first, and is there
  obtain ⟨t, htable, hvalid⟩ : ∃ t, s.tables.get? target = some t
      ∧ t.isValid s.engine = true := by
    unfold NoTable at hgone
    push Not at hgone
    exact hgone.imp fun t ht => ⟨ht.1, Bool.not_eq_false _ |>.mp ht.2⟩
  obtain ⟨f, hfails⟩ := (refuses_liveTable hmisses).bind fun u => do
    let col ← onEngine (u.addColumn (.link name t.key))
    return col.raw
  refine ⟨f, ?_⟩
  unfold addLinkColumn
  rw [EStateM.run_bind, run_liveTable, htable]
  dsimp only
  rw [if_pos hvalid]
  exact hfails

theorem refuses_releaseTable {h : Int64} (hnone : s.tables.get? h = none) :
    s.Refuses (releaseTable h) := by
  refine refuses_get ?_
  rcases s.tables.remove_cases h with ⟨-, heq⟩ | ⟨_, x, -, hsome, -⟩
  · rw [heq]
    exact s.refuses_throw _
  · rw [hnone] at hsome
    cases hsome

theorem refuses_releaseObject {h : Int64} (hnone : s.objects.get? h = none) :
    s.Refuses (releaseObject h) := by
  refine refuses_get ?_
  rcases s.objects.remove_cases h with ⟨-, heq⟩ | ⟨_, x, -, hsome, -⟩
  · rw [heq]
    exact s.refuses_throw _
  · rw [hnone] at hsome
    cases hsome

/-- A table that is missed takes no column. -/
theorem refuses_addColumn {h : Int64} (hmisses : s.NoTable h)
    (name : String) (code : Int32) (nullable : Bool) :
    s.Refuses (addColumn h name code nullable) := by
  unfold addColumn
  cases ColumnType.ofCode? code.toInt with
  | none => exact s.refuses_throw _
  | some type => exact (refuses_liveTable hmisses).bind _

theorem refuses_findObject {h : Int64} (hmisses : s.NoTable h)
    (key : Int64) : s.Refuses (findObject h key) := by
  unfold findObject
  cases ObjectKey.ofRaw? key with
  | none => exact s.refuses_throw _
  | some k => exact (refuses_liveTable hmisses).bind _

theorem refuses_object {h : Int64} (hnone : s.objects.get? h = none) :
    s.Refuses (object h) := by
  refine refuses_get ?_
  rw [hnone]
  exact s.refuses_throw _

/-- An operation that is refused leaves the session as it was. -/
theorem Operation.step_of_refuses {op : Operation} (h : s.Refuses op.run) :
    op.step s = s := by
  obtain ⟨f, hrun⟩ := h
  unfold step
  rw [hrun]

/-- An operation that has no use for a handle leaves the session alone. -/
theorem Operation.Misses.step_eq {op : Operation} (h : op.Misses s) :
    op.step s = s := by
  cases op with
  | tableIsValid | objectIsValid => rfl
  | beginRead | beginWrite | openTransactions | releaseDetached => exact h.elim
  | commit | addTable =>
      exact step_of_refuses (((refuses_transactionOf h).bind _).bind _)
  | rollback => exact step_of_refuses ((refuses_transactionOf h).bind _)
  | advance =>
      exact step_of_refuses (((refuses_transactionOf h).bind _).bind _)
  | close => exact step_of_refuses ((refuses_takeTransaction h).bind _)
  | transactionVersion | findTable | tableNames =>
      exact step_of_refuses (((refuses_transaction h).bind _).bind _)
  | tableName | tableSize | columnKey | columnType | columnName
  | createObject | findFirstInt =>
      exact step_of_refuses (((refuses_liveTable h).bind _).bind _)
  | addColumn t name code nullable =>
      exact step_of_refuses
        ((refuses_addColumn h name code nullable).bind _)
  | addLinkColumn t name target =>
      exact step_of_refuses ((refuses_addLinkColumn name h).bind _)
  | findObject t key =>
      exact step_of_refuses ((refuses_findObject h key).bind _)
  | releaseTable => exact step_of_refuses (refuses_releaseTable h)
  | releaseObject => exact step_of_refuses (refuses_releaseObject h)
  | objectKey => exact step_of_refuses (((refuses_object h).bind _).bind _)
  | removeObject | setNull =>
      exact step_of_refuses ((refuses_liveObject h).bind _)
  | isNull => exact step_of_refuses (((refuses_liveObject h).bind _).bind _)
  | getInt | getBool | getDouble | getString | getTimestamp =>
      exact step_of_refuses
        ((((refuses_liveObject h).bind _).bind _).bind _ |>.bind _)
  | getLink =>
      exact step_of_refuses ((((refuses_liveObject h).bind _).bind _).bind _)
  | setInt | setBool | setDouble | setString | setTimestamp | setLink =>
      exact step_of_refuses (((refuses_liveObject h).bind _).bind _)

end Colonnade.Boundary.Session
