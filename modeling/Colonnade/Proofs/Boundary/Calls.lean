/-
What calls on a session have in common. A null pointer is noticed before a
session is asked or after it has answered, never by the session itself:
none of its calls fails for one (`NullFree`). The calls that only read also
leave the session as it was, up to what the engine counts (`Looks`).

Both are closed under doing one thing after the other, so each call is gone
through once, as it is written.

Chain: `Boundary.Rejected` has the calls that pointers are passed to.
-/
import Colonnade.Boundary.Export
import Colonnade.Proofs.Engine.Uses

namespace Colonnade.Boundary

variable {σ α β : Type}

-- ======================================================= null pointers

/-- Whether a call never fails for a null pointer. -/
def NullFree (call : EStateM Fault σ α) : Prop :=
  ∀ s argument s', call.run s ≠ .error (.nullPointer argument) s'

namespace NullFree

theorem pure (a : α) : NullFree (Pure.pure a : EStateM Fault σ α) := nofun

/-- A fault that is not about a null pointer is none. -/
theorem throw {f : Fault} (hf : ∀ argument, f ≠ .nullPointer argument) :
    NullFree (MonadExcept.throw f : EStateM Fault σ α) := by
  intro s argument s' h
  cases h
  exact hf argument rfl

/-- Steps that find no null pointer find none together. -/
theorem bind {x : EStateM Fault σ α} {f : α → EStateM Fault σ β}
    (hx : NullFree x) (hf : ∀ a, NullFree (f a)) : NullFree (x >>= f) := by
  intro s argument s' h
  rw [EStateM.run_bind] at h
  cases hrun : x.run s with
  | ok a t =>
      rw [hrun] at h
      exact hf a t argument s' h
  | error fault t =>
      rw [hrun] at h
      cases h
      exact hx s argument s' hrun

theorem get_bind {f : σ → EStateM Fault σ β} (hf : ∀ s, NullFree (f s)) :
    NullFree (get >>= f) :=
  fun s => hf s s

/-- Changing the session finds no null pointer. -/
theorem modify (f : σ → σ) : NullFree (modify f : EStateM Fault σ PUnit) :=
  nofun

theorem map {x : EStateM Fault σ α} (hx : NullFree x) (g : α → β) :
    NullFree (g <$> x) := by
  rw [← bind_pure_comp]
  exact hx.bind fun a => .pure (g a)

/-- The engine knows of no pointers. -/
theorem onEngine (step : Edit Engine α) :
    NullFree (Session.onEngine step) := by
  intro s argument s' h
  unfold Session.onEngine at h
  dsimp only [EStateM.run] at h
  split at h <;> cases h

theorem ofCore (x : Except Error α) : NullFree (Session.ofCore x) := by
  cases x with
  | ok a => exact .pure a
  | error err => exact .throw nofun

/-- An outcome is passed on with its fault. -/
theorem ofFault {x : Except Fault α}
    (hx : ∀ argument, x ≠ .error (.nullPointer argument)) :
    NullFree (Session.ofFault x) := by
  cases x with
  | ok a => exact .pure a
  | error f => exact .throw fun argument heq => hx argument (heq ▸ rfl)

end NullFree

namespace TextArgument

/-- A text that is there is too long, or no text, or fine. -/
theorem toText?_ne_nullPointer (t : TextArgument) (limit : Nat)
    (argument : String) :
    t.toText? limit ≠ .error (.nullPointer argument) := by
  unfold toText?
  cases t with
  | none => nofun
  | some bytes =>
      dsimp only
      split
      · nofun
      · cases Utf8.decode bytes with
        | ok text => nofun
        | error place => nofun

/-- A text that came is read or found bad, but is no null pointer. -/
theorem toValue_ne_nullPointer (t : TextArgument) (limit : Nat)
    (argument : String) :
    t.toValue limit ≠ .error (.nullPointer argument) := by
  unfold toValue
  cases htext : t.toText? limit with
  | ok text => cases text <;> nofun
  | error f =>
      intro h
      cases h
      exact toText?_ne_nullPointer t limit argument htext

end TextArgument

-- ============================================================= looking

/-- Whether all that has happened to a session is that its engine counted
something. -/
structure Session.Untouched (s s' : Session) : Prop where
  engine : s.engine.Untouched s'.engine
  transactions_eq : s'.transactions = s.transactions
  tables_eq : s'.tables = s.tables
  objects_eq : s'.objects = s.objects

theorem Session.Untouched.refl (s : Session) : s.Untouched s :=
  ⟨.refl _, rfl, rfl, rfl⟩

/-- Whether a call leaves every session as it was, however it ends, and does
not fail for a null pointer. -/
structure Looks (call : Call α) : Prop where
  nullFree : NullFree call
  spares : ∀ s : Session, Edit.Preserves s.Untouched call

namespace Looks

theorem pure (a : α) : Looks (Pure.pure a) :=
  ⟨.pure a, fun _ => Edit.Ends.pure fun _ h => h⟩

theorem throw {f : Fault} (hf : ∀ argument, f ≠ .nullPointer argument) :
    Looks (MonadExcept.throw f : Call α) :=
  ⟨.throw hf, fun _ => Edit.Ends.throw fun _ h => h⟩

/-- Calls that only look only look together. -/
theorem bind {x : Call α} {f : α → Call β} (hx : Looks x)
    (hf : ∀ a, Looks (f a)) : Looks (x >>= f) :=
  ⟨.bind hx.nullFree fun a => (hf a).nullFree,
    fun s => Edit.Ends.bind (hx.spares s) fun a => (hf a).spares s⟩

/-- Looking at the session first is looking. -/
theorem get_bind {f : Session → Call β} (hf : ∀ s, Looks (f s)) :
    Looks (get >>= f) :=
  ⟨.get_bind fun s => (hf s).nullFree, fun s t ht => (hf t).spares s t ht⟩

/-- A read through a handle. -/
theorem reads {h : Handle} {x : Edit Engine α} (hx : h.Reads x) :
    Looks (Session.onEngine x) := by
  refine ⟨.onEngine x, fun s t ht => ?_⟩
  have hends := hx.isRead.spares s.engine t.engine ht.engine
  unfold Session.onEngine
  dsimp only [EStateM.run] at hends ⊢
  cases hrun : x t.engine with
  | ok a e =>
      rw [hrun] at hends
      exact ⟨hends, ht.transactions_eq, ht.tables_eq, ht.objects_eq⟩
  | error err e =>
      rw [hrun] at hends
      exact ⟨hends, ht.transactions_eq, ht.tables_eq, ht.objects_eq⟩

end Looks

-- ========================================================= the calls

namespace Session

/-- A lent transaction is only looked up. -/
theorem looks_transaction (h : Int64) : Looks (transaction h) := by
  refine .get_bind fun s => ?_
  cases s.transactions.get? h with
  | some t => exact .pure t
  | none => exact .throw nofun

theorem looks_transactionOf (kind : TransactionKind) (h : Int64) :
    Looks (transactionOf kind h) := by
  refine .bind (looks_transaction h) fun t => ?_
  split
  · exact .bind (.throw nofun) fun _ => .pure t
  · exact .pure t

theorem looks_liveTable (h : Int64) : Looks (liveTable h) := by
  refine .bind (.get_bind fun s => ?_) fun t => .get_bind fun s => ?_
  · cases s.tables.get? h with
    | some t => exact .pure t
    | none => exact .throw nofun
  · split
    · exact .bind (.throw nofun) fun _ => .pure t
    · exact .pure t

theorem looks_liveObject (h : Int64) : Looks (liveObject h) := by
  refine .bind (.get_bind fun s => ?_) fun o => .get_bind fun s => ?_
  · cases s.objects.get? h with
    | some o => exact .pure o
    | none => exact .throw nofun
  · split
    · exact .bind (.throw nofun) fun _ => .pure o
    · exact .pure o

theorem looks_typedObject (h col : Int64) (type : ColumnType) :
    Looks (typedObject h col type) :=
  .bind (looks_liveObject h) fun o =>
    .bind (.reads (.checkType o.tableHandle ⟨col⟩ type)) fun _ => .pure o

theorem looks_getTyped (h col : Int64) (type : ColumnType) :
    Looks (getTyped h col type) :=
  .bind (looks_typedObject h col type) fun o =>
    .reads (.getTyped o ⟨col⟩ type)

theorem looks_getInt (h col : Int64) : Looks (getInt h col) :=
  .bind (looks_getTyped h col .int) fun _ => .pure _

theorem looks_getTimestamp (h col : Int64) : Looks (getTimestamp h col) :=
  .bind (looks_getTyped h col .timestamp) fun _ => .pure _

/-- Looking for a number only looks. -/
theorem looks_findFirstInt (h col value : Int64) :
    Looks (findFirstInt h col value) :=
  .bind (looks_liveTable h) fun t =>
    .bind (.reads (.checkType t ⟨col⟩ .int)) fun _ =>
      .bind (.reads (.findFirst t ⟨col⟩ (.int value))) fun _ => .pure _

theorem nullFree_takeTransaction (h : Int64) :
    NullFree (takeTransaction h) := by
  refine .get_bind fun s => ?_
  rcases s.transactions.remove h with ⟨_ | t, transactions⟩
  · exact .throw nofun
  · exact .bind (.modify _) fun _ => .pure t

theorem nullFree_lendTransaction (id : TransactionId)
    (kind : TransactionKind) : NullFree (lendTransaction id kind) :=
  .get_bind fun _ => .bind (.modify _) fun _ => .pure _

theorem nullFree_lendTable (t : TableHandle) : NullFree (lendTable t) :=
  .get_bind fun _ => .bind (.modify _) fun _ => .pure _

theorem nullFree_lendObject (o : ObjectHandle) : NullFree (lendObject o) :=
  .get_bind fun _ => .bind (.modify _) fun _ => .pure _

theorem nullFree_beginRead : NullFree beginRead :=
  .bind (.onEngine _) fun id => nullFree_lendTransaction id .read

/-- Beginning to write finds no null pointer. -/
theorem nullFree_beginWrite? : NullFree beginWrite? := by
  refine .bind (.onEngine _) fun id? => ?_
  cases id? with
  | none => exact .pure none
  | some id => exact .map (nullFree_lendTransaction id .write) some

/-- Ending a writer finds no null pointer, however it ends. -/
theorem nullFree_endWrite (h : Int64)
    (finish : TransactionId → Edit Engine α) :
    NullFree (endWrite h finish) :=
  .bind (looks_transactionOf .write h).nullFree fun _ =>
    .bind (nullFree_takeTransaction h) fun _ => .onEngine _

theorem nullFree_close (h : Int64) : NullFree (close h) :=
  .bind (nullFree_takeTransaction h) fun _ => .onEngine _

theorem nullFree_advance (h : Int64) : NullFree (advance h) :=
  .bind (looks_transactionOf .read h).nullFree fun _ => .onEngine _

theorem nullFree_findTable (txn : Int64) (name : String) :
    NullFree (findTable txn name) := by
  refine .bind (looks_transaction txn).nullFree fun t =>
    .get_bind fun s => .bind (.ofCore _) fun found => ?_
  cases found with
  | none => exact .pure _
  | some found => exact nullFree_lendTable found

theorem nullFree_addTable (txn : Int64) (name : String) :
    NullFree (addTable txn name) :=
  .bind (looks_transactionOf .write txn).nullFree fun _ =>
    .bind (.onEngine _) fun t => nullFree_lendTable t

theorem nullFree_addColumn (h : Int64) (name : String) (code : Int32)
    (nullable : Bool) : NullFree (addColumn h name code nullable) := by
  unfold addColumn
  cases ColumnType.ofCode? code.toInt with
  | none => exact .throw nofun
  | some type =>
      exact .bind (looks_liveTable h).nullFree fun _ =>
        .bind (.onEngine _) fun _ => .pure _

theorem nullFree_createObject (h : Int64) : NullFree (createObject h) :=
  .bind (looks_liveTable h).nullFree fun _ =>
    .bind (.onEngine _) fun o => nullFree_lendObject o

theorem nullFree_setTyped (h col : Int64) (type : ColumnType) (v : Value) :
    NullFree (setTyped h col type v) :=
  .bind (looks_typedObject h col type).nullFree fun _ => .onEngine _

/-- Setting a text finds no null pointer behind the one for the text. -/
theorem nullFree_setString (h col : Int64) (t : TextArgument) :
    NullFree (setString h col t) := by
  refine .bind (looks_typedObject h col .string).nullFree fun o => ?_
  have hwrite : NullFree (do
      let v ← ofFault (t.toValue (← get).config.maxString)
      onEngine (o.set ⟨col⟩ v) : Call Unit) :=
    .get_bind fun s => .bind (.ofFault (t.toValue_ne_nullPointer _))
      fun _ => .onEngine _
  split
  · exact .bind (.onEngine _) fun _ => hwrite
  · exact hwrite

/-- Setting to null finds no null pointer. -/
theorem nullFree_setNull (h col : Int64) : NullFree (setNull h col) :=
  .bind (looks_liveObject h).nullFree fun _ =>
    .bind (.onEngine _) fun _ => .onEngine _

end Session

end Colonnade.Boundary
