/-
Writing null through a session. A session has three operations for it: one
that makes any value absent, one that writes a text, which may be nothing,
and one that writes a link, of which -1 is the key that names no object. An
object handle has two. Each of the five asks in its own way whether the cell
takes null, and they agree: through a session null is written exactly if the
handle that is lent out writes it as a value, and what the session is left
with is what that write leaves.

Chain: `Engine.Cells` for the handle; `Boundary.Linking` for the links that
are not null.
-/
import Colonnade.Proofs.Boundary.Served
import Colonnade.Proofs.Engine.Cells

namespace Colonnade.Boundary.Session

open Snapshot (Applied Reached)

variable {s s' : Session} {h col : Int64} {o : ObjectHandle}
  {t : Transaction} {table : Table} {c : Column} {v : Value} {α : Type}

-- ================================================= through the handle

/-- A step of the engine succeeds in a session as it does without it. -/
theorem run_onEngine_eq_ok {step : Edit Engine α} {a : α} :
    (onEngine step).run s = .ok a s'
      ↔ ∃ e, Edit.Gives step s.engine a e ∧ s' = { s with engine := e } := by
  unfold Edit.Gives
  cases hrun : step.run s.engine with
  | ok b e =>
      rw [run_onEngine_ok hrun]
      constructor
      · intro heq
        cases heq
        exact ⟨e, rfl, rfl⟩
      · rintro ⟨e', heq, rfl⟩
        cases heq
        rfl
  | error err e =>
      rw [run_onEngine_error hrun]
      exact ⟨nofun, fun ⟨_, heq, _⟩ => nomatch heq⟩

/-- A handle that is lent out to an object that is not in reach is of no
use. -/
theorem refuses_liveObject_invalid (hget : s.objects.get? h = some o)
    (hinvalid : o.isValid s.engine = false) : s.Refuses (liveObject h) := by
  refine refuses_liveObject fun o' hget' => ?_
  obtain rfl := Option.some.inj (hget.symm.trans hget')
  exact hinvalid

/-- A lent object that is reached is answered. -/
theorem run_liveObject_reaches (hget : s.objects.get? h = some o)
    (hreaches : o.Reaches s.engine t table) :
    (liveObject h).run s = .ok o s := by
  rw [run_liveObject, hget]
  exact if_pos (ObjectHandle.isValid_iff_reaches.2 ⟨t, table, hreaches⟩)

/-- What is asked of a table is answered, and nothing changes. -/
theorem run_onEngine_check (hreaches : o.Reaches s.engine t table)
    {f : Table → Except Error α} {a : α} (hf : f table = .ok a) :
    (onEngine (o.tableHandle.read f)).run s = .ok a s := by
  refine run_onEngine_ok ?_
  rw [hreaches.run_readTable, hf]
  rfl

/-- An object is lent out for a column if the column has the type. -/
theorem run_typedObject (hget : s.objects.get? h = some o)
    (hreaches : o.Reaches s.engine t table)
    (hc : table.column? ⟨col⟩ = some c) :
    (typedObject h col c.spec.type).run s = .ok o s := by
  have htype : table.checkType ⟨col⟩ c.spec.type = .ok () :=
    Table.checkType_eq_ok.2 ⟨c, hc, rfl⟩
  unfold typedObject
  rw [EStateM.run_bind, run_liveObject_reaches hget hreaches]
  dsimp only
  rw [EStateM.run_bind]
  unfold TableHandle.checkType
  rw [run_onEngine_check hreaches htype]
  rfl

/-- A value for a column of its type is written through the handle. -/
theorem run_setTyped (hget : s.objects.get? h = some o)
    (hreaches : o.Reaches s.engine t table)
    (hc : table.column? ⟨col⟩ = some c) (v : Value) :
    (setTyped h col c.spec.type v).run s
      = (onEngine (o.set ⟨col⟩ v)).run s := by
  unfold setTyped
  rw [EStateM.run_bind, run_typedObject hget hreaches hc]

-- ======================================================= writing null

/-- Whether a session is left as the handle leaves it that writes null as a
value. -/
def Nulled (s : Session) (o : ObjectHandle) (col : ColumnKey)
    (s' : Session) : Prop :=
  ∃ e, Edit.Gives (o.set col .null) s.engine () e
    ∧ s' = { s with engine := e }

/-- A check of the table before the write adds nothing to it if it passes
wherever null can be written. -/
theorem run_checkNullable_bind (hwrought : s.engine.Wrought)
    (hreaches : o.Reaches s.engine t table) {call : Call Unit}
    (hcall : call.run s = .ok () s' ↔ s.Nulled o ⟨col⟩ s') :
    (onEngine (o.tableHandle.checkNullable ⟨col⟩) >>= fun _ => call).run s
        = .ok () s'
      ↔ s.Nulled o ⟨col⟩ s' := by
  rw [EStateM.run_bind]
  unfold TableHandle.checkNullable
  cases hnullable : table.checkNullable ⟨col⟩ with
  | ok u =>
      rw [run_onEngine_check hreaches hnullable]
      exact hcall
  | error err =>
      have hfails : (o.tableHandle.read (·.checkNullable ⟨col⟩)).run s.engine
          = .error err s.engine := by
        rw [hreaches.run_readTable, hnullable]
        rfl
      rw [run_onEngine_error hfails]
      refine ⟨nofun, ?_⟩
      rintro ⟨e, hgives, -⟩
      obtain ⟨t', table', snapshot, hreaches', -, happ, -⟩ :=
        ObjectHandle.gives_set_iff.1 hgives
      obtain ⟨rfl, rfl⟩ := hreaches.unique hreaches'
      rw [hreaches.checkNullable hwrought happ] at hnullable
      cases hnullable

/-- Null is written through no handle that reaches nothing. -/
theorem not_nulled_of_invalid (hinvalid : o.isValid s.engine = false)
    {key : ColumnKey} : ¬ s.Nulled o key s' := by
  rintro ⟨e, hgives, -⟩
  obtain ⟨t, table, snapshot, hreaches, -⟩ :=
    ObjectHandle.gives_set_iff.1 hgives
  rw [ObjectHandle.isValid_iff_reaches.2 ⟨t, table, hreaches⟩] at hinvalid
  cases hinvalid

/-- A call that refuses a handle which reaches nothing writes null exactly
as the handle does, if it does so where something is reached. -/
theorem nulls_of_reaches {call : Call Unit} {key : ColumnKey}
    (hrefuses : o.isValid s.engine = false → s.Refuses call)
    (hreaches : ∀ t table, o.Reaches s.engine t table →
      (call.run s = .ok () s' ↔ s.Nulled o key s')) :
    call.run s = .ok () s' ↔ s.Nulled o key s' := by
  cases hvalid : o.isValid s.engine with
  | true =>
      obtain ⟨t, table, h⟩ := ObjectHandle.isValid_iff_reaches.1 hvalid
      exact hreaches t table h
  | false =>
      obtain ⟨fault, hrun⟩ := hrefuses hvalid
      rw [hrun]
      exact ⟨nofun, fun hnulled =>
        (not_nulled_of_invalid hvalid hnulled).elim⟩

/-- How a session writes null to the cell under a handle to an object. -/
structure NullsAgree (s : Session) (h : Int64) (o : ObjectHandle)
    (col : Int64) : Prop where
  setNull : ∀ s', (setNull h col).run s = .ok () s' ↔ s.Nulled o ⟨col⟩ s'
  setString : (o.column? s.engine ⟨col⟩).map (·.spec.type) = some .string →
    ∀ text : TextArgument, text.isNull = true → ∀ s',
      (setString h col text).run s = .ok () s' ↔ s.Nulled o ⟨col⟩ s'
  setLink : (o.column? s.engine ⟨col⟩).map (·.spec.type) = some .link →
    ∀ s', (setLink h col notFound).run s = .ok () s' ↔ s.Nulled o ⟨col⟩ s'

/-- Setting to null comes to writing a null of any kind. -/
theorem nullsAgree (hwrought : s.engine.Wrought)
    (hget : s.objects.get? h = some o) : s.NullsAgree h o col where
  setNull s' := by
    refine nulls_of_reaches
      (fun hinvalid => (refuses_liveObject_invalid hget hinvalid).bind _)
      fun t table hreaches => ?_
    unfold Session.setNull
    rw [EStateM.run_bind, run_liveObject_reaches hget hreaches]
    refine run_checkNullable_bind hwrought hreaches ?_
    rw [run_onEngine_eq_ok]
    refine exists_congr fun e => and_congr_left' ?_
    exact ObjectHandle.gives_setNull_iff_set hwrought
  setString htype text hnull s' := by
    obtain rfl : text = none := Option.isNone_iff_eq_none.1 hnull
    refine nulls_of_reaches
      (fun hinvalid =>
        ((refuses_liveObject_invalid hget hinvalid).bind _).bind _)
      fun t table hreaches => ?_
    rw [hreaches.column?_eq] at htype
    obtain ⟨c, hc, hstring⟩ := Option.map_eq_some_iff.1 htype
    have htyped := run_typedObject hget hreaches hc
    rw [hstring] at htyped
    unfold Session.setString
    rw [EStateM.run_bind, htyped]
    exact run_checkNullable_bind hwrought hreaches run_onEngine_eq_ok
  setLink htype s' := by
    refine nulls_of_reaches
      (fun hinvalid =>
        ((refuses_liveObject_invalid hget hinvalid).bind _).bind _)
      fun t table hreaches => ?_
    rw [hreaches.column?_eq] at htype
    obtain ⟨c, hc, hlink⟩ := Option.map_eq_some_iff.1 htype
    have hset := run_setTyped hget hreaches hc .null
    rw [hlink] at hset
    show (setTyped h col .link .null).run s = _ ↔ _
    rw [hset]
    exact run_onEngine_eq_ok

/-- All ways of writing null agree. At every point of every run, whatever the
handle and the column, making a value absent and writing null as a value do
the same to the engine, or both fail; they succeed exactly if the object is
reached by a transaction that writes and the cell is single and declared
nullable, and both record the one instruction that writes null. Through a
session null is written exactly if the handle that is lent out writes it, and
the session is left with the engine that this leaves, whether the value is
made absent, a text that is nothing is written to a column of texts, or -1 to
a column of links. -/
theorem null_written_alike {is : List Instruction} {snapshot : Snapshot}
    (hreached : Reached is snapshot) (log : Option HistoryLog)
    (limits : Limits) (earlier : List Engine.Event) (config : Config)
    (path : Option String) (events : List Event) :
    let s := (serving ((Engine.starting snapshot log limits).through earlier)
      config path).through events
    (∀ (o : ObjectHandle) (col : ColumnKey) (e : Engine),
      (Edit.Gives (o.setNull col) s.engine () e
        ↔ Edit.Gives (o.set col .null) s.engine () e)
      ∧ (Edit.Gives (o.set col .null) s.engine () e
        ↔ o.WritesNull col s.engine e))
      ∧ ∀ h o col, s.objects.get? h = some o → s.NullsAgree h o col := by
  intro s
  obtain ⟨-, hwrought⟩ :=
    wrought_through hreached log limits earlier config path events
  exact ⟨fun o col e => ⟨ObjectHandle.gives_setNull_iff_set hwrought,
      ObjectHandle.gives_set_null_iff⟩,
    fun h o col hget => nullsAgree hwrought hget⟩

/-- An object with a text that may be absent, and with a link to itself. -/
def linkedToItself : List Event :=
  [.call .beginWrite, .call (.addTable (Arena.pack 1 0) "t"),
    .call (.addColumn (Arena.pack 1 0) "text" 2 true),
    .call (.addLinkColumn (Arena.pack 1 0) "next" (Arena.pack 1 0)),
    .call (.createObject (Arena.pack 1 0)),
    .call (.setLink (Arena.pack 1 0) 2 0)]

/-- There the ways agree on the link, on the text, and through the handle. -/
theorem null_written_alike_linkedToItself :
    let s := (serving (Engine.starting .empty none ({} : Config).limits) {}
      none).through linkedToItself
    let h := Arena.pack 1 0
    ∃ o, s.objects.get? h = some o
      ∧ (∃ s', (setLink h 2 notFound).run s = .ok () s'
        ∧ (setNull h 2).run s = .ok () s')
      ∧ (∃ s', (setString h 1 none).run s = .ok () s'
        ∧ (setNull h 1).run s = .ok () s')
      ∧ ∃ e, Edit.Gives (o.set ⟨2⟩ .null) s.engine () e
        ∧ Edit.Gives (o.setNull ⟨2⟩) s.engine () e := by
  intro s h
  obtain ⟨hengine, hsession⟩ := null_written_alike .empty none
    ({} : Config).limits [] {} none linkedToItself
  let o : ObjectHandle := ⟨⟨⟨1⟩, 0⟩, ⟨0⟩, ⟨0⟩⟩
  have hget : s.objects.get? h = some o := by decide +kernel
  have hlink : (o.column? s.engine ⟨2⟩).map (·.spec.type) = some .link := by
    decide +kernel
  have htext : (o.column? s.engine ⟨1⟩).map (·.spec.type) = some .string := by
    decide +kernel
  have hgives (col : ColumnKey) (hcol : col = ⟨1⟩ ∨ col = ⟨2⟩) :
      ∃ e, Edit.Gives (o.set col .null) s.engine () e := by
    rcases hcol with rfl | rfl <;> exact ⟨_, rfl⟩
  obtain ⟨e₁, he₁⟩ := hgives ⟨1⟩ (.inl rfl)
  obtain ⟨e₂, he₂⟩ := hgives ⟨2⟩ (.inr rfl)
  have h₁ := hsession h o 1 hget
  have h₂ := hsession h o 2 hget
  exact ⟨o, hget,
    ⟨_, (h₂.setLink hlink _).2 ⟨e₂, he₂, rfl⟩, (h₂.setNull _).2 ⟨e₂, he₂, rfl⟩⟩,
    ⟨_, (h₁.setString htext none rfl _).2 ⟨e₁, he₁, rfl⟩,
      (h₁.setNull _).2 ⟨e₁, he₁, rfl⟩⟩,
    e₂, he₂, (hengine o ⟨2⟩ e₂).1.2 he₂⟩

end Colonnade.Boundary.Session
