/-
What handles can do to an engine. A call through a handle, or one that adds
or removes a table, takes few kinds of steps: it counts a use that came too
late, it writes an instruction to the view of one transaction, or it puts a
view back as it was. A property is `Lasting` if no such step ends it, and
then no such call does, however many steps the call takes and whether it
succeeds or fails. `Lasting` is all that has to be shown of a property; the
calls are gone through here, once.

The other calls begin, end or move a transaction (`Call.turnsOver`).

Chain: what handles do is one of the cases in `Engine.Stepped`.
-/
import Colonnade.Proofs.Engine.Run

namespace Colonnade

namespace Engine

/-- A step that a handle can take. -/
inductive Handled (e : Engine) : Engine → Prop
  | counted : Handled e { e with
      stats := { e.stats with
        staleHandleUses := e.stats.staleHandleUses + 1 } }
  | kept {id : TransactionId} {t : Transaction}
      (ht : e.transaction? id = some t) : Handled e (e.withTransaction id t)
  | wrote {id : TransactionId} {t : Transaction}
      {build : Snapshot → Except Error Instruction} {i : Instruction}
      {v : View} (ht : e.transaction? id = some t)
      (hwrote : View.Wrote e.limits build t.view i v) :
      Handled e (e.withTransaction id { t with view := v })

/-- A property that no step of a handle ends. -/
def Lasting (P : Engine → Prop) : Prop :=
  ∀ e e', P e → Handled e e' → P e'

namespace Lasting

variable {P : Engine → Prop} {e : Engine} {id : TransactionId}
  {t : Transaction} {α : Type}

/-- A write changes the view it is made to, or puts it back. -/
theorem put_written (hP : Lasting P) (h : P e)
    (ht : e.transaction? id = some t)
    {build : Snapshot → Except Error Instruction} {generation : UInt64}
    {result : Option (Except Error Instruction)} {view : View}
    (hwrite : t.view.write e.limits generation build = (result, view)) :
    Edit.Ends (· = e) (put id { t with view }) (fun _ => P) P := by
  refine .modify fun s hs => ?_
  subst hs
  rcases View.write_cases hwrite with ⟨i, -, hwrote⟩ | ⟨rfl, -⟩
  · exact hP s _ h (.wrote ht hwrote)
  · exact hP s _ h (.kept ht)

/-- What lasts is kept by a write to a view. -/
theorem writeView (hP : Lasting P)
    (build : Snapshot → Except Error Instruction) :
    Edit.Preserves P (writeView id build) := by
  refine Edit.Ends.get_bind fun e he => ?_
  refine Edit.Ends.lift_bind (fun t ht => ?_) fun s hs => hs ▸ he
  rw [requireTransaction_eq_ok] at ht
  cases hwrite : t.view.write e.limits t.view.generation build with
  | mk result view =>
      refine (hP.put_written he ht hwrite).bind fun _ => ?_
      cases result with
      | none => exact .throw fun _ h => h
      | some result =>
          cases result with
          | ok i => exact .pure fun _ h => h
          | error err => exact .throw fun _ h => h

theorem refuse (hP : Lasting P) (stale : Error) :
    Edit.Preserves P (Anchor.refuse stale : Edit Engine α) := by
  have hcount : Edit.Preserves P (count fun s =>
      { s with staleHandleUses := s.staleHandleUses + 1 }) :=
    fun e h => hP e _ h .counted
  exact hcount.bind fun _ => .throw fun _ h => h

/-- What lasts is kept by reading through an anchor. -/
theorem read (hP : Lasting P) (a : Anchor) (stale : Error)
    (f : Snapshot → Except Error α) :
    Edit.Preserves P (a.read stale f) := by
  refine Edit.Ends.get_bind fun e he => ?_
  split
  next => exact .throw fun s hs => hs ▸ he
  next t ht =>
    split
    next => exact (hP.refuse stale).of_eq he
    next result hresult =>
      cases result with
      | ok x => exact .pure fun s hs => hs ▸ he
      | error err => exact .throw fun s hs => hs ▸ he

/-- What lasts is kept by writing through an anchor. -/
theorem write (hP : Lasting P) (a : Anchor) (stale : Error)
    (build : Snapshot → Except Error Instruction) :
    Edit.Preserves P (a.write stale build) := by
  refine Edit.Ends.get_bind fun e he => ?_
  split
  next => exact .throw fun s hs => hs ▸ he
  next t ht =>
    cases hwrite : t.view.write e.limits a.generation build with
    | mk result view =>
        refine (hP.put_written he ht hwrite).bind fun _ => ?_
        cases result with
        | none => exact hP.refuse stale
        | some result =>
            cases result with
            | ok i => exact .pure fun _ h => h
            | error err => exact .throw fun _ h => h

-- ============================================================== tables

theorem addTable (hP : Lasting P) (name : String) :
    Edit.Preserves P (addTable id name) := by
  refine Edit.Ends.get_bind fun e he => ?_
  refine Edit.Ends.lift_bind (fun t ht => ?_) fun s hs => hs ▸ he
  refine ((hP.writeView _).of_eq he).bind fun i => ?_
  split
  next =>
    refine Edit.Ends.get_bind fun s hs => ?_
    exact Edit.Ends.lift_bind (fun a ha => .pure fun _ h => h ▸ hs)
      fun _ h => h ▸ hs
  next => exact .throw fun _ h => h

theorem getOrAddTable (hP : Lasting P) (name : String) :
    Edit.Preserves P (getOrAddTable id name) := by
  refine Edit.Ends.get_bind fun e he => ?_
  refine Edit.Ends.lift_bind (fun found hfound => ?_) fun s hs => hs ▸ he
  split
  next => exact .pure fun s hs => hs ▸ he
  next => exact (hP.addTable name).of_eq he

theorem removeTable (hP : Lasting P) (name : String) :
    Edit.Preserves P (removeTable id name) := by
  refine Edit.Ends.get_bind fun e he => ?_
  refine Edit.Ends.lift_bind (fun t ht => ?_) fun s hs => hs ▸ he
  refine Edit.Ends.get_bind fun u hu => ?_
  subst hu
  refine Edit.Ends.lift_bind (fun h hh => ?_) fun s hs => hs ▸ he
  exact ((hP.writeView _).of_eq he).bind fun _ => .pure fun _ h => h

theorem removeObject (hP : Lasting P) (h : TableHandle) (key : ObjectKey) :
    Edit.Preserves P (h.removeObject key) :=
  Edit.Ends.bind (hP.write _ _ _) fun _ => .pure fun _ h => h

theorem clear (hP : Lasting P) (h : TableHandle) :
    Edit.Preserves P h.clear := by
  refine Edit.Ends.bind (hP.read _ _ _) fun keys => ?_
  induction keys with
  | nil => exact .pure fun _ h => h
  | cons key keys ih =>
      exact Edit.Ends.bind (hP.removeObject h key) fun _ => ih

end Lasting

end Engine

open Engine

namespace TableHandle

variable {P : Engine → Prop}

theorem addColumn_lasting (h : TableHandle) (hP : Lasting P)
    (spec : ColumnSpec) : Edit.Preserves P (h.addColumn spec) := by
  refine Edit.Ends.bind (hP.write _ _ _) fun i => ?_
  split
  next => exact .pure fun _ h => h
  next => exact .throw fun _ h => h

theorem createObject_lasting (h : TableHandle) (hP : Lasting P) :
    Edit.Preserves P h.createObject := by
  refine Edit.Ends.bind (hP.write _ _ _) fun i => ?_
  split
  next => exact .pure fun _ h => h
  next => exact .throw fun _ h => h

end TableHandle

namespace Call

/-- Whether a call begins, ends or moves a transaction. -/
def turnsOver : Call → Bool
  | beginRead | beginWrite | commit _ | commitAndRead _ | rollback _
  | drop _ | advance _ => true
  | _ => false

/-- A lasting property outlasts every call through a handle. -/
theorem run_lasting {P : Engine → Prop} (hP : Lasting P) {c : Call}
    (hc : c.turnsOver = false) : Edit.Preserves P c.run := by
  have hdone {α : Type} {x : Edit Engine α} (h : Edit.Preserves P x) :
      Edit.Preserves P (do let _ ← x) :=
    Edit.Ends.bind h fun _ => .pure fun _ h => h
  cases c with
  | beginRead | beginWrite | commit | commitAndRead | rollback | drop
  | advance => cases hc
  | addTable id name => exact hdone (hP.addTable name)
  | getOrAddTable id name => exact hdone (hP.getOrAddTable name)
  | removeTable id name => exact hP.removeTable name
  | addColumn h spec => exact hdone (h.addColumn_lasting hP spec)
  | createObject h => exact hdone (h.createObject_lasting hP)
  | removeObject h key => exact hP.removeObject h key
  | clear h => exact hP.clear h
  | readTable h f => exact hdone (hP.read _ _ _)
  | readObject h f => exact hdone (hP.read _ _ _)
  | removeColumn h | set h | setNull h | listInsert h | listPush h
  | listSet h | listRemove h | listClear h | remove h =>
      exact hdone (hP.write _ _ _)

/-- What lasts is kept by every call that turns nothing over. -/
theorem step_lasting {P : Engine → Prop} (hP : Lasting P) {c : Call}
    (hc : c.turnsOver = false) {e : Engine} (he : P e) : P (c.step e) := by
  have hends := run_lasting hP hc e he
  unfold step
  cases hrun : c.run.run e with
  | ok a e' =>
      rw [hrun] at hends
      exact hends
  | error err e' =>
      rw [hrun] at hends
      exact hends

end Call

end Colonnade
