/-
Why an instruction can fail. Some reasons lie with whoever wrote it: what it
names is not there, what it gives is refused, a state does not allow it
(`Error.IsMisuse`). The others are contradictions, and each of them stands
behind a check that a contradiction would have to pass: a key that was not
taken from its counter, a column that goes between two looks at it, a slot
beyond a column, a value that a column cannot hold though it accepts it.

None of these can be met. An instruction whose keys come from the counters of
the snapshot it is carried out on (`Instruction.Drawn`) fails by misuse or
not at all, if the tables of the snapshot are well formed and seated; and
all tables of reached snapshots are.

Most edits fail by misuse whatever they are carried out on. Where the state
matters, `Edit.FailsAt` follows it through an edit.

Chain: `Engine.Misuse` says it of the operations of handles.
-/
import Colonnade.Proofs.Snapshot.Seated
import Colonnade.Proofs.Snapshot.Verdict

namespace Colonnade

/-- Whether an error lies with the caller. -/
def Error.IsMisuse (err : Error) : Prop :=
  err.kind ∈ [.illegalArgument, .indexOutOfBounds, .classNotFound,
    .illegalState]

theorem Error.isMisuse_illegalArgument (why : BadArgument) :
    (illegalArgument why).IsMisuse := by
  simp [IsMisuse, kind]

theorem Error.isMisuse_indexOutOfBounds (what : String)
    (index length : Nat) : (indexOutOfBounds what index length).IsMisuse := by
  simp [IsMisuse, kind]

theorem Error.isMisuse_classNotFound (name : String) :
    (classNotFound name).IsMisuse := by
  simp [IsMisuse, kind]

theorem Error.isMisuse_illegalState (why : BadState) :
    (illegalState why).IsMisuse := by
  simp [IsMisuse, kind]

open Error

-- ================================================ failing, from one state

namespace Edit

variable {σ τ α β : Type} {P : Error → Prop} {s : σ}

/-- Every error of the edit on a state has a property. -/
def FailsAt (P : Error → Prop) (x : Edit σ α) (s : σ) : Prop :=
  ∀ err s', x.run s = .error err s' → P err

/-- What fails only so at every state fails only so at one. -/
theorem Fails.at {x : Edit σ α} (h : Fails P x) (s : σ) : FailsAt P x s :=
  h s

namespace FailsAt

theorem pure (a : α) : FailsAt P (Pure.pure a : Edit σ α) s := nofun

theorem set (t : σ) : FailsAt P (MonadStateOf.set t : Edit σ PUnit) s :=
  nofun

theorem throw {err : Error} (h : P err) :
    FailsAt P (MonadExcept.throw err : Edit σ α) s :=
  (Fails.throw h).at s

/-- The second step is asked about the states that the first one gives. -/
theorem bind {x : Edit σ α} {f : α → Edit σ β} (hx : FailsAt P x s)
    (hf : ∀ a s', Gives x s a s' → FailsAt P (f a) s') :
    FailsAt P (x >>= f) s := by
  intro err s' h
  rw [EStateM.run_bind] at h
  cases hrun : x.run s with
  | ok a t =>
      rw [hrun] at h
      exact hf a t hrun err s' h
  | error err' t =>
      rw [hrun] at h
      cases h
      exact hx err s' hrun

/-- Looking at the state fails as what is done with it. -/
theorem get_bind {f : σ → Edit σ β} (h : FailsAt P (f s) s) :
    FailsAt P (get >>= f) s := h

/-- A check that fails only so may stand in front. -/
theorem lift_bind {x : Except Error α} {f : α → Edit σ β}
    (hx : ∀ err, x = .error err → P err)
    (hf : ∀ a, x = .ok a → FailsAt P (f a) s) :
    FailsAt P (liftM x >>= f) s := by
  cases x with
  | ok a => exact hf a rfl
  | error err => exact .throw (hx err rfl)

/-- An edit behind a guard that lets every such state pass. -/
theorem guard {c : Prop} [Decidable c] {err : Error} {x : Edit σ α}
    (hc : ¬ c) (hx : FailsAt P x s) :
    FailsAt P (if c then MonadExcept.throw err else x) s := by
  rw [if_neg hc]
  exact hx

/-- An edit behind a guard whose error may be met. -/
theorem refuse {c : Prop} [Decidable c] {err : Error} {x : Edit σ α}
    (herr : P err) (hx : FailsAt P x s) :
    FailsAt P (if c then MonadExcept.throw err else x) s := by
  split
  · exact .throw herr
  · exact hx

/-- What is done to a part fails as it would on the part alone. -/
theorem focus {part : σ → τ} {put : τ → σ → σ} {e : Edit τ α}
    (he : FailsAt P e (part s)) : FailsAt P (Edit.focus part put e) s := by
  intro err s' h
  obtain ⟨t, hrun, -⟩ := focus_error h
  exact he err t hrun

/-- An edit that succeeds on a state does not fail there. -/
theorem of_verdict {x : Edit σ α} {a : α} (h : verdict x s = .ok a) :
    FailsAt P x s := by
  intro err s' hrun
  unfold verdict at h
  rw [hrun] at h
  cases h

end FailsAt

end Edit

-- ================================================================ checks

namespace Check

variable {α β : Type} {P : Error → Prop}

/-- Every error of a check has a property. -/
def Fails (P : Error → Prop) (x : Except Error α) : Prop :=
  ∀ err, x = .error err → P err

namespace Fails

theorem ok (a : α) : Fails P (.ok a) := nofun

theorem error {err : Error} (h : P err) :
    Fails P (.error err : Except Error α) := by
  intro err' herr
  cases herr
  exact h

/-- The second check is asked about the answers of the first. -/
theorem bind {x : Except Error α} {f : α → Except Error β} (hx : Fails P x)
    (hf : ∀ a, x = .ok a → Fails P (f a)) : Fails P (x >>= f) := by
  cases x with
  | ok a => exact hf a rfl
  | error err => exact .error (hx err rfl)

/-- A guard may refuse in front. -/
theorem guard {c : Prop} [Decidable c] {err : Error} {x : Except Error α}
    (herr : P err) (hx : Fails P x) :
    Fails P (if c then throw err else x) := by
  split
  · exact .error herr
  · exact hx

end Fails

end Check

/-- A declaration is refused for what it says. -/
theorem ColumnSpec.misuse_check (s : ColumnSpec) :
    Check.Fails IsMisuse s.check := by
  have hbad (why : BadArgument) := isMisuse_illegalArgument why
  exact .guard (hbad _) (.guard (hbad _) (.guard (hbad _) (.guard (hbad _)
    (.guard (hbad _) (.guard (hbad _) (.ok ()))))))

namespace Column

variable (c : Column) (limits : Limits) (v : Value)

/-- A cell is refused for its type, for being null or for its size. -/
theorem misuse_checkCell : Check.Fails IsMisuse (c.checkCell limits v) := by
  have hbad (why : BadArgument) :
      Check.Fails IsMisuse (.error (illegalArgument why) : Except Error Unit) :=
    .error (isMisuse_illegalArgument why)
  unfold checkCell
  dsimp only
  repeat' split
  all_goals first
    | exact .ok ()
    | exact hbad _

theorem misuse_checkValue : Check.Fails IsMisuse (c.checkValue limits v) :=
  .guard (isMisuse_illegalArgument _) (c.misuse_checkCell limits v)

/-- An element is refused for itself, or for going to what is no list. -/
theorem misuse_checkElement :
    Check.Fails IsMisuse (c.checkElement limits v) :=
  .guard (isMisuse_illegalArgument _)
    (.guard (isMisuse_illegalArgument _) (c.misuse_checkCell limits v))

theorem misuse_editList (slot : Nat) (f : List Value → List Value) :
    Edit.Fails IsMisuse (editList slot f) := by
  refine .get_bind fun c => ?_
  dsimp only
  split
  next => exact .throw (isMisuse_illegalArgument _)
  next =>
    split
    next => exact .throw (isMisuse_illegalArgument _)
    next => exact .set _

/-- Storing a value that a column of single cells accepts does not fail. -/
theorem misuse_put {c : Column} (hf : c.Formed) {slot : Nat}
    (hslot : slot < c.size) {limits : Limits} {v : Value}
    (hlist : c.spec.isList = false) (hfits : c.spec.Accepts limits v) :
    Edit.FailsAt IsMisuse (put slot v) c := by
  have hholds := Table.canHold_of_accepts hlist hfits
  refine .of_verdict (a := ()) ?_
  rw [verdict_put hf hslot, if_pos hholds]

end Column

-- ================================================================ tables

namespace Table

section Checks

variable (t : Table) (limits : Limits) (key : ObjectKey) (col : ColumnKey)
  (v : Value)

theorem misuse_requireColumn :
    Check.Fails IsMisuse (t.requireColumn col) := by
  unfold requireColumn
  split
  · exact .ok _
  · exact .error (isMisuse_illegalArgument _)

theorem misuse_requireSlot : Check.Fails IsMisuse (t.requireSlot key) := by
  unfold requireSlot
  split
  · exact .ok _
  · exact .error (isMisuse_illegalArgument _)

/-- A list is refused if its row, its column or the list is not there. -/
theorem misuse_listOf : Check.Fails IsMisuse (t.listOf key col) := by
  refine .bind (t.misuse_requireColumn col) fun c _ => ?_
  refine .bind (t.misuse_requireSlot key) fun slot _ => ?_
  split
  · exact .ok _
  · exact .error (isMisuse_illegalArgument _)

/-- A new column is refused for its name or its declaration. -/
theorem misuse_checkNewColumn (spec : ColumnSpec) :
    Check.Fails IsMisuse (t.checkNewColumn spec) :=
  .bind spec.misuse_check fun _ _ =>
    .guard (isMisuse_illegalArgument _) (.ok ())

/-- A value is refused for its place or for itself. -/
theorem misuse_checkSet :
    Check.Fails IsMisuse (t.checkSet limits key col v) :=
  .bind (t.misuse_requireColumn col) fun c _ =>
    .bind (t.misuse_requireSlot key) fun _ _ => c.misuse_checkValue limits v

/-- An element is refused for its place or for itself. -/
theorem misuse_checkElement :
    Check.Fails IsMisuse (t.checkElement limits key col v) :=
  .bind (t.misuse_requireColumn col) fun c _ =>
    .bind (t.misuse_requireSlot key) fun _ _ => c.misuse_checkElement limits v

theorem misuse_checkNullable :
    Check.Fails IsMisuse (t.checkNullable col) := by
  refine .bind (t.misuse_requireColumn col) fun c _ => ?_
  split
  · exact .ok ()
  · exact .guard (isMisuse_illegalArgument _)
      (.guard (isMisuse_illegalArgument _) (.ok ()))

end Checks

section Edits

variable {t : Table} {limits : Limits} {key : ObjectKey} {col : ColumnKey}
  {v : Value}

/-- A column under the next key is refused for its declaration only. -/
theorem misuse_insertColumn (spec : ColumnSpec) :
    Edit.FailsAt IsMisuse (insertColumn .ample t.nextColumnKey spec) t := by
  rw [insertColumn_ample]
  exact .get_bind (.lift_bind (t.misuse_checkNewColumn spec) fun _ _ =>
    .guard (fun hne => hne rfl) (.set _))

/-- With room for everything a row under the next key is not refused. -/
theorem misuse_insertObject :
    Edit.FailsAt IsMisuse (insertObject .ample t.nextObject) t := by
  rw [insertObject_ample]
  exact .get_bind (.guard (fun hne => hne rfl) (.set _))

theorem misuse_removeColumn (col : ColumnKey) :
    Edit.Fails IsMisuse (removeColumn col) :=
  .get_bind fun t => .bind (.lift (t.misuse_requireColumn col))
    fun _ => .set _

theorem misuse_removeObject (key : ObjectKey) :
    Edit.Fails IsMisuse (removeObject key) :=
  .get_bind fun t => .bind (.lift (t.misuse_requireSlot key)) fun _ => .set _

/-- What passes the check of a write is written: the column is still there,
has a cell for the object, and can hold the value. -/
theorem misuse_setValue (hf : t.Formed) (hseated : t.Seated) :
    Edit.FailsAt IsMisuse (setValue limits key col v) t := by
  refine .get_bind
    (.lift_bind (t.misuse_checkSet limits key col v) fun _ hset => ?_)
  refine .lift_bind (t.misuse_requireSlot key) fun slot hslot => ?_
  obtain ⟨c, hc, -, hlist, hfits⟩ := checkSet_eq_ok.1 hset
  have hlt := hseated.slot_lt hc (requireSlot_eq_ok.1 hslot)
  refine Edit.FailsAt.get_bind ?_
  rw [hc]
  exact .focus (Column.misuse_put (hf c (mem_of_column? hc)) hlt hlist hfits)

theorem misuse_editList (key : ObjectKey) (col : ColumnKey)
    (f : List Value → List Value) :
    Edit.Fails IsMisuse (editList key col f) := by
  refine .get_bind fun t => .bind (.lift (t.misuse_requireSlot key))
    fun slot => .get_bind fun u => ?_
  split
  · exact .throw (isMisuse_illegalArgument _)
  · exact .focus (Column.misuse_editList slot f)

/-- An insertion fails for its place, its element or its index. -/
theorem misuse_listInsert (index : Nat) :
    Edit.Fails IsMisuse (listInsert .ample limits key col index v) := by
  rw [listInsert_ample]
  exact .get_bind fun t =>
    .bind (.lift (t.misuse_checkElement limits key col v)) fun _ =>
      .bind (.lift (t.misuse_listOf key col)) fun _ =>
        .guard (isMisuse_indexOutOfBounds ..) (misuse_editList _ _ _)

theorem misuse_listSet (index : Nat) :
    Edit.Fails IsMisuse (listSet limits key col index v) :=
  .get_bind fun t =>
    .bind (.lift (t.misuse_checkElement limits key col v)) fun _ =>
      .bind (.lift (t.misuse_listOf key col)) fun _ =>
        .guard (isMisuse_indexOutOfBounds ..) (misuse_editList _ _ _)

theorem misuse_listRemove (index : Nat) :
    Edit.Fails IsMisuse (listRemove key col index) :=
  .get_bind fun t => .bind (.lift (t.misuse_listOf key col)) fun _ =>
    .guard (isMisuse_indexOutOfBounds ..) (misuse_editList _ _ _)

theorem misuse_listClear : Edit.Fails IsMisuse (listClear key col) :=
  .get_bind fun t => .bind (.lift (t.misuse_listOf key col)) fun _ =>
    misuse_editList _ _ _

end Edits

end Table

-- ========================================================== instructions

/-- Whether the key that an instruction gives to what it makes was drawn from
the counter of a snapshot. -/
def Instruction.Drawn (s : Snapshot) : Instruction → Prop
  | .addTable key _ => key = s.nextTable
  | .addColumn table col _ =>
    ∀ t, s.table? table = some t → col = t.nextColumnKey
  | .createObject table key =>
    ∀ t, s.table? table = some t → key = t.nextObject
  | _ => True

namespace Snapshot

variable {s : Snapshot} {limits : Limits} {table : TableKey}
  {key : ObjectKey} {col : ColumnKey} {v : Value}

theorem misuse_requireTable (s : Snapshot) (table : TableKey) :
    Check.Fails IsMisuse (s.requireTable table) := by
  unfold requireTable
  split
  · exact .ok _
  · exact .error (isMisuse_illegalArgument _)

/-- A link is refused if nothing is where it leads. -/
theorem misuse_checkLink (s : Snapshot) (t : Table) (col : ColumnKey)
    (v : Value) : Check.Fails IsMisuse (s.checkLink t col v) := by
  unfold checkLink
  split
  · refine .bind (t.misuse_requireColumn col) fun c _ => ?_
    split
    · exact .error (isMisuse_illegalArgument _)
    · exact .guard (isMisuse_illegalArgument _) (.ok ())
  · exact .ok ()

/-- An edit of a table fails as it does on the table that is there. -/
theorem misuse_onTable {e : Edit Table Unit}
    (he : ∀ t, s.table? table = some t → Edit.FailsAt IsMisuse e t) :
    Edit.FailsAt IsMisuse (onTable table e) s :=
  .get_bind (.lift_bind (s.misuse_requireTable table) fun t ht =>
    .focus (he t (requireTable_eq_ok.1 ht)))

/-- Adding a table under the next key fails only for its name. -/
theorem misuse_addTable (name : String) :
    Edit.FailsAt IsMisuse (addTable s.nextTable name) s :=
  .get_bind (.refuse (isMisuse_illegalArgument _)
    (.refuse (isMisuse_illegalArgument _)
      (.guard (fun hne => hne rfl) (.set _))))

/-- Removing a table fails only if it is not there or links lead to it. -/
theorem misuse_removeTable (table : TableKey) :
    Edit.Fails IsMisuse (removeTable table) := by
  refine .get_bind fun s => .bind (.lift (s.misuse_requireTable table))
    fun t => ?_
  split
  · exact .throw (isMisuse_illegalArgument _)
  · exact .set _

/-- A column under the next key is refused only for what is asked. -/
theorem misuse_addColumn {spec : ColumnSpec}
    (hcol : ∀ t, s.table? table = some t → col = t.nextColumnKey) :
    Edit.FailsAt IsMisuse (addColumn .ample table col spec) s := by
  have hrest : Edit.FailsAt IsMisuse (do
      let t ← liftM (s.requireTable table)
      liftM (t.checkNewColumn spec)
      onTable table (Table.insertColumn .ample col spec)) s := by
    refine .lift_bind (s.misuse_requireTable table) fun t ht => ?_
    refine .lift_bind (t.misuse_checkNewColumn spec) fun _ _ => ?_
    refine misuse_onTable fun u hu => ?_
    rw [hcol u hu]
    exact Table.misuse_insertColumn spec
  refine .get_bind ?_
  split
  · exact .refuse (isMisuse_illegalArgument _) hrest
  · exact hrest

theorem misuse_removeObject (table : TableKey) (key : ObjectKey) :
    Edit.Fails IsMisuse (removeObject table key) := by
  refine .get_bind fun s => .bind (.lift (s.misuse_requireTable table))
    fun t => .guard (isMisuse_illegalArgument _) ?_
  refine .bind (fun s => ?_) fun _ => .modify _
  exact misuse_onTable fun t _ => (Table.misuse_removeObject key).at t

theorem misuse_setValue (hf : s.Formed) (hseated : s.Seated) :
    Edit.FailsAt IsMisuse (setValue limits table key col v) s :=
  .get_bind (.lift_bind (s.misuse_requireTable table) fun t _ =>
    .lift_bind (t.misuse_checkSet limits key col v) fun _ _ =>
      .lift_bind (s.misuse_checkLink t col v) fun _ _ =>
        misuse_onTable fun u hu =>
          Table.misuse_setValue (hf.table _ u hu) (hseated _ u hu))

/-- Writing an element fails for what is asked, or as the write itself does.
-/
theorem misuse_writeElement {write : Edit Table Unit}
    (hwrite : Edit.Fails IsMisuse write) :
    Edit.FailsAt IsMisuse (writeElement limits table key col v write) s :=
  .get_bind (.lift_bind (s.misuse_requireTable table) fun t _ =>
    .lift_bind (t.misuse_checkElement limits key col v) fun _ _ =>
      .lift_bind (s.misuse_checkLink t col v) fun _ _ =>
        misuse_onTable fun u _ => hwrite.at u)

/-- Shrinking a list fails for its place, or as the shrinking itself does. -/
theorem misuse_shrinkList {shrink : Edit Table Unit}
    (hshrink : Edit.Fails IsMisuse shrink) :
    Edit.FailsAt IsMisuse (shrinkList table key col shrink) s :=
  .get_bind (.lift_bind (s.misuse_requireTable table) fun t _ =>
    .lift_bind (t.misuse_listOf key col) fun _ _ =>
      misuse_onTable fun u _ => hshrink.at u)

/-- No instruction meets a contradiction whose keys were drawn from the
counters. -/
theorem misuse_apply (hf : s.Formed) (hseated : s.Seated) {i : Instruction}
    (hdrawn : i.Drawn s) : Edit.FailsAt IsMisuse (apply limits i) s := by
  cases i with
  | addTable key name =>
      obtain rfl : key = s.nextTable := hdrawn
      exact misuse_addTable name
  | removeTable key => exact (misuse_removeTable key).at s
  | addColumn table col spec => exact misuse_addColumn hdrawn
  | removeColumn table col =>
      exact .get_bind (.lift_bind (s.misuse_requireTable table) fun t _ =>
        .lift_bind (t.misuse_requireColumn col) fun _ _ =>
          misuse_onTable fun u _ => (Table.misuse_removeColumn col).at u)
  | createObject table key =>
      refine .get_bind (.lift_bind (s.misuse_requireTable table) fun t _ =>
        misuse_onTable fun u hu => ?_)
      rw [hdrawn u hu]
      exact Table.misuse_insertObject
  | removeObject table key => exact (misuse_removeObject table key).at s
  | set table key col v => exact misuse_setValue hf hseated
  | listInsert table key col index v =>
      exact misuse_writeElement (Table.misuse_listInsert _)
  | listSet table key col index v =>
      exact misuse_writeElement (Table.misuse_listSet _)
  | listRemove table key col index =>
      exact misuse_shrinkList (Table.misuse_listRemove _)
  | listClear table key col => exact misuse_shrinkList Table.misuse_listClear

end Snapshot

end Colonnade
