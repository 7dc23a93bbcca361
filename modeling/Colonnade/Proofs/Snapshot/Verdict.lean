/-
Why an instruction fails. The `verdict` of an edit is its outcome without
the state: what it gives, or the reason why it fails. An edit asks and then
changes, so its verdict is the sequence of what it asks, and the rules below
read it off the shape of the edit.

Peers give one verdict (`Peers.apply_verdict`). Every question is about
declarations, counters, names, and whether something is there, none of which
depends on where rows lie. Two questions look at cells. Whether a column can
hold a value and whether it has lists shows in its array, but the arrays of
a sound table are of the kind that is declared, so the declaration decides
these too (`verdict_put`, `verdict_editList`).

Chain: `Snapshot.Commuting` adds what peers become.
-/
import Colonnade.Proofs.Snapshot.Observed

namespace Colonnade

-- ======================================================= verdicts

namespace Edit

variable {σ τ α β : Type}

/-- What an edit gives or why it fails. -/
def verdict (e : Edit σ α) (s : σ) : Except Error α :=
  match e.run s with
  | .ok a _ => .ok a
  | .error err _ => .error err

@[simp]
theorem verdict_get_bind (f : σ → Edit σ α) (s : σ) :
    verdict (get >>= f) s = verdict (f s) s := rfl

@[simp]
theorem verdict_throw (err : Error) (s : σ) :
    verdict (throw err : Edit σ α) s = .error err := rfl

@[simp]
theorem verdict_set (t s : σ) :
    verdict (set t : Edit σ PUnit) s = .ok () := rfl

/-- The verdict of a check comes first. -/
@[simp]
theorem verdict_lift_bind (x : Except Error β) (f : β → Edit σ α) (s : σ) :
    verdict ((liftM x : Edit σ β) >>= f) s = x >>= fun b => verdict (f b) s := by
  cases x <;> rfl

@[simp]
theorem verdict_ite {c : Prop} [Decidable c] (x y : Edit σ α) (s : σ) :
    verdict (if c then x else y) s = if c then verdict x s else verdict y s := by
  split <;> rfl

/-- A change at the end has no say in the verdict. -/
@[simp]
theorem verdict_bind_modify (e : Edit σ Unit) (f : σ → σ) (s : σ) :
    verdict (e >>= fun _ => modify f) s = verdict e s := by
  unfold verdict
  rw [EStateM.run_bind]
  cases e.run s <;> rfl

/-- The verdict on a part is that on the part alone. -/
@[simp]
theorem verdict_focus (part : σ → τ) (put : τ → σ → σ) (e : Edit τ α)
    (s : σ) : verdict (focus part put e) s = verdict e (part s) := by
  unfold verdict focus
  show (match (match e.run (part s) with
    | .ok a t => EStateM.Result.ok a (put t s)
    | .error err t => .error err (put t s)) with
    | .ok a _ => Except.ok a
    | .error err _ => .error err) = _
  cases e.run (part s) <;> rfl

end Edit

-- ======================================================= one column

namespace Column

variable {c d : Column} {slot : Nat} {v : Value} {limits : Limits}

/-- A column checks values by its declaration. -/
theorem checkValue_congr (h : c.spec = d.spec) :
    c.checkValue limits v = d.checkValue limits v := by
  unfold checkValue checkCell
  rw [h]

theorem checkElement_congr (h : c.spec = d.spec) :
    c.checkElement limits v = d.checkElement limits v := by
  unfold checkElement checkCell
  rw [h]

theorem canHold_congr (h : c.spec = d.spec) : c.canHold v = d.canHold v := by
  unfold canHold
  rw [h]

/-- Whether a value can be stored in a cell that is there is declared. -/
theorem verdict_put (hf : c.Formed) (hslot : slot < c.size) :
    (put slot v).verdict c
      = if c.canHold v then .ok ()
        else .error (.fatal (.uncheckedValue c.spec.name)) := by
  have hsuits := hf.suits
  unfold put
  simp only [Edit.verdict_get_bind, Nat.not_le.2 hslot, if_false]
  cases hcells : c.cells with
  | values cells =>
      dsimp only
      split <;> rfl
  | lists cells =>
      rw [hcells] at hsuits
      have hlist : c.spec.isList = true := hsuits
      simp [canHold, hlist]

/-- Whether a cell that is there holds a list is declared. -/
theorem verdict_editList (hf : c.Formed) (hslot : slot < c.size)
    (f : List Value → List Value) :
    (editList slot f).verdict c
      = if c.spec.isList then .ok ()
        else .error (.illegalArgument (.notAList c.spec.name)) := by
  have hsuits := hf.suits
  unfold editList
  simp only [Edit.verdict_get_bind]
  cases hcells : c.cells with
  | values cells =>
      rw [hcells] at hsuits
      have hlist : c.spec.isList = false := hsuits
      simp [hlist]
  | lists cells =>
      rw [hcells] at hsuits
      have hlist : c.spec.isList = true := hsuits
      have hthere : slot < cells.size := by
        change slot < c.cells.size at hslot
        rwa [hcells] at hslot
      simp [hlist, Array.getElem?_eq_getElem hthere]

end Column

-- ======================================================= one table

namespace Table.Peers

variable {t u : Table} {key : ObjectKey} {col : ColumnKey} {v : Value}
  {limits : Limits} {index : Nat}

/-- Peers have the same columns under the same names. -/
theorem columnKey?_eq (h : t.Peers u) (name : String) :
    t.columnKey? name = u.columnKey? name := by
  have hdeclared (t : Table) : t.columnKey? name
      = (t.logical.columns.find? (·.2.name == name)).map (·.1) := by
    show _ = ((t.columns.map _).find? _).map _
    rw [List.find?_map, Option.map_map]
    rfl
  rw [hdeclared, hdeclared, h.logical_eq]

/-- Peers have links to the same tables. -/
theorem linksInto_eq (h : t.Peers u) (target : TableKey) :
    t.linksInto target = u.linksInto target := by
  have hdeclared (t : Table) : t.linksInto target
      = t.logical.columns.any (·.2.target == some target) := by
    show _ = (t.columns.map _).any _
    rw [List.any_map]
    rfl
  rw [hdeclared, hdeclared, h.logical_eq]

/-- Peers take the same new columns. -/
theorem checkNewColumn_eq (h : t.Peers u) (spec : ColumnSpec) :
    t.checkNewColumn spec = u.checkNewColumn spec := by
  unfold checkNewColumn
  rw [h.columnKey?_eq, h.frame.name_eq]

/-- Peers take the same values. -/
theorem checkSet_eq (h : t.Peers u) :
    t.checkSet limits key col v = u.checkSet limits key col v := by
  unfold checkSet
  refine h.frame.requireColumn_congr fun c d hc hd hspec => ?_
  refine h.requireSlot_congr fun i j hi hj hrow => ?_
  exact Column.checkValue_congr hspec

theorem checkElement_eq (h : t.Peers u) :
    t.checkElement limits key col v = u.checkElement limits key col v := by
  unfold checkElement
  refine h.frame.requireColumn_congr fun c d hc hd hspec => ?_
  refine h.requireSlot_congr fun i j hi hj hrow => ?_
  exact Column.checkElement_congr hspec

/-- Peers answer alike to a new column. -/
theorem verdict_insertColumn (h : t.Peers u) (spec : ColumnSpec) :
    (insertColumn .ample col spec).verdict t
      = (insertColumn .ample col spec).verdict u := by
  rw [insertColumn_ample]
  rw [Edit.verdict_get_bind, Edit.verdict_get_bind, Edit.verdict_lift_bind,
    Edit.verdict_lift_bind, h.checkNewColumn_eq]
  refine congrArg _ (funext fun _ => ?_)
  rw [h.frame.nextColumnKey_eq, h.frame.name_eq]
  simp only [Edit.throw_bind, Edit.verdict_ite, Edit.verdict_throw,
    Edit.verdict_set]

theorem verdict_removeColumn (h : t.Peers u) :
    (removeColumn col).verdict t = (removeColumn col).verdict u := by
  unfold removeColumn
  simp only [Edit.verdict_get_bind, Edit.verdict_lift_bind, Edit.verdict_set]
  exact h.frame.requireColumn_congr fun c d hc hd hspec => rfl

theorem verdict_insertObject (h : t.Peers u) :
    (insertObject .ample key).verdict t
      = (insertObject .ample key).verdict u := by
  rw [insertObject_ample]
  rw [Edit.verdict_get_bind, Edit.verdict_get_bind, h.frame.nextObject_eq,
    h.frame.name_eq]
  simp only [Edit.throw_bind, Edit.verdict_ite, Edit.verdict_throw,
    Edit.verdict_set]

theorem verdict_removeObject (h : t.Peers u) :
    (removeObject key).verdict t = (removeObject key).verdict u := by
  unfold removeObject
  simp only [Edit.verdict_get_bind, Edit.verdict_lift_bind, Edit.verdict_set]
  exact h.requireSlot_congr fun i j hi hj hrow => rfl

/-- An edit of one column, where its verdict is declared. -/
theorem verdict_onColumn (h : t.Peers u) (missing : Error)
    {e f : Edit Column Unit}
    (hef : ∀ c d, t.column? col = some c → u.column? col = some d →
      c.spec = d.spec → e.verdict c = f.verdict d) :
    (onColumn col missing e).verdict t = (onColumn col missing f).verdict u := by
  unfold onColumn
  rw [Edit.verdict_get_bind, Edit.verdict_get_bind]
  rcases h.frame.column?_cases col with ⟨hc, hd⟩ | ⟨c, d, hc, hd, hspec⟩
  · rw [hc, hd]
    rfl
  · rw [hc, hd]
    dsimp only
    rw [Edit.verdict_focus, Edit.verdict_focus]
    exact hef c d hc hd hspec

theorem verdict_setValue (h : t.Peers u) :
    (setValue limits key col v).verdict t
      = (setValue limits key col v).verdict u := by
  unfold setValue
  simp only [Edit.verdict_get_bind, Edit.verdict_lift_bind, h.checkSet_eq]
  congr 1
  funext _
  refine h.requireSlot_congr fun i j hi hj hrow => ?_
  refine h.verdict_onColumn _ fun c d hc hd hspec => ?_
  have hcf := h.left.formed c (mem_of_column? hc)
  have hdf := h.right.formed d (mem_of_column? hd)
  rw [Column.verdict_put hcf (h.left.slotted.slot_lt hc hi),
    Column.verdict_put hdf (h.right.slotted.slot_lt hd hj),
    Column.canHold_congr hspec, hspec]

/-- Peers answer alike to a change of a list, whatever the change is. -/
theorem verdict_editList (h : t.Peers u) (f g : List Value → List Value) :
    (editList key col f).verdict t = (editList key col g).verdict u := by
  unfold editList
  simp only [Edit.verdict_get_bind, Edit.verdict_lift_bind, h.frame.name_eq]
  refine h.requireSlot_congr fun i j hi hj hrow => ?_
  refine h.verdict_onColumn _ fun c d hc hd hspec => ?_
  have hcf := h.left.formed c (mem_of_column? hc)
  have hdf := h.right.formed d (mem_of_column? hd)
  rw [Column.verdict_editList hcf (h.left.slotted.slot_lt hc hi),
    Column.verdict_editList hdf (h.right.slotted.slot_lt hd hj), hspec]

theorem verdict_listInsert (h : t.Peers u) :
    (listInsert .ample limits key col index v).verdict t
      = (listInsert .ample limits key col index v).verdict u := by
  rw [listInsert_ample]
  simp only [Edit.verdict_get_bind, Edit.verdict_lift_bind, Edit.throw_bind,
    Edit.verdict_ite, Edit.verdict_throw, h.checkElement_eq, h.listOf_eq,
    h.verdict_editList _ (·.insertIdx index v)]

theorem verdict_listSet (h : t.Peers u) :
    (listSet limits key col index v).verdict t
      = (listSet limits key col index v).verdict u := by
  unfold listSet
  simp only [Edit.verdict_get_bind, Edit.verdict_lift_bind, Edit.throw_bind,
    Edit.verdict_ite, Edit.verdict_throw, h.checkElement_eq, h.listOf_eq,
    h.verdict_editList _ (·.set index v)]

theorem verdict_listRemove (h : t.Peers u) :
    (listRemove key col index).verdict t
      = (listRemove key col index).verdict u := by
  unfold listRemove
  simp only [Edit.verdict_get_bind, Edit.verdict_lift_bind, Edit.throw_bind,
    Edit.verdict_ite, Edit.verdict_throw, h.listOf_eq,
    h.verdict_editList _ (·.eraseIdx index)]

theorem verdict_listClear (h : t.Peers u) :
    (listClear key col).verdict t = (listClear key col).verdict u := by
  unfold listClear
  simp only [Edit.verdict_get_bind, Edit.verdict_lift_bind, h.listOf_eq,
    h.verdict_editList _ fun _ => []]

end Table.Peers

-- ======================================================= snapshots

namespace Snapshot

variable {s r : Snapshot} {limits : Limits} {table : TableKey}
  {key : ObjectKey} {col : ColumnKey} {v : Value}

/-- On a table the verdict is its own, if it is there. -/
theorem verdict_onTable (table : TableKey) (e : Edit Table Unit)
    (s : Snapshot) :
    (onTable table e).verdict s = s.requireTable table >>= e.verdict := by
  unfold onTable
  rw [Edit.verdict_get_bind, Edit.verdict_lift_bind]
  refine congrArg _ (funext fun t => ?_)
  exact Edit.verdict_focus ..

namespace Peers

/-- What follows a look for a table, where what follows is the same for
peers. -/
theorem requireTable_congr {α : Type} (h : s.Peers r)
    {f g : Table → Except Error α}
    (hfg : ∀ t u, s.table? table = some t → r.table? table = some u →
      t.Peers u → f t = g u) :
    (s.requireTable table >>= f) = (r.requireTable table >>= g) := by
  unfold requireTable
  rcases h.table?_cases table with ⟨ht, hu⟩ | ⟨t, u, ht, hu, hpeers⟩
  · rw [ht, hu]
    rfl
  · rw [ht, hu]
    exact hfg t u ht hu hpeers

/-- Peers answer alike to what their tables answer alike to. -/
theorem verdict_onTable_eq (h : s.Peers r) {e : Edit Table Unit}
    (he : ∀ t u : Table, t.Peers u → e.verdict t = e.verdict u) :
    (onTable table e).verdict s = (onTable table e).verdict r := by
  rw [verdict_onTable, verdict_onTable]
  exact h.requireTable_congr fun t u _ _ hpeers => he t u hpeers

/-- The target of a link is there on one side if it is on the other. -/
theorem checkLink_eq (h : s.Peers r) {t u : Table} (hpeers : t.Peers u) :
    s.checkLink t col v = r.checkLink u col v := by
  unfold checkLink
  cases v with
  | link key =>
      refine hpeers.frame.requireColumn_congr fun c d hc hd hspec => ?_
      rw [hspec]
      rcases h.bind_table?_cases d.spec.target with ⟨ht, hu⟩ | ⟨a, b, ha, hb, hab⟩
      · rw [ht, hu]
      · rw [ha, hb]
        dsimp only
        rw [hab.contains_eq, hab.frame.name_eq]
  | _ => rfl

/-- Peers have the same tables. -/
theorem isNone_table?_eq (h : s.Peers r) (k : TableKey) :
    (s.table? k).isNone = (r.table? k).isNone := by
  rcases h.table?_cases k with ⟨ht, hu⟩ | ⟨t, u, ht, hu, -⟩
  · rw [ht, hu]
  · rw [ht, hu]
    rfl

/-- Peers have used the same names. -/
theorem names_contains_eq (h : s.Peers r) (name : String) :
    s.names.contains name = r.names.contains name := by
  rw [← Std.TreeMap.isSome_getElem?_eq_contains,
    ← Std.TreeMap.isSome_getElem?_eq_contains, h.names_eq]

/-- The first table with links into another has one name. -/
theorem name_of_linking (h : s.Peers r) (key : TableKey) :
    (s.tableList.find? fun u => u.key != key && u.linksInto key).map (·.name)
      = (r.tableList.find? fun u => u.key != key && u.linksInto key).map
        (·.name) := by
  let shown (u : Table) := (u.key != key && u.linksInto key, u.name)
  have hshown : s.tableList.map shown = r.tableList.map shown := by
    refine OrderedMap.map_values_congr fun k => ?_
    show (s.table? k).map shown = (r.table? k).map shown
    rcases h.table?_cases k with ⟨ht, hu⟩ | ⟨t, u, ht, hu, hpeers⟩
    · rw [ht, hu]
    · rw [ht, hu]
      show some (_, _) = some (_, _)
      rw [hpeers.key_eq, hpeers.linksInto_eq, hpeers.frame.name_eq]
  have hfirst (l : List Table) :
      (l.find? fun u => u.key != key && u.linksInto key).map (·.name)
        = ((l.map shown).find? (·.1)).map (·.2) := by
    rw [List.find?_map, Option.map_map]
    rfl
  rw [hfirst, hfirst, hshown]

theorem verdict_addTable (h : s.Peers r) (name : String) :
    (addTable table name).verdict s = (addTable table name).verdict r := by
  unfold addTable
  rw [Edit.verdict_get_bind, Edit.verdict_get_bind, h.names_contains_eq,
    h.nextTable_eq]
  simp only [Edit.throw_bind, Edit.verdict_ite, Edit.verdict_throw,
    Edit.verdict_set]

theorem verdict_removeTable (h : s.Peers r) :
    (removeTable table).verdict s = (removeTable table).verdict r := by
  have hlinking := h.name_of_linking table
  unfold removeTable
  rw [Edit.verdict_get_bind, Edit.verdict_get_bind, Edit.verdict_lift_bind,
    Edit.verdict_lift_bind]
  refine h.requireTable_congr fun t u ht hu hpeers => ?_
  cases hs : s.tableList.find? fun u => u.key != table && u.linksInto table with
  | none =>
      rw [hs] at hlinking
      rw [Option.map_eq_none_iff.1 hlinking.symm]
      rfl
  | some a =>
      rw [hs] at hlinking
      obtain ⟨b, hb, hname⟩ := Option.map_eq_some_iff.1 hlinking.symm
      rw [hb]
      dsimp only
      rw [hname, hpeers.frame.name_eq]
      rfl

/-- Peers answer alike to a new column in a table. -/
theorem verdict_addColumn (h : s.Peers r) (spec : ColumnSpec) :
    (addColumn .ample table col spec).verdict s
      = (addColumn .ample table col spec).verdict r := by
  have hrest : Edit.verdict (do
        let t ← liftM (s.requireTable table)
        liftM (t.checkNewColumn spec)
        onTable table (Table.insertColumn .ample col spec)) s
      = Edit.verdict (do
        let t ← liftM (r.requireTable table)
        liftM (t.checkNewColumn spec)
        onTable table (Table.insertColumn .ample col spec)) r := by
    simp only [Edit.verdict_lift_bind]
    refine h.requireTable_congr fun t u ht hu hpeers => ?_
    rw [hpeers.checkNewColumn_eq, h.verdict_onTable_eq fun t u hpeers =>
      hpeers.verdict_insertColumn spec]
  unfold addColumn
  rw [Edit.verdict_get_bind, Edit.verdict_get_bind]
  cases htarget : spec.target with
  | none => exact hrest
  | some target =>
      have hthere := h.isNone_table?_eq target
      dsimp only
      rw [hthere, Edit.verdict_ite, Edit.verdict_ite]
      split
      next => rfl
      next => exact hrest

theorem verdict_removeObject (h : s.Peers r) :
    (removeObject table key).verdict s = (removeObject table key).verdict r := by
  unfold removeObject
  simp only [Edit.verdict_get_bind, Edit.verdict_lift_bind, Edit.throw_bind,
    Edit.verdict_ite, Edit.verdict_throw, Edit.verdict_bind_modify]
  refine h.requireTable_congr fun t u ht hu hpeers => ?_
  rw [hpeers.contains_eq, hpeers.frame.name_eq,
    h.verdict_onTable_eq fun t u hpeers => hpeers.verdict_removeObject]

theorem verdict_setValue (h : s.Peers r) :
    (setValue limits table key col v).verdict s
      = (setValue limits table key col v).verdict r := by
  unfold setValue
  simp only [Edit.verdict_get_bind, Edit.verdict_lift_bind]
  refine h.requireTable_congr fun t u ht hu hpeers => ?_
  rw [hpeers.checkSet_eq, h.checkLink_eq hpeers,
    h.verdict_onTable_eq fun t u hpeers => hpeers.verdict_setValue]

/-- Peers answer alike to an element if they do to its writing. -/
theorem verdict_writeElement (h : s.Peers r) {write : Edit Table Unit}
    (hwrite : ∀ t u : Table, t.Peers u → write.verdict t = write.verdict u) :
    (writeElement limits table key col v write).verdict s
      = (writeElement limits table key col v write).verdict r := by
  unfold writeElement
  simp only [Edit.verdict_get_bind, Edit.verdict_lift_bind]
  refine h.requireTable_congr fun t u ht hu hpeers => ?_
  rw [hpeers.checkElement_eq, h.checkLink_eq hpeers,
    h.verdict_onTable_eq hwrite]

/-- Peers answer alike to a shorter list if they do to its shrinking. -/
theorem verdict_shrinkList (h : s.Peers r) {shrink : Edit Table Unit}
    (hshrink : ∀ t u : Table, t.Peers u → shrink.verdict t = shrink.verdict u) :
    (shrinkList table key col shrink).verdict s
      = (shrinkList table key col shrink).verdict r := by
  unfold shrinkList
  simp only [Edit.verdict_get_bind, Edit.verdict_lift_bind]
  refine h.requireTable_congr fun t u ht hu hpeers => ?_
  rw [hpeers.listOf_eq, h.verdict_onTable_eq hshrink]

/-- Peers give one verdict on every instruction. -/
theorem apply_verdict (h : s.Peers r) (limits : Limits) (i : Instruction) :
    (apply limits i).verdict s = (apply limits i).verdict r := by
  cases i with
  | addTable table name => exact h.verdict_addTable name
  | removeTable table => exact h.verdict_removeTable
  | addColumn table col spec => exact h.verdict_addColumn spec
  | removeColumn table col =>
      unfold apply applyWithin
      simp only [Edit.verdict_get_bind, Edit.verdict_lift_bind]
      refine h.requireTable_congr fun t u ht hu hpeers => ?_
      refine hpeers.frame.requireColumn_congr fun c d hc hd hspec => ?_
      exact h.verdict_onTable_eq fun t u hpeers => hpeers.verdict_removeColumn
  | createObject table key =>
      unfold apply applyWithin
      simp only [Edit.verdict_get_bind, Edit.verdict_lift_bind]
      refine h.requireTable_congr fun t u ht hu hpeers => ?_
      exact h.verdict_onTable_eq fun t u hpeers => hpeers.verdict_insertObject
  | removeObject table key => exact h.verdict_removeObject
  | set table key col v => exact h.verdict_setValue
  | listInsert table key col index v =>
      exact h.verdict_writeElement fun t u hpeers => hpeers.verdict_listInsert
  | listSet table key col index v =>
      exact h.verdict_writeElement fun t u hpeers => hpeers.verdict_listSet
  | listRemove table key col index =>
      exact h.verdict_shrinkList fun t u hpeers => hpeers.verdict_listRemove
  | listClear table key col =>
      exact h.verdict_shrinkList fun t u hpeers => hpeers.verdict_listClear

end Peers

end Snapshot

end Colonnade
