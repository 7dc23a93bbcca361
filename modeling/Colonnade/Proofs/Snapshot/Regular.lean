/-
What can be relied on in every reached snapshot: the names index the tables,
the row index of each table is sound, every column has one cell for each
row, and every cell holds what its declaration says. Under one set of
limits, nothing that is stored is longer than they allow.

The parts come from three inductions over the same steps. `Aligned` and
`Formed` are there already. Names and keys of columns are distinct because a
new column brings a new name and a new key (`Table.Distinct`). What the
cells hold is proved value by value: `FillsWith` lists the ways in which a
value gets into a cell, and a property that all of them have is a property
of every stored value. Typing and length are two such properties.

Chain: nothing above uses this; it is what readers of a snapshot may assume.
-/
import Colonnade.Proofs.Snapshot.Evolved

namespace Colonnade

-- ================================================== distinct columns

/-- A table with a name, whose columns share neither names nor keys. -/
structure Table.Distinct (t : Table) : Prop where
  name_ne : t.name ≠ ""
  names : (t.columns.map (·.spec.name)).Nodup
  keys : (t.columns.map (·.key)).Nodup

namespace Table

variable {t t' : Table} {limits : Limits} {i : Instruction} {k : TableKey}

/-- A name is new if no column has it. -/
theorem columnKey?_eq_none {name : String} :
    t.columnKey? name = none ↔ name ∉ t.columns.map (·.spec.name) := by
  simp [columnKey?]

/-- A column is missed if none has its key. -/
theorem column?_eq_none {col : ColumnKey} :
    t.column? col = none ↔ col ∉ t.columns.map (·.key) := by
  simp [column?]

/-- A list stays without repetitions when something new is added at its end.
-/
theorem nodup_concat {α : Type} {xs : List α} {x : α} (h : xs.Nodup)
    (hx : x ∉ xs) : (xs ++ [x]).Nodup := by
  refine List.nodup_append.2 ⟨h, List.pairwise_singleton _ _, ?_⟩
  rintro y hy z hz rfl
  exact hx (List.mem_singleton.1 hz ▸ hy)

/-- Writing a cell leaves what does not depend on the cells as it was,
column by column. -/
theorem map_columns_store {β : Type} {f : Column → β}
    (hf : ∀ (c : Column) (cells : Cells), f { c with cells } = f c)
    {col : ColumnKey} {slot : Nat} {x : CellContent} :
    (t.store col slot x).columns.map f = t.columns.map f := by
  unfold store
  cases hc : t.column? col with
  | none => rfl
  | some c => exact map_replaceColumn hc (hf c _)

/-- Columns changed in place keep their names and keys. -/
theorem Distinct.mapColumns (h : t.Distinct) {f : Column → Column}
    (hname : t'.name = t.name) (hcolumns : t'.columns = t.columns.map f)
    (hkey : ∀ c, (f c).key = c.key) (hspec : ∀ c, (f c).spec = c.spec) :
    t'.Distinct where
  name_ne := hname ▸ h.name_ne
  names := by
    rw [hcolumns, List.map_map]
    simpa [Function.comp_def, hspec] using h.names
  keys := by
    rw [hcolumns, List.map_map]
    simpa [Function.comp_def, hkey] using h.keys

theorem Distinct.unlink (h : t.Distinct) (target : TableKey)
    (key : ObjectKey) : (t.unlink target key).Distinct := by
  refine h.mapColumns rfl rfl (fun c => ?_) (fun c => ?_)
  · split
    · exact Column.key_unlink c key
    · rfl
  · split
    · exact Column.spec_unlink c key
    · rfl

/-- A column comes with a name and a key that no other column has. -/
theorem Distinct.became (h : t.Distinct) (ha : t.Aligned)
    (hbecame : t.Became limits i k t') : t'.Distinct := by
  cases hbecame with
  | same => exact h
  | @withColumn spec hi hvalid hnew =>
      have hkey := column?_eq_none.1 ha.column?_nextColumnKey
      refine ⟨h.name_ne, ?_, ?_⟩
      · show ((t.columns ++ [_]).map _).Nodup
        rw [List.map_append, List.map_singleton, Column.spec_blank]
        exact nodup_concat h.names (columnKey?_eq_none.1 hnew)
      · show ((t.columns ++ [_]).map _).Nodup
        rw [List.map_append, List.map_singleton, Column.key_blank]
        exact nodup_concat h.keys hkey
  | withoutColumn col =>
      have hsub : (t.withoutColumn col).columns.Sublist t.columns :=
        List.filter_sublist
      exact ⟨h.name_ne, h.names.sublist (hsub.map _),
        h.keys.sublist (hsub.map _)⟩
  | withObject =>
      exact h.mapColumns rfl rfl Column.key_grow Column.spec_grow
  | withoutObject key slot =>
      have hvacated : (t.withoutObject key slot).Distinct :=
        h.mapColumns rfl rfl (fun _ => rfl) (fun _ => rfl)
      exact hvacated.unlink k key
  | unlink target key => exact h.unlink target key
  | store hcell hx =>
      refine ⟨?_, ?_, ?_⟩
      · rw [name_store]
        exact h.name_ne
      · rw [map_columns_store fun _ _ => rfl]
        exact h.names
      · rw [map_columns_store fun _ _ => rfl]
        exact h.keys

end Table

-- ============================================= what gets into a cell

/-- Whether every value that a cell holds has a property. -/
def CellContent.Every (P : Value → Prop) : CellContent → Prop
  | .value v => P v
  | .list vs => ∀ v ∈ vs, P v

/-- The ways in which a value gets into a cell of a column, each with a
property: as what a new cell holds, as what is left of a link, and by a
write within limits. -/
structure FillsWith (limits : Limits) (P : ColumnSpec → Value → Prop) :
    Prop where
  fresh : ∀ {spec : ColumnSpec}, spec.Valid → spec.isList = false →
    P spec (Column.freshValue spec)
  unlinked : ∀ {spec : ColumnSpec}, spec.Valid → spec.type = .link →
    P spec .null
  value : ∀ {spec : ColumnSpec} {v : Value}, spec.Valid →
    spec.isList = false → spec.Accepts limits v → P spec v
  element : ∀ {c : Column} {v : Value}, c.spec.Valid →
    Table.TakesElement c limits v → P c.spec v

/-- Whether every value in a column has a property. -/
def Column.Every (P : ColumnSpec → Value → Prop) (c : Column) : Prop :=
  ∀ slot x, c.cells.content? slot = some x → x.Every (P c.spec)

/-- Whether every value in a table has a property. -/
def Table.Every (P : ColumnSpec → Value → Prop) (t : Table) : Prop :=
  ∀ c ∈ t.columns, c.Every P

section Every

variable {limits : Limits} {P : ColumnSpec → Value → Prop}

namespace Column.Every

variable {c : Column}

/-- A fresh cell has only values that a column may be filled with. -/
theorem freshContent (hP : FillsWith limits P) {spec : ColumnSpec}
    (hvalid : spec.Valid) : (Column.freshContent spec).Every (P spec) := by
  unfold Column.freshContent
  split
  next => exact fun _ hv => by cases hv
  next hlist => exact hP.fresh hvalid (by simpa using hlist)

/-- A blank column has only values that it may be filled with. -/
theorem blank (hP : FillsWith limits P) {spec : ColumnSpec}
    (hvalid : spec.Valid) (key : ColumnKey) (rows : Nat) :
    (Column.blank key spec rows).Every P := by
  intro slot x hx
  have hlt : slot < (Column.blank key spec rows).size :=
    Cells.content?_isSome.1 (by rw [hx]; rfl)
  rw [size_blank] at hlt
  rw [content?_blank hlt] at hx
  rw [spec_blank]
  exact Option.some.inj hx ▸ freshContent hP hvalid

/-- A column that grows has only values that it may be filled with. -/
theorem grow (h : c.Every P) (hP : FillsWith limits P) (hc : c.Formed) :
    c.grow.Every P := by
  intro slot x hx
  rw [content?_grow hc.suits] at hx
  rw [spec_grow]
  split at hx
  next => exact Option.some.inj hx ▸ freshContent hP hc.valid
  next => exact h slot x hx

/-- A column that loses a slot has no other values than before. -/
theorem vacate (h : c.Every P) (slot : Nat) : (c.vacate slot).Every P := by
  intro i x hx
  obtain ⟨j, hj⟩ := Cells.content?_of_vacate hx
  exact h j x hj

/-- What a cell loses is a link, and an absent link takes its place where
there must be something. -/
theorem unlink (h : c.Every P) (hP : FillsWith limits P) (hc : c.Formed)
    (key : ObjectKey) : (c.unlink key).Every P := by
  intro i y hy
  rw [spec_unlink]
  unfold Column.unlink at hy
  cases hcells : c.cells with
  | values cells =>
      rw [hcells] at hy
      dsimp only at hy
      split at hy
      next htype =>
        obtain ⟨_, hget, rfl⟩ := Option.map_eq_some_iff.1 hy
        rw [Array.getElem?_map] at hget
        obtain ⟨v, hv, rfl⟩ := Option.map_eq_some_iff.1 hget
        show P c.spec (if _ then _ else _)
        split
        · exact hP.unlinked hc.valid (by simpa using htype)
        · exact h i (.value v) (by simp [hcells, Cells.content?, hv])
      next => exact h i y hy
  | lists cells =>
      rw [hcells] at hy
      dsimp only at hy
      split at hy
      next =>
        obtain ⟨_, hget, rfl⟩ := Option.map_eq_some_iff.1 hy
        rw [Array.getElem?_map] at hget
        obtain ⟨vs, hvs, rfl⟩ := Option.map_eq_some_iff.1 hget
        intro v hv
        exact h i (.list vs) (by simp [hcells, Cells.content?, hvs]) v
          (List.mem_filter.1 hv).1
      next => exact h i y hy

/-- A column has no other values than before and what was written. -/
theorem store (h : c.Every P) (hP : FillsWith limits P) (hc : c.Formed)
    {slot : Nat} {old x : CellContent}
    (hold : c.cells.content? slot = some old)
    (hx : c.Written limits old x) :
    ({ c with cells := c.cells.store slot x } : Column).Every P := by
  intro i y hy
  rw [Cells.content?_store hold hx.kind] at hy
  split at hy
  next =>
    cases hy
    cases hx with
    | value hlist hfits => exact hP.value hc.valid hlist hfits
    | list hmem =>
        intro w hw
        rcases hmem w hw with hw | hw
        · exact h slot _ hold w hw
        · show P c.spec w
          exact hP.element hc.valid hw
  next => exact h i y hy

end Column.Every

/-- An instruction puts nothing into a table that has not the property. -/
theorem Table.Every.became {t t' : Table} (h : t.Every P)
    (hP : FillsWith limits P) (hf : t.Formed) {i : Instruction}
    {k : TableKey} (hbecame : t.Became limits i k t') : t'.Every P := by
  have hunlink {u : Table} (hu : u.Every P) (huf : u.Formed)
      (target : TableKey) (key : ObjectKey) :
      (u.unlink target key).Every P := by
    intro d hd
    obtain ⟨c, hc, rfl⟩ := List.mem_map.1 hd
    split
    · exact (hu c hc).unlink hP (huf c hc) key
    · exact hu c hc
  cases hbecame with
  | same => exact h
  | withColumn hi hvalid hnew =>
      intro d hd
      rcases List.mem_append.1 hd with hd | hd
      · exact h d hd
      · obtain rfl := List.mem_singleton.1 hd
        exact .blank hP hvalid _ _
  | withoutColumn => exact fun d hd => h d (List.mem_filter.1 hd).1
  | withObject =>
      intro d hd
      obtain ⟨c, hc, rfl⟩ := List.mem_map.1 hd
      exact (h c hc).grow hP (hf c hc)
  | withoutObject key slot =>
      refine hunlink (fun d hd => ?_) (fun d hd => ?_) k key
      · obtain ⟨c, hc, rfl⟩ := List.mem_map.1 hd
        exact (h c hc).vacate slot
      · obtain ⟨c, hc, rfl⟩ := List.mem_map.1 hd
        exact (hf c hc).vacate slot
  | unlink target key => exact hunlink h hf target key
  | store hcell hx =>
      intro d hd
      have hmem := mem_of_column? hcell.column_eq
      rcases mem_columns_store hcell.column_eq hd with hd | rfl
      · exact h d hd
      · exact (h _ hmem).store hP (hf _ hmem) hcell.content_eq hx

end Every

-- ================================================= typing and length

/-- Whether a value is what a declaration asks of a cell, or of one element
of it: content of the type, or absence where that is allowed, which it never
is among links in a list. -/
def ColumnSpec.Typed (spec : ColumnSpec) (v : Value) : Prop :=
  v.columnType? = some spec.type.elementType
    ∨ v = .null ∧ spec.nullable = true
      ∧ (spec.isList = true → spec.type.isLink = false)

/-- What the check of a value lets through is typed, unless it is absent. -/
theorem ColumnSpec.Accepts.columnType? {spec : ColumnSpec} {limits : Limits}
    {v : Value} (h : spec.Accepts limits v) :
    v.columnType? = some spec.type.elementType
      ∨ v = .null ∧ spec.nullable = true := by
  unfold ColumnSpec.Accepts at h
  cases v with
  | null => exact Or.inr ⟨rfl, h⟩
  | _ => exact Or.inl (congrArg some h.1)

/-- Columns are filled with values of their type. -/
theorem fillsWith_typed (limits : Limits) :
    FillsWith limits ColumnSpec.Typed where
  fresh {spec} hvalid hlist := by
    unfold Column.freshValue
    split
    next hnull => exact Or.inr ⟨rfl, hnull, by simp [hlist]⟩
    next hnull =>
      refine Or.inl ?_
      rw [ColumnType.columnType?_defaultValue]
      cases htype : spec.type with
      | link => exact absurd (hvalid.link_single htype).2 hnull
      | linkList => simp [spec.isList_of_linkList htype] at hlist
      | _ => rfl
  unlinked hvalid htype := by
    have hsingle := hvalid.link_single htype
    exact Or.inr ⟨rfl, hsingle.2, by simp [hsingle.1]⟩
  value hvalid hlist hfits := by
    refine hfits.columnType?.imp_right fun h => ?_
    exact ⟨h.1, h.2, by simp [hlist]⟩
  element {c v} hvalid h := by
    refine h.accepts.columnType?.imp_right fun hnull => ?_
    refine ⟨hnull.1, hnull.2, fun hlist => ?_⟩
    cases htype : c.spec.type with
    | link => simp [(hvalid.link_single htype).1] at hlist
    | linkList => exact absurd ⟨hnull.1, htype⟩ h.present
    | _ => rfl

/-- Columns are filled with values within the limits. -/
theorem fillsWith_within (limits : Limits) :
    FillsWith limits fun _ v => v.Within limits where
  fresh {spec} _ _ := by
    unfold Column.freshValue
    split
    · trivial
    · cases spec.type <;> first | trivial | exact Nat.zero_le _
  unlinked _ _ := trivial
  value {spec v} _ _ hfits := by
    unfold ColumnSpec.Accepts at hfits
    cases v <;> first | trivial | exact hfits.2
  element {c v} _ h := by
    have hfits := h.accepts
    unfold ColumnSpec.Accepts at hfits
    cases v <;> first | trivial | exact hfits.2

namespace Snapshot

variable {s s' : Snapshot} {is : List Instruction} {limits : Limits}
  {i : Instruction}

/-- Whether every value in a snapshot has a property. -/
def Every (P : ColumnSpec → Value → Prop) (s : Snapshot) : Prop :=
  ∀ k t, s.table? k = some t → t.Every P

theorem every_empty (P : ColumnSpec → Value → Prop) : empty.Every P := by
  intro k t ht
  simp at ht

/-- What every value satisfies it satisfies behind an instruction. -/
theorem Every.applied {P : ColumnSpec → Value → Prop} (h : s.Every P)
    (hP : FillsWith limits P) (hf : s.Formed)
    (happ : Applied limits s i s') : s'.Every P := by
  intro k t' ht'
  rcases happ.table_became ht' with ⟨name, -, -, rfl⟩ | ⟨t, ht, hbecame⟩
  · exact fun c hc => by cases hc
  · exact (h k t ht).became hP (hf.table k t ht) hbecame

/-- Every value in a reached snapshot has its declared type. -/
theorem Reached.typed (h : Reached is s) : s.Every ColumnSpec.Typed := by
  induction h with
  | empty => exact every_empty _
  | step h happ ih =>
      exact ih.applied (fillsWith_typed _) h.formed (apply_gives_iff.1 happ)
  | renumber _ version ih => exact ih

/-- Every table has a name and columns of distinct names and keys. -/
theorem Reached.distinct (h : Reached is s) (hfit : FitCounters is)
    {k : TableKey} {t : Table} (ht : s.table? k = some t) : t.Distinct := by
  induction h generalizing k t with
  | empty => simp at ht
  | step h happ ih =>
      have ha := (h.unwrapped hfit.before).aligned
      have happ := apply_gives_iff.1 happ
      rcases happ.table_became ht with ⟨name, hname, -, rfl⟩ | ⟨u, hu, hu'⟩
      · exact ⟨hname, .nil, .nil⟩
      · exact (ih hfit.before hu).became (ha.table _ u hu) hu'
  | renumber _ version ih => exact ih hfit ht

end Snapshot

-- ================================================= regular snapshots

/-- What can be relied on in a column of a table with so many rows. -/
structure Column.Regular (rows : Nat) (c : Column) : Prop where
  accepted : c.spec.check = .ok ()
  size_eq : c.size = rows
  value : c.spec.isList = false → ∀ slot < rows,
    ∃ v, c.cells.content? slot = some (.value v)
      ∧ (v.columnType? = some c.spec.type
        ∨ v = .null ∧ c.spec.nullable = true)
  list : c.spec.isList = true → ∀ slot < rows,
    ∃ vs, c.cells.content? slot = some (.list vs)
      ∧ ∀ v ∈ vs, v.columnType? = some c.spec.type.elementType
        ∨ v = .null ∧ c.spec.nullable = true ∧ c.spec.type.isLink = false

/-- What can be relied on in a table. -/
structure Table.Regular (t : Table) : Prop where
  name_ne : t.name ≠ ""
  rows_nodup : t.rows.keys.toList.Nodup
  slot_iff : ∀ key slot,
    t.rows.slot? key = some slot ↔ t.rows.keys[slot]? = some key
  row_range : ∀ key ∈ t.rows.keys,
    0 ≤ key.raw ∧ key.raw < t.nextObject.raw
  column_names : (t.columns.map (·.spec.name)).Nodup
  column_keys : (t.columns.map (·.key)).Nodup
  column : ∀ c ∈ t.columns, c.Regular t.size

/-- What can be relied on in a snapshot. -/
structure Snapshot.Regular (s : Snapshot) : Prop where
  names_iff : ∀ name k, s.names[name]? = some k
    ↔ ∃ t ∈ s.tableList, t.name = name ∧ t.key = k
  key_eq : ∀ k t, s.table? k = some t → t.key = k
  key_lt : ∀ k t, s.table? k = some t → k.raw < s.nextTable.raw
  table : ∀ k t, s.table? k = some t → t.Regular

/-- Two slots do not hold one key. -/
theorem Rows.Inverse.nodup {r : Rows} (h : r.Inverse) :
    r.keys.toList.Nodup := by
  refine List.pairwise_iff_getElem.2 fun i j hi hj hlt heq => ?_
  have hslot (n : Nat) (hn : n < r.keys.toList.length) :
      r.slot? r.keys.toList[n] = some n := by
    rw [h, ← Array.getElem?_toList]
    exact List.getElem?_eq_getElem hn
  have hsame := (hslot i hi).symm.trans (heq ▸ hslot j hj)
  exact absurd (Option.some.inj hsame) (Nat.ne_of_lt hlt)

/-- There is content in every slot of a column. -/
theorem Column.exists_content? {c : Column} {slot : Nat}
    (h : slot < c.size) : ∃ x, c.cells.content? slot = some x :=
  Option.isSome_iff_exists.1 (Cells.content?_isSome.2 h)

/-- A column is regular if it is well formed, has a cell for each row, and
holds nothing but typed values. -/
theorem Column.Formed.regular {c : Column} (h : c.Formed) {rows : Nat}
    (hsize : c.size = rows) (htyped : c.Every ColumnSpec.Typed) :
    c.Regular rows where
  accepted := ColumnSpec.check_eq_ok.2 h.valid
  size_eq := hsize
  value hlist slot hslot := by
    have hsuits := h.suits
    obtain ⟨x, hx⟩ := exists_content? (hsize.symm ▸ hslot)
    have hv := htyped slot x hx
    cases hcells : c.cells with
    | lists cells => simp [hcells, Cells.Suits, hlist] at hsuits
    | values cells =>
        have hkind := hx
        rw [hcells] at hkind
        obtain ⟨v, -, rfl⟩ := Option.map_eq_some_iff.1 hkind
        have helement : c.spec.type.elementType = c.spec.type := by
          cases htype : c.spec.type with
          | linkList => simp [c.spec.isList_of_linkList htype] at hlist
          | _ => rfl
        refine ⟨v, hcells ▸ hx, ?_⟩
        rcases hv with hv | ⟨hnull, hnullable, -⟩
        · exact Or.inl (helement ▸ hv)
        · exact Or.inr ⟨hnull, hnullable⟩
  list hlist slot hslot := by
    have hsuits := h.suits
    obtain ⟨x, hx⟩ := exists_content? (hsize.symm ▸ hslot)
    have hvs := htyped slot x hx
    cases hcells : c.cells with
    | values cells => simp [hcells, Cells.Suits, hlist] at hsuits
    | lists cells =>
        have hkind := hx
        rw [hcells] at hkind
        obtain ⟨vs, -, rfl⟩ := Option.map_eq_some_iff.1 hkind
        refine ⟨vs, hcells ▸ hx, fun v hv => ?_⟩
        exact (hvs v hv).imp_right fun h => ⟨h.1, h.2.1, h.2.2 hlist⟩

namespace Snapshot

variable {s s' : Snapshot} {limits : Limits} {i : Instruction}

/-- The snapshots that steps lead to, each step an instruction that succeeds
under limits of its own. -/
inductive ReachedUnder : List (Limits × Instruction) → Snapshot → Prop
  | empty : ReachedUnder [] .empty
  | step {steps : List (Limits × Instruction)} {s s' : Snapshot}
      {limits : Limits} {i : Instruction} (h : ReachedUnder steps s)
      (happ : Edit.Gives (apply limits i) s () s') :
      ReachedUnder (steps ++ [(limits, i)]) s'
  | renumber {steps : List (Limits × Instruction)} {s : Snapshot}
      (h : ReachedUnder steps s) (version : Version) :
      ReachedUnder steps { s with version }

variable {steps : List (Limits × Instruction)}

/-- What is reached under limits is reached. -/
theorem ReachedUnder.reached (h : ReachedUnder steps s) :
    Reached (steps.map (·.2)) s := by
  induction h with
  | empty => exact .empty
  | step _ happ ih =>
      rw [List.map_append]
      exact ih.step happ
  | renumber _ version ih => exact ih.renumber version

/-- Instructions in order, all under one set of limits. -/
theorem ReachedUnder.applyAll {is : List Instruction}
    (h : ReachedUnder steps s)
    (hgives : Edit.Gives (applyAll limits is) s () s') :
    ReachedUnder (steps ++ is.map (limits, ·)) s' := by
  induction is generalizing steps s with
  | nil =>
      obtain rfl : s = s' := (Edit.gives_pure.1 hgives).2
      rwa [List.map_nil, List.append_nil]
  | cons i is ih =>
      obtain ⟨t, hi, his⟩ := Edit.gives_forM_cons.1 hgives
      have := ih (h.step hi) his
      rwa [List.append_assoc] at this

/-- Under one set of limits, nothing that is stored is longer than they
allow. -/
theorem ReachedUnder.within (h : ReachedUnder steps s)
    (hlimits : ∀ p ∈ steps, p.1 = limits) :
    s.Every fun _ v => v.Within limits := by
  induction h with
  | empty => exact every_empty _
  | step h happ ih =>
      obtain ⟨hbefore, hlast⟩ := List.forall_mem_append.1 hlimits
      obtain rfl : _ = limits := hlast _ (List.mem_singleton_self _)
      exact (ih hbefore).applied (fillsWith_within _) h.reached.formed
        (apply_gives_iff.1 happ)
  | renumber _ version ih => exact ih hlimits

/-- The tables of a snapshot are those that it finds. -/
theorem mem_tableList {t : Table} :
    t ∈ s.tableList ↔ ∃ k, s.table? k = some t :=
  OrderedMap.mem_values

/-- Every snapshot that was reached before a counter came round is regular,
and where all steps had the same limits, it stores nothing longer. -/
theorem reachedUnder_regular (h : ReachedUnder steps s)
    (hfit : FitCounters (steps.map (·.2))) :
    s.Regular ∧ ∀ limits, (∀ p ∈ steps, p.1 = limits) →
      s.Every fun _ v => v.Within limits := by
  have hreached := h.reached
  have hf := hreached.formed
  have ha := (hreached.unwrapped hfit).aligned
  refine ⟨⟨fun name k => ?_, hf.key_eq, fun k t ht => ?_, fun k t ht => ?_⟩,
    fun _ hlimits => h.within hlimits⟩
  · rw [ha.names_iff]
    constructor
    · rintro ⟨t, ht, hname⟩
      exact ⟨t, mem_tableList.2 ⟨k, ht⟩, hname, hf.key_eq k t ht⟩
    · rintro ⟨t, hmem, hname, rfl⟩
      obtain ⟨k, ht⟩ := mem_tableList.1 hmem
      exact ⟨t, (hf.key_eq k t ht).symm ▸ ht, hname⟩
  · exact UInt32.lt_iff_toNat_lt.2 (ha.table_lt k t ht)
  · have hd := hreached.distinct hfit ht
    have hat := ha.table k t ht
    refine ⟨hd.name_ne, hat.rows.nodup, hat.rows, fun key hkey => ?_,
      hd.names, hd.keys, fun c hc => ?_⟩
    · obtain ⟨slot, hslot⟩ := Array.getElem?_of_mem hkey
      have hrange := hat.object_range key slot ((hat.rows key slot).2 hslot)
      exact ⟨Int64.le_iff_toInt_le.2 hrange.1,
        Int64.lt_iff_toInt_lt.2 hrange.2⟩
    · exact (hf.table k t ht c hc).regular (hat.size_eq c hc)
        (hreached.typed k t ht c hc)

/-- Changes that make a table of two objects, the second with a link to the
first and a list with an absent element, and take the first out again. -/
def pairChanges : List Instruction :=
  [.addTable ⟨0⟩ "node", .addColumn ⟨0⟩ ⟨1⟩ (.link "next" ⟨0⟩),
    .addColumn ⟨0⟩ ⟨2⟩ (.list "tags" .string true), .createObject ⟨0⟩ ⟨0⟩,
    .createObject ⟨0⟩ ⟨1⟩, .set ⟨0⟩ ⟨1⟩ ⟨1⟩ (.link ⟨0⟩),
    .listInsert ⟨0⟩ ⟨1⟩ ⟨2⟩ 0 (.string "ab"),
    .listInsert ⟨0⟩ ⟨1⟩ ⟨2⟩ 1 .null, .removeObject ⟨0⟩ ⟨0⟩]

/-- Limits that the strings of `pairChanges` just meet. -/
def twoBytes : Limits := { maxString := 2, maxBinary := 0 }

theorem pair_reachedUnder_regular :
    ∃ s t, ReachedUnder (pairChanges.map (twoBytes, ·)) s
      ∧ s.table? ⟨0⟩ = some t
      ∧ t.rowOf ⟨1⟩ = [.value .null, .list [.string "ab", .null]]
      ∧ s.Regular ∧ s.Every fun _ v => v.Within twoBytes := by
  have hrow : (match (applyAll twoBytes pairChanges).run .empty with
      | .ok _ s => (s.table? ⟨0⟩).map (·.rowOf ⟨1⟩)
      | .error _ _ => none)
        = some [.value .null, .list [.string "ab", .null]] := by
    decide +kernel
  cases hrun : (applyAll twoBytes pairChanges).run .empty with
  | error err s => simp [hrun] at hrow
  | ok _ s =>
  rw [hrun] at hrow
  obtain ⟨t, ht, hrow⟩ := Option.map_eq_some_iff.1 hrow
  have hreached : ReachedUnder (pairChanges.map (twoBytes, ·)) s :=
    ReachedUnder.empty.applyAll hrun
  have hfew (p : Instruction → Bool) :
      ((pairChanges.map (twoBytes, ·)).map (·.2)).countP p ≤ 9 :=
    List.countP_le_length
  have hfit : FitCounters ((pairChanges.map (twoBytes, ·)).map (·.2)) :=
    ⟨Nat.lt_of_le_of_lt (hfew _) (by decide),
      fun k => Nat.lt_of_le_of_lt (hfew _) (by decide),
      fun k => Nat.lt_of_le_of_lt (hfew _) (by decide)⟩
  have h := reachedUnder_regular hreached hfit
  refine ⟨s, t, hreached, ht, hrow, h.1, h.2 twoBytes fun p hp => ?_⟩
  obtain ⟨i, -, rfl⟩ := List.mem_map.1 hp
  rfl

end Snapshot

end Colonnade
