/-
Referential integrity: no link of a reached snapshot points at nothing.

The invariant is `LinksLive`. It speaks of every cell of every column, by
slot, whether a row still owns the slot or not, and of liveness as the row
index answers it. Most instructions only add tables and objects, and a cell
that was sound stays so; what is left to show there is the one cell that is
written. Removing an object is the exception: liveness shrinks by that
object, and the same instruction takes the object out of every cell of every
column that links into its table.

That an added table does not replace one that is linked into is where the
table counter comes in. Nothing is asked of the counters of columns and
objects.

Chain: over `Snapshot.Reached`.
-/
import Colonnade.Proofs.Snapshot.Reached

namespace Colonnade.Snapshot

-- ========================================================== liveness

/-- A snapshot has an object if its table does. -/
theorem hasObject_iff {s : Snapshot} {u : TableKey} {key : ObjectKey} :
    s.hasObject u key = true
      ↔ ∃ t, s.table? u = some t ∧ t.contains key = true := by
  unfold hasObject
  cases s.table? u <;> simp

/-- Tables and objects that are there in one snapshot are there in
another. -/
def Keeps (s s' : Snapshot) : Prop :=
  ∀ u t, s.table? u = some t →
    ∃ t', s'.table? u = some t'
      ∧ ∀ key, t.contains key = true → t'.contains key = true

/-- What keeps objects has those that were there. -/
theorem Keeps.hasObject {s s' : Snapshot} (h : s.Keeps s') {u : TableKey}
    {key : ObjectKey} (hkey : s.hasObject u key = true) :
    s'.hasObject u key = true := by
  obtain ⟨t, ht, hlive⟩ := hasObject_iff.1 hkey
  obtain ⟨t', ht', hkeep⟩ := h u t ht
  exact hasObject_iff.2 ⟨t', ht', hkeep key hlive⟩

/-- A table that keeps its rows may be replaced. -/
theorem Keeps.withTable {s : Snapshot} {k : TableKey} {t t' : Table}
    (ht : s.table? k = some t)
    (hlive : ∀ key, t.contains key = true → t'.contains key = true) :
    s.Keeps (s.withTable k t') := by
  intro u v hv
  rw [table?_withTable]
  by_cases hu : u = k
  · subst hu
    obtain rfl : t = v := Option.some.inj (ht.symm.trans hv)
    exact ⟨t', if_pos rfl, hlive⟩
  · exact ⟨v, by rw [if_neg hu]; exact hv, fun _ h => h⟩

-- ===================================================== what cells hold

/-- Whether a value is a link to a live object of a table. -/
def Names (s : Snapshot) (u : TableKey) (v : Value) : Prop :=
  ∃ key, v = .link key ∧ s.hasObject u key = true

/-- Whether what a cell holds links to live objects of a table and to
nothing else: a single link may be absent, an element of a list may not. -/
def Points (s : Snapshot) (u : TableKey) : CellContent → Prop
  | .value v => v = .null ∨ s.Names u v
  | .list vs => ∀ v ∈ vs, s.Names u v

/-- Whether a table is there and all cells of a column point into it. -/
structure ColumnPoints (s : Snapshot) (u : TableKey) (c : Column) :
    Prop where
  table : ∃ t, s.table? u = some t
  cells : ∀ slot x, c.cells.content? slot = some x → s.Points u x

/-- No link points at nothing. -/
def LinksLive (s : Snapshot) : Prop :=
  ∀ k t, s.table? k = some t → ∀ c ∈ t.columns, ∀ u,
    c.spec.target = some u → s.ColumnPoints u c

variable {s s' : Snapshot} {u : TableKey} {c : Column}

/-- A value names what is kept. -/
theorem Names.keep {v : Value} (h : s.Names u v) (hkeep : s.Keeps s') :
    s'.Names u v := by
  obtain ⟨key, hv, hkey⟩ := h
  exact ⟨key, hv, hkeep.hasObject hkey⟩

/-- Content points to what is kept. -/
theorem Points.keep {x : CellContent} (h : s.Points u x)
    (hkeep : s.Keeps s') : s'.Points u x := by
  cases x with
  | value v => exact h.imp_right fun hv => hv.keep hkeep
  | list vs => exact fun v hv => (h v hv).keep hkeep

/-- A column points to what is kept. -/
theorem ColumnPoints.keep (h : s.ColumnPoints u c) (hkeep : s.Keeps s') :
    s'.ColumnPoints u c := by
  obtain ⟨⟨t, ht⟩, hcells⟩ := h
  obtain ⟨t', ht', -⟩ := hkeep u t ht
  exact ⟨⟨t', ht'⟩, fun slot x hx => (hcells slot x hx).keep hkeep⟩

/-- What a new cell holds points at nothing at all. -/
theorem points_freshContent {spec : ColumnSpec} (hspec : spec.Valid)
    (hu : spec.target = some u) :
    s.Points u (Column.freshContent spec) := by
  unfold Column.freshContent
  rcases hspec.type_of_target hu with ⟨htype, hlist⟩ | ⟨-, hlist⟩
  · rw [hlist]
    refine Or.inl ?_
    have hnull := (hspec.link_single htype).2
    unfold Column.freshValue
    rw [hnull]
    rfl
  · rw [hlist]
    intro v hv
    cases hv

/-- A column of links takes no value but absence and links to live
objects. -/
theorem points_of_accepts {limits : Limits} {v : Value}
    (hu : c.spec.target = some u) (hc : c.spec.Valid)
    (hfits : c.spec.Accepts limits v) (hlink : s.LinkLive c v) :
    v = .null ∨ s.Names u v := by
  have htype : c.spec.type.elementType = .link := by
    rcases hc.type_of_target hu with ⟨h, -⟩ | ⟨h, -⟩ <;> rw [h] <;> rfl
  unfold ColumnSpec.Accepts at hfits
  rw [htype] at hfits
  cases v with
  | null => exact Or.inl rfl
  | link key =>
      obtain ⟨u', t, hu', ht, hlive⟩ := hlink key rfl
      obtain rfl : u = u' := Option.some.inj (hu.symm.trans hu')
      exact Or.inr ⟨key, rfl, hasObject_iff.2 ⟨t, ht, hlive⟩⟩
  | _ => exact absurd hfits.1 (by decide)

/-- An element that a list of links takes is a link to a live object. -/
theorem names_of_takesElement {limits : Limits} {v : Value}
    (hu : c.spec.target = some u) (hc : c.spec.Valid)
    (hfits : Table.TakesElement c limits v) (hlink : s.LinkLive c v) :
    s.Names u v := by
  rcases points_of_accepts hu hc hfits.accepts hlink with rfl | h
  · rcases hc.type_of_target hu with ⟨-, hlist⟩ | ⟨htype, -⟩
    · rw [hfits.isList] at hlist
      cases hlist
    · exact absurd ⟨rfl, htype⟩ hfits.present
  · exact h

-- ============================================= the shapes of a change

namespace LinksLive

/-- One table exchanged for another with at least its objects. -/
theorem withTable (h : s.LinksLive) {k : TableKey} {t t' : Table}
    (ht : s.table? k = some t)
    (hlive : ∀ key, t.contains key = true → t'.contains key = true)
    (hcols : ∀ c ∈ t'.columns, ∀ u, c.spec.target = some u →
      s.ColumnPoints u c) : (s.withTable k t').LinksLive := by
  have hkeep : s.Keeps (s.withTable k t') := Keeps.withTable ht hlive
  intro a v hv d hd u hu
  rw [table?_withTable] at hv
  split at hv
  next =>
    cases hv
    exact (hcols d hd u hu).keep hkeep
  next => exact (h a v hv d hd u hu).keep hkeep

/-- One cell written, with something that points where the column says. -/
theorem store (h : s.LinksLive) {k : TableKey} {t : Table}
    (ht : s.table? k = some t) {key : ObjectKey} {col : ColumnKey}
    {slot : Nat} {old x : CellContent} (hcell : t.CellAt key col c slot old)
    (hkind : (∃ v w, old = .value v ∧ x = .value w)
      ∨ ∃ vs ws, old = .list vs ∧ x = .list ws)
    (hx : ∀ u, c.spec.target = some u → s.Points u old → s.Points u x) :
    (s.withTable k (t.store col slot x)).LinksLive := by
  refine h.withTable ht (fun a ha => ?_) fun d hd u hu => ?_
  · unfold Table.contains
    rw [Table.rows_store]
    exact ha
  · rcases Table.mem_columns_store hcell.1 hd with hd | rfl
    · exact h k t ht d hd u hu
    · have hold := h k t ht c (Table.mem_of_column? hcell.1) u hu
      refine ⟨hold.table, fun i y hy => ?_⟩
      rw [Cells.content?_store hcell.3 hkind] at hy
      split at hy
      next =>
        cases hy
        exact hx u hu (hold.cells slot old hcell.3)
      next => exact hold.cells i y hy

/-- A table that no other table links into removed with its own links. -/
theorem withoutTable (hf : s.Formed) (h : s.LinksLive) {k : TableKey}
    {name : String}
    (hfree : ∀ a t, s.table? a = some t → t.key ≠ k →
      t.linksInto k = false) : (s.withoutTable k name).LinksLive := by
  intro a t ht c hc u hu
  rw [table?_withoutTable] at ht
  split at ht
  next => cases ht
  next ha =>
    have hne : u ≠ k := by
      intro heq
      subst heq
      have hkey : t.key ≠ u := by rwa [hf.key_eq a t ht]
      have hno := hfree a t ht hkey
      simp only [Table.linksInto, List.any_eq_false] at hno
      exact hno c hc (by simp [hu])
    obtain ⟨⟨v, hv⟩, hcells⟩ := h a t ht c hc u hu
    have hother (b : TableKey) (hb : b ≠ k) :
        (s.withoutTable k name).table? b = s.table? b := by
      rw [table?_withoutTable, if_neg hb]
    refine ⟨⟨v, by rw [hother u hne]; exact hv⟩, fun slot x hx => ?_⟩
    have hnames (v : Value) (hv : s.Names u v) :
        (s.withoutTable k name).Names u v := by
      obtain ⟨key, rfl, hkey⟩ := hv
      refine ⟨key, rfl, ?_⟩
      unfold hasObject
      rw [hother u hne]
      exact hkey
    have hold := hcells slot x hx
    cases x with
    | value v => exact hold.imp_right (hnames v)
    | list vs => exact fun v hv => hnames v (hold v hv)

end LinksLive

-- ================================================= removing an object

/-- Taking a row out leaves every other object where it was found. -/
theorem contains_remove {r : Rows} {key a : ObjectKey} {slot : Nat}
    (h : r.contains a = true) (hne : a ≠ key) :
    (r.remove key slot).contains a = true := by
  have herase : (r.slots.erase key).contains a = true := by
    have hkeep : r.slots.contains a = true := h
    rw [Std.TreeMap.contains_erase, hkeep]
    simpa using Ne.symm hne
  unfold Rows.remove Rows.contains
  dsimp only
  split
  · exact herase
  · rw [Std.TreeMap.contains_insert, herase, Bool.or_true]

/-- What a snapshot holds after an object was taken out of its table and out
of every link. -/
abbrev withoutObject (s : Snapshot) (table : TableKey) (t : Table)
    (key : ObjectKey) (slot : Nat) : Snapshot :=
  (s.withTable table (t.withoutObject key slot)).withoutLinks table key

section RemoveObject

variable {table : TableKey} {t : Table} {key : ObjectKey} {slot : Nat}

/-- Every table is still there, and so is every other object. -/
theorem keeps_withoutObject (ht : s.table? table = some t) {a : TableKey}
    {v : Table} (hv : s.table? a = some v) :
    ∃ v', (s.withoutObject table t key slot).table? a = some v'
      ∧ ∀ k, v.contains k = true → (a = table → k ≠ key) →
        v'.contains k = true := by
  rw [withoutObject, table?_withoutLinks, table?_withTable]
  by_cases ha : a = table
  · subst ha
    obtain rfl : t = v := Option.some.inj (ht.symm.trans hv)
    refine ⟨(t.withoutObject key slot).unlink a key, by rw [if_pos rfl]; rfl,
      fun k hk hne => ?_⟩
    exact contains_remove (r := t.rows) hk (hne rfl)
  · exact ⟨v.unlink table key, by rw [if_neg ha, hv]; rfl, fun k hk _ => hk⟩

/-- Without an object every other one is there. -/
theorem hasObject_withoutObject (ht : s.table? table = some t)
    {a : TableKey} {k : ObjectKey} (h : s.hasObject a k = true)
    (hne : a = table → k ≠ key) :
    (s.withoutObject table t key slot).hasObject a k = true := by
  obtain ⟨v, hv, hk⟩ := hasObject_iff.1 h
  obtain ⟨v', hv', hkeep⟩ := keeps_withoutObject ht hv
  exact hasObject_iff.2 ⟨v', hv', hkeep k hk hne⟩

/-- What links into another table still points there. -/
theorem points_withoutObject (ht : s.table? table = some t)
    {x : CellContent} (hne : u ≠ table) (hx : s.Points u x) :
    (s.withoutObject table t key slot).Points u x := by
  have hnames (v : Value) (hv : s.Names u v) :
      (s.withoutObject table t key slot).Names u v := by
    obtain ⟨k, rfl, hk⟩ := hv
    exact ⟨k, rfl, hasObject_withoutObject ht hk fun hu => absurd hu hne⟩
  cases x with
  | value v => exact hx.imp_right (hnames v)
  | list vs => exact fun v hv => hnames v (hx v hv)

/-- What links into the object's own table points there once it has
forgotten the object. -/
theorem points_forget (ht : s.table? table = some t) {x : CellContent}
    (hx : s.Points table x) :
    (s.withoutObject table t key slot).Points table
      (Column.forget key x) := by
  have hnames (v : Value) (hne : v ≠ .link key) (hv : s.Names table v) :
      (s.withoutObject table t key slot).Names table v := by
    obtain ⟨k, rfl, hk⟩ := hv
    refine ⟨k, rfl, hasObject_withoutObject ht hk fun _ hkey => ?_⟩
    exact hne (congrArg Value.link hkey)
  cases x with
  | value v =>
      show _ ∨ _
      by_cases hv : v = .link key
      · rw [if_pos hv]
        exact Or.inl rfl
      · rw [if_neg hv]
        exact hx.imp_right (hnames v hv)
  | list vs =>
      intro v hv
      obtain ⟨hmem, hne⟩ := List.mem_filter.1 hv
      exact hnames v (by simpa using hne) (hx v hmem)

/-- The columns after the removal, each with the one it comes from: one that
links into the table has forgotten the object, whether or not some cell had
to change for that. -/
theorem mem_columns_withoutObject (hf : s.Formed)
    (ht : s.table? table = some t) {a : TableKey} {v' : Table} {d : Column}
    (hv' : (s.withoutObject table t key slot).table? a = some v')
    (hd : d ∈ v'.columns) :
    ∃ v c, s.table? a = some v ∧ c ∈ v.columns ∧ d.spec = c.spec
      ∧ ∀ i y, d.cells.content? i = some y →
        ∃ j x, c.cells.content? j = some x
          ∧ if c.spec.target = some table then y = Column.forget key x
            else y = x := by
  rw [withoutObject, table?_withoutLinks, table?_withTable] at hv'
  obtain ⟨w, hw, rfl⟩ := Option.map_eq_some_iff.1 hv'
  obtain ⟨b, hb, rfl⟩ := List.mem_map.1 hd
  -- b is a column of the table as it is between the two stages
  have hbefore : ∃ v c, s.table? a = some v ∧ c ∈ v.columns
      ∧ b.spec = c.spec ∧ b.Formed
      ∧ ∀ i y, b.cells.content? i = some y →
        ∃ j, c.cells.content? j = some y := by
    split at hw
    next ha =>
      cases hw
      obtain ⟨c, hc, rfl⟩ := List.mem_map.1 hb
      exact ⟨t, c, ha ▸ ht, hc, rfl, (hf.table _ t ht c hc).vacate slot,
        fun i y hy => Cells.content?_of_vacate hy⟩
    next =>
      exact ⟨w, b, hw, hb, rfl, hf.table a w hw b hb, fun i y hy => ⟨i, hy⟩⟩
  obtain ⟨v, c, hv, hc, hspec, hbf, hcells⟩ := hbefore
  have hforget (hu : c.spec.target = some table) (i : Nat) :
      (if b.linksTo key then b.unlink key else b).cells.content? i
        = (b.cells.content? i).map (Column.forget key) := by
    have hu : b.spec.target = some table := hspec ▸ hu
    split
    next => exact Column.content?_unlink hbf.valid hbf.suits hu key i
    next hno =>
      exact (Column.forget_of_not_linksTo hbf.valid hbf.suits hu
        (by simpa using hno) i).symm
  refine ⟨v, c, hv, hc, ?_, fun i y hy => ?_⟩
  · rw [← hspec]
    split
    · exact Column.spec_unlink b key
    · rfl
  · by_cases hu : c.spec.target = some table
    · simp only [hspec, hu, beq_self_eq_true, Bool.true_and] at hy
      rw [hforget hu] at hy
      obtain ⟨x, hx, rfl⟩ := Option.map_eq_some_iff.1 hy
      obtain ⟨j, hj⟩ := hcells i x hx
      exact ⟨j, x, hj, by rw [if_pos hu]⟩
    · have hu' : (c.spec.target == some table) = false := by simpa using hu
      simp only [hspec, hu', Bool.false_and] at hy
      obtain ⟨j, hj⟩ := hcells i y hy
      exact ⟨j, y, hj, by rw [if_neg hu]⟩

/-- An object removed together with every link to it. -/
theorem LinksLive.withoutObject (hf : s.Formed) (h : s.LinksLive)
    (ht : s.table? table = some t) :
    (s.withoutObject table t key slot).LinksLive := by
  intro a v' hv' d hd u hu
  obtain ⟨v, c, hv, hc, hspec, hcells⟩ :=
    mem_columns_withoutObject hf ht hv' hd
  rw [hspec] at hu
  obtain ⟨⟨w, hw⟩, hold⟩ := h a v hv c hc u hu
  obtain ⟨w', hw', -⟩ : ∃ w',
      (s.withoutObject table t key slot).table? u = some w' ∧ _ :=
    keeps_withoutObject ht hw
  refine ⟨⟨w', hw'⟩, fun i y hy => ?_⟩
  obtain ⟨j, x, hx, hy⟩ := hcells i y hy
  rw [hu] at hy
  by_cases hut : u = table
  · subst hut
    rw [if_pos rfl] at hy
    exact hy ▸ points_forget ht (hold j x hx)
  · rw [if_neg (by simpa using hut)] at hy
    exact hy ▸ points_withoutObject ht hut (hold j x hx)

end RemoveObject

-- ================================================== every instruction

/-- One instruction leaves no link that points at nothing. -/
theorem LinksLive.applied (hf : s.Formed) (h : s.LinksLive)
    (hfresh : s.table? s.nextTable = none) {limits : Limits}
    {i : Instruction} (happ : Applied limits s i s') : s'.LinksLive := by
  cases happ with
  | @addTable name hname hnew =>
      have hkeep : s.Keeps (s.withNewTable name) := by
        intro u t ht
        refine ⟨t, ?_, fun _ h => h⟩
        rw [table?_withNewTable, if_neg]
        · exact ht
        · intro heq
          subst heq
          rw [hfresh] at ht
          cases ht
      intro a v hv c hc u hu
      rw [table?_withNewTable] at hv
      split at hv
      next =>
        cases hv
        cases hc
      next => exact (h a v hv c hc u hu).keep hkeep
  | removeTable ht hfree => exact h.withoutTable hf hfree
  | @addColumn table t spec ht htarget hvalid hnew =>
      refine h.withTable ht (fun _ h => h) fun c hc u hu => ?_
      rcases List.mem_append.1 hc with hc | hc
      · exact h _ t ht c hc u hu
      · obtain rfl := List.mem_singleton.1 hc
        rw [Column.spec_blank] at hu
        refine ⟨Option.ne_none_iff_exists'.1 (htarget u hu), fun i x hx => ?_⟩
        -- a cell of the new column is a fresh one, which points nowhere
        have hlt : i < (Column.blank t.nextColumnKey spec t.size).size :=
          Cells.content?_isSome.1 (by rw [hx]; rfl)
        rw [Column.size_blank] at hlt
        rw [Column.content?_blank hlt] at hx
        cases hx
        exact points_freshContent hvalid hu
  | removeColumn ht hc =>
      -- a column that is removed takes its links with it
      exact h.withTable ht (fun _ h => h) fun c hc =>
        h _ _ ht c (List.mem_filter.1 hc).1
  | @createObject table t ht =>
      refine h.withTable ht (fun key hkey => ?_) fun d hd u hu => ?_
      · show (t.rows.slots.insert _ _).contains key = true
        rw [Std.TreeMap.contains_insert, Bool.or_eq_true]
        exact Or.inr hkey
      · obtain ⟨c, hc, rfl⟩ := List.mem_map.1 hd
        rw [Column.spec_grow] at hu
        have hcf := hf.table _ t ht c hc
        have hold := h _ t ht c hc u hu
        refine ⟨hold.table, fun i x hx => ?_⟩
        rw [Column.content?_grow hcf.suits] at hx
        split at hx
        next =>
          cases hx
          exact points_freshContent hcf.valid hu
        next => exact hold.cells i x hx
  | removeObject ht hslot => exact h.withoutObject hf ht
  | set ht hcell hlist hfits hlink =>
      refine h.store ht hcell (Or.inl ⟨_, _, rfl, rfl⟩) fun u hu _ => ?_
      have hc := hf.table _ _ ht _ (Table.mem_of_column? hcell.1)
      exact points_of_accepts hu hc.valid hfits hlink
  | listInsert ht hcell hfits hlink hindex =>
      refine h.store ht hcell (Or.inr ⟨_, _, rfl, rfl⟩) fun u hu hold => ?_
      have hc := hf.table _ _ ht _ (Table.mem_of_column? hcell.1)
      intro w hw
      rcases (List.mem_insertIdx hindex).1 hw with rfl | hw
      · exact names_of_takesElement hu hc.valid hfits hlink
      · exact hold w hw
  | listSet ht hcell hfits hlink hindex =>
      refine h.store ht hcell (Or.inr ⟨_, _, rfl, rfl⟩) fun u hu hold => ?_
      have hc := hf.table _ _ ht _ (Table.mem_of_column? hcell.1)
      intro w hw
      rcases List.mem_or_eq_of_mem_set hw with hw | rfl
      · exact hold w hw
      · exact names_of_takesElement hu hc.valid hfits hlink
  | listRemove ht hcell hindex =>
      refine h.store ht hcell (Or.inr ⟨_, _, rfl, rfl⟩) fun u hu hold => ?_
      exact fun w hw => hold w (List.mem_of_mem_eraseIdx hw)
  | listClear ht hcell =>
      exact h.store ht hcell (Or.inr ⟨_, _, rfl, rfl⟩) fun u hu _ => nofun

/-- No link of a reached snapshot points at nothing, as long as the table
counter has not come round. -/
theorem Reached.linksLive {is : List Instruction} (h : Reached is s)
    (hadded : tablesAdded is < 2 ^ 32) : s.LinksLive := by
  induction h with
  | empty => exact fun k t ht => by simp at ht
  | @step is s s' limits i h happ ih =>
      rw [tablesAdded_append] at hadded
      have hadded : tablesAdded is < 2 ^ 32 := by omega
      exact (ih hadded).applied h.formed (h.table?_nextTable hadded)
        (apply_gives_iff.1 happ)
  | renumber _ _ ih =>
      intro k t ht c hc u hu
      exact (ih hadded k t ht c hc u hu).keep fun u t ht =>
        ⟨t, ht, fun _ h => h⟩

-- ============================================== referential integrity

/-- What referential integrity asks of a column: exactly links have a
target, the target is there, and each cell links to its live objects and to
nothing else. -/
structure ColumnSound (s : Snapshot) (c : Column) : Prop where
  link_of_target : c.spec.target.isSome = true →
    c.spec.type = .link ∨ c.spec.type = .linkList
  target_of_link : c.spec.type = .link ∨ c.spec.type = .linkList →
    ∃ u t, c.spec.target = some u ∧ s.table? u = some t
  link_live : c.spec.type = .link → ∀ slot,
    c.valueAt slot = .null ∨ ∃ u key, c.spec.target = some u
      ∧ c.valueAt slot = .link key ∧ s.hasObject u key = true
  list_live : c.spec.type = .linkList → ∀ slot vs,
    c.listAt? slot = some vs → ∀ v ∈ vs, ∃ u key,
      c.spec.target = some u ∧ v = .link key ∧ s.hasObject u key = true

/-- Columns whose links all point into a table are sound. -/
theorem ColumnSound.of_points (hf : c.Formed)
    (h : ∀ u, c.spec.target = some u → s.ColumnPoints u c) :
    s.ColumnSound c := by
  have htarget (hl : c.spec.type = .link ∨ c.spec.type = .linkList) :
      ∃ u, c.spec.target = some u := by
    refine Option.ne_none_iff_exists'.1 (hf.valid.target_of_link ?_)
    rcases hl with hl | hl <;> rw [hl] <;> rfl
  constructor
  · intro ht
    obtain ⟨u, hu⟩ := Option.isSome_iff_exists.1 ht
    exact (hf.valid.type_of_target hu).imp And.left And.left
  · intro hl
    obtain ⟨u, hu⟩ := htarget hl
    obtain ⟨t, ht⟩ := (h u hu).table
    exact ⟨u, t, hu, ht⟩
  · intro hl slot
    obtain ⟨u, hu⟩ := htarget (Or.inl hl)
    rcases c.valueAt_eq_null_or slot with hnull | hv
    · exact Or.inl hnull
    · have hpoints := (h u hu).cells slot _ hv
      exact hpoints.imp_right fun ⟨key, hkey, hlive⟩ =>
        ⟨u, key, hu, hkey, hlive⟩
  · intro hl slot vs hvs v hv
    obtain ⟨u, hu⟩ := htarget (Or.inr hl)
    have hpoints := (h u hu).cells slot _ (Column.listAt?_eq_some.1 hvs)
    obtain ⟨key, hkey, hlive⟩ := hpoints v hv
    exact ⟨u, key, hu, hkey, hlive⟩

/-- Every column of every table of a reached snapshot is sound. -/
theorem reached_columnSound {is : List Instruction} (h : Reached is s)
    (hadded : tablesAdded is < 2 ^ 32) {k : TableKey} {t : Table}
    (ht : s.table? k = some t) (hc : c ∈ t.columns) : s.ColumnSound c :=
  .of_points (h.formed.table k t ht c hc) (h.linksLive hadded k t ht c hc)

/-- Changes that make a table with one object that links to itself. -/
def loopChanges : List Instruction :=
  [.addTable ⟨0⟩ "node", .addColumn ⟨0⟩ ⟨1⟩ (.link "next" ⟨0⟩),
    .createObject ⟨0⟩ ⟨0⟩, .set ⟨0⟩ ⟨0⟩ ⟨1⟩ (.link ⟨0⟩)]

theorem loop_columnSound :
    ∃ s t c, Reached loopChanges s ∧ tablesAdded loopChanges < 2 ^ 32
      ∧ s.table? ⟨0⟩ = some t ∧ c ∈ t.columns
      ∧ c.valueAt 0 = .link ⟨0⟩ ∧ s.ColumnSound c := by
  obtain ⟨s, t, c, hrun, ht, hc, hv⟩ : ∃ s t c,
      Edit.Gives (applyAll .none loopChanges) .empty () s
        ∧ s.table? ⟨0⟩ = some t ∧ c ∈ t.columns
        ∧ c.valueAt 0 = .link ⟨0⟩ := by
    refine ⟨_, _, _, rfl, rfl, .head _, ?_⟩
    decide
  have hreached := Reached.empty.applyAll hrun
  have hadded : tablesAdded loopChanges < 2 ^ 32 := by decide
  exact ⟨s, t, c, hreached, hadded, ht, hc, hv,
    reached_columnSound hreached hadded ht hc⟩

end Colonnade.Snapshot
