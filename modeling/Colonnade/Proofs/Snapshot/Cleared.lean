/-
What is left of a snapshot when one of its tables is emptied, as a reader
finds it. The table keeps its columns and counters and has no objects. Every
other table keeps its objects too, and each of its cells reads as before but
for the links to what has gone: a value that was one is absent, and a list is
without those entries, in the order in which it was. No cell of any column
that links into the table still names one of its former objects; that is said
of the cells themselves, so that it holds also where no read gets.

The reads follow from the maps, where the removals lose a list of objects at
once. That no cell is left over is an invariant of its own, since a column
that two keys share is in the maps only once.

Chain: `Engine.Cleared` runs the removals through a handle.
-/
import Colonnade.Proofs.Snapshot.Removed

namespace Colonnade

/-- Whether a cell holds a link to an object. -/
def CellContent.LinksTo (key : ObjectKey) : CellContent → Prop
  | value v => v = .link key
  | list vs => .link key ∈ vs

/-- Whether a column of a table links into the table under a key. -/
def Table.targets (t : Table) (col : ColumnKey) (k : TableKey) : Bool :=
  (t.column? col).any (·.spec.target == some k)

/-- A table next to what it was: the links to some objects of the table under
a key have gone from its cells, and nothing else. -/
structure Table.Thinned (k : TableKey) (gone : List ObjectKey) (t u : Table) :
    Prop where
  frame : t.SameFrame u
  objectKeys_eq : u.objectKeys = t.objectKeys
  valueOf_eq : ∀ key col, u.valueOf key col
    = (t.valueOf key col).map fun v =>
      if t.targets col k && v.isLinkTo gone then .null else v
  listOf_eq : ∀ key col, u.listOf key col
    = (t.listOf key col).map fun vs =>
      if t.targets col k then vs.filter fun v => !v.isLinkTo gone else vs

namespace Snapshot

/-- Whether no cell of a column that links into the table under a key names
an object. -/
def Unnamed (s : Snapshot) (k : TableKey) (key : ObjectKey) : Prop :=
  ∀ j t c, s.table? j = some t → c ∈ t.columns → c.spec.target = some k →
    ∀ slot x, c.cells.content? slot = some x → ¬ x.LinksTo key

/-- A snapshot next to what it was: the objects of one table have gone, with
the links to them, and nothing else. -/
structure Cleared (k : TableKey) (gone : List ObjectKey) (s s' : Snapshot) :
    Prop where
  version_eq : s'.version = s.version
  names_eq : s'.names = s.names
  nextTable_eq : s'.nextTable = s.nextTable
  keys_eq : ∀ j, (s'.table? j).isSome = (s.table? j).isSome
  emptied : ∀ t u, s.table? k = some t → s'.table? k = some u →
    t.SameFrame u ∧ u.objectKeys = []
  others : ∀ j t u, j ≠ k → s.table? j = some t → s'.table? j = some u →
    t.Thinned k gone u
  unnamed : ∀ key ∈ gone, s'.Unnamed k key

end Snapshot

-- ======================================================= one table

/-- Two tables of which one has the maps of the other without some objects of
the table under a key. -/
structure Table.Loses (j k : TableKey) (gone : List ObjectKey)
    (t u : Table) : Prop where
  left : t.Sound
  right : u.Sound
  key_eq : t.key = u.key
  logical_eq : u.logical = t.logical.lose j k gone

namespace Table.Loses

variable {j k : TableKey} {gone : List ObjectKey} {t u : Table}
  {key : ObjectKey} {col : ColumnKey}

theorem frame (h : t.Loses j k gone u) : t.SameFrame u where
  key_eq := h.key_eq
  name_eq := (congrArg Logical.Table.name h.logical_eq).symm
  columns_eq := (congrArg Logical.Table.columns h.logical_eq).symm
  nextColumn_eq := (congrArg Logical.Table.nextColumn h.logical_eq).symm
  nextObject_eq := (congrArg Logical.Table.nextObject h.logical_eq).symm

/-- A table has the rows that are not gone, thinned. -/
theorem rows_eq (h : t.Loses j k gone u) (key : ObjectKey) :
    (u.rows.slot? key).map u.rowAt
      = if j = k ∧ key ∈ gone then none
        else (t.rows.slot? key).map (t.logical.thin k gone ∘ t.rowAt) := by
  rw [← rows_logical, h.logical_eq, Logical.Table.rows_lose, rows_logical,
    Option.map_map]

/-- Elsewhere every object stays, with its row thinned out. -/
theorem slot?_cases (h : t.Loses j k gone u) (hjk : j ≠ k) (key : ObjectKey) :
    (t.rows.slot? key = none ∧ u.rows.slot? key = none)
      ∨ ∃ i n, t.rows.slot? key = some i ∧ u.rows.slot? key = some n
        ∧ u.rowAt n = t.logical.thin k gone (t.rowAt i) := by
  have hrow := h.rows_eq key
  rw [if_neg fun hgone => hjk hgone.1] at hrow
  cases hi : t.rows.slot? key with
  | none =>
      rw [hi] at hrow
      exact Or.inl ⟨rfl, Option.map_eq_none_iff.1 hrow⟩
  | some i =>
      rw [hi] at hrow
      obtain ⟨n, hn, hthin⟩ := Option.map_eq_some_iff.1 hrow
      exact Or.inr ⟨i, n, rfl, hn, hthin⟩

/-- A table other than the cleared one loses no rows. -/
theorem contains_eq (h : t.Loses j k gone u) (hjk : j ≠ k)
    (key : ObjectKey) : u.contains key = t.contains key := by
  rw [Bool.eq_iff_iff, contains_iff, contains_iff]
  rcases h.slot?_cases hjk key with ⟨hi, hn⟩ | ⟨i, n, hi, hn, -⟩
  · simp [hi, hn]
  · simp [hi, hn]

/-- A table other than the cleared one lists the same objects. -/
theorem objectKeys_eq (h : t.Loses j k gone u) (hjk : j ≠ k) :
    u.objectKeys = t.objectKeys := by
  refine h.right.slotted.rows.sortedKeys_eq
    h.left.slotted.rows.ascending_sortedKeys fun key => ?_
  show key ∈ t.rows.sortedKeys ↔ _
  rw [h.left.slotted.rows.mem_sortedKeys, ← contains_iff, ← contains_iff,
    h.contains_eq hjk]

/-- The table itself is left without objects if all of them go. -/
theorem objectKeys_eq_nil (h : t.Loses k k gone u)
    (hall : ∀ key ∈ t.objectKeys, key ∈ gone) : u.objectKeys = [] := by
  refine List.eq_nil_iff_forall_not_mem.2 fun key hkey => ?_
  obtain ⟨n, hn⟩ := h.right.slotted.rows.mem_sortedKeys.1 hkey
  have hrow := h.rows_eq key
  rw [hn] at hrow
  split at hrow
  next => cases hrow
  next hstays =>
    obtain ⟨i, hi, -⟩ := Option.map_eq_some_iff.1 hrow.symm
    exact hstays ⟨rfl, hall key (h.left.slotted.rows.mem_sortedKeys.2 ⟨i, hi⟩)⟩

/-- What the two cells of an object hold. -/
theorem content?_eq {c d : Column} {i n : Nat} (hc : t.column? col = some c)
    (hd : u.column? col = some d)
    (hrow : u.rowAt n = t.logical.thin k gone (t.rowAt i)) :
    d.cells.content? n
      = if t.targets col k then (c.cells.content? i).map (.without gone)
        else c.cells.content? i := by
  have hcell := congrFun hrow col
  have hlinks : t.logical.links col k = t.targets col k := by
    unfold Logical.Table.links targets
    rw [spec?_logical, hc]
    rfl
  unfold Logical.Table.thin rowAt at hcell
  rwa [hc, hd, hlinks] at hcell

/-- A value is read as before, or as null where it was a link to what is gone.
-/
theorem valueOf_eq (h : t.Loses j k gone u) (hjk : j ≠ k) (key : ObjectKey)
    (col : ColumnKey) :
    u.valueOf key col = (t.valueOf key col).map fun v =>
      if t.targets col k && v.isLinkTo gone then .null else v := by
  show _ = (fun v => if t.targets col k && v.isLinkTo gone then .null else v)
    <$> t.valueOf key col
  unfold valueOf
  rw [map_bind]
  refine (h.frame.requireColumn_congr fun c d hc hd hspec => ?_).symm
  rw [hspec]
  cases d.spec.isList with
  | true => rfl
  | false =>
      refine (map_bind _ _ _).trans ?_
      refine h.frame.requireSlot_congr (h.slot?_cases hjk key)
        fun i n hi hn hrow => congrArg Except.ok ?_
      rw [Column.valueAt_eq, Column.valueAt_eq, content?_eq hc hd hrow]
      cases t.targets col k with
      | false => rfl
      | true =>
          rcases c.cells.content? i with _ | (_ | _)
          all_goals rfl

/-- A list is read as before, without the links to what is gone. -/
theorem listOf_eq (h : t.Loses j k gone u) (hjk : j ≠ k) (key : ObjectKey)
    (col : ColumnKey) :
    u.listOf key col = (t.listOf key col).map fun vs =>
      if t.targets col k then vs.filter fun v => !v.isLinkTo gone else vs := by
  show _ = (fun vs =>
    if t.targets col k then vs.filter fun v => !v.isLinkTo gone else vs)
      <$> t.listOf key col
  unfold listOf
  rw [map_bind]
  refine (h.frame.requireColumn_congr fun c d hc hd hspec => ?_).symm
  refine (map_bind _ _ _).trans ?_
  refine h.frame.requireSlot_congr (h.slot?_cases hjk key)
    fun i n hi hn hrow => ?_
  rw [Column.listAt?_eq, Column.listAt?_eq, content?_eq hc hd hrow, hspec]
  cases t.targets col k with
  | false => rcases c.cells.content? i with _ | (_ | _) <;> rfl
  | true => rcases c.cells.content? i with _ | (_ | _) <;> rfl

theorem thinned (h : t.Loses j k gone u) (hjk : j ≠ k) : t.Thinned k gone u :=
  ⟨h.frame, h.objectKeys_eq hjk, h.valueOf_eq hjk, h.listOf_eq hjk⟩

end Table.Loses

-- ======================================================= no cell left over

/-- What forgets an object has no links to it. -/
theorem CellContent.not_linksTo_forget (key : ObjectKey) (x : CellContent) :
    ¬ CellContent.LinksTo key (Column.forget key x) := by
  cases x with
  | value v =>
      show (if v = .link key then Value.null else v) ≠ .link key
      split
      next => exact nofun
      next hne => exact hne
  | list vs => simp [Column.forget, LinksTo]

/-- What forgets an object has no links that it had not before. -/
theorem CellContent.LinksTo.of_forget {a key : ObjectKey} {x : CellContent}
    (h : CellContent.LinksTo key (Column.forget a x)) : x.LinksTo key := by
  cases x with
  | value v =>
      change (if v = .link a then Value.null else v) = .link key at h
      split at h
      next => cases h
      next => exact h
  | list vs => exact (List.mem_filter.1 h).1

namespace Snapshot

variable {limits : Limits} {s s' : Snapshot} {k l : TableKey}
  {key a : ObjectKey} {gone : List ObjectKey}

/-- After a removal no cell names the object, nor any that none named
before. -/
theorem Applied.unnamed (hf : s.Formed)
    (happ : Applied limits s (.removeObject l a) s')
    (h : (k = l ∧ key = a) ∨ s.Unnamed k key) : s'.Unnamed k key := by
  intro j u d hu hd htarget n y hy
  cases happ with
  | removeObject ht hslot =>
      obtain ⟨v, c, hv, hc, hspec, hcells⟩ :=
        mem_columns_withoutObject hf ht hu hd
      obtain ⟨i, x, hx, hyx⟩ := hcells n y hy
      rw [hspec] at htarget
      by_cases hl : c.spec.target = some l
      · rw [if_pos hl] at hyx
        subst hyx
        rcases h with ⟨-, rfl⟩ | h
        · exact x.not_linksTo_forget key
        · exact fun hlink => h j v c hv hc htarget i x hx hlink.of_forget
      · rw [if_neg hl] at hyx
        subst hyx
        rcases h with ⟨rfl, -⟩ | h
        · exact absurd htarget hl
        · exact h j v c hv hc htarget i y hx

/-- The same of removals one after the other. -/
theorem unnamed_removeObjects (hf : s.Formed)
    (hgives : Edit.Gives (applyAll limits (gone.map (.removeObject k ·))) s ()
      s') (h : key ∈ gone ∨ s.Unnamed k key) : s'.Unnamed k key := by
  induction gone generalizing s with
  | nil =>
      obtain ⟨-, rfl⟩ := Edit.gives_pure.1 hgives
      exact h.resolve_left List.not_mem_nil
  | cons a rest ih =>
      obtain ⟨m, hone, hothers⟩ := Edit.gives_forM_cons.1 hgives
      have happ := apply_gives_iff.1 hone
      refine ih (hf.applied happ) hothers ?_
      rcases h with hmem | h
      · exact (List.mem_cons.1 hmem).symm.imp_right fun heq =>
          happ.unnamed hf (.inl ⟨rfl, heq⟩)
      · exact .inr (happ.unnamed hf (.inr h))

-- ======================================================= one snapshot

/-- Instructions leave the version. -/
theorem version_applyAll {is : List Instruction}
    (hgives : Edit.Gives (applyAll limits is) s () s') :
    s'.version = s.version := by
  induction is generalizing s with
  | nil =>
      obtain ⟨-, rfl⟩ := Edit.gives_pure.1 hgives
      rfl
  | cons i is ih =>
      obtain ⟨m, hone, hothers⟩ := Edit.gives_forM_cons.1 hgives
      exact (ih hothers).trans (apply_gives_iff.1 hone).version_eq

/-- The objects of a table can be removed in the order of their keys, and
that empties the table and does nothing else. -/
theorem Sound.clear (h : s.Sound) (limits : Limits) {t : Table}
    (ht : s.table? k = some t) :
    ∃ s', Edit.Gives
        (applyAll limits (t.objectKeys.map (.removeObject k ·))) s () s'
      ∧ s.Cleared k t.objectKeys s' := by
  have hrows := (h.slotted k t ht).rows
  have hnodup : t.objectKeys.Nodup :=
    hrows.ascending_sortedKeys.imp fun hlt heq => absurd (heq ▸ hlt) (by simp)
  have hthere (key : ObjectKey) (hkey : key ∈ t.objectKeys) :
      s.hasObject k key = true :=
    hasObject_iff.2 ⟨t, ht, Table.contains_iff.2 (hrows.mem_sortedKeys.1 hkey)⟩
  obtain ⟨s', hgives, hs', hlogical, hnames⟩ :=
    h.removeObjects limits hnodup hthere
  have hmaps (j : TableKey) : (s'.table? j).map Table.logical
      = (s.table? j).map (.lose j k t.objectKeys ∘ Table.logical) := by
    rw [← tables_logical, hlogical, ← Option.map_map, ← tables_logical]
    rfl
  have hloses {j : TableKey} {v u : Table} (hv : s.table? j = some v)
      (hu : s'.table? j = some u) : v.Loses j k t.objectKeys u := by
    have hlost := hmaps j
    rw [hv, hu] at hlost
    exact ⟨h.table hv, hs'.table hu,
      (h.formed.key_eq j v hv).trans (hs'.formed.key_eq j u hu).symm,
      Option.some.inj hlost⟩
  refine ⟨s', hgives, ⟨version_applyAll hgives, hnames, ?_, fun j => ?_, ?_, ?_,
    fun key hkey => unnamed_removeObjects h.formed hgives (.inl hkey)⟩⟩
  · exact congrArg Logical.Database.nextTable hlogical
  · rw [← Option.isSome_map, hmaps j, Option.isSome_map]
  · intro v u hv hu
    obtain rfl := Option.some.inj (ht.symm.trans hv)
    have hlost := hloses hv hu
    exact ⟨hlost.frame, hlost.objectKeys_eq_nil fun key hkey => hkey⟩
  · exact fun j v u hj hv hu => (hloses hv hu).thinned hj

end Snapshot

end Colonnade
