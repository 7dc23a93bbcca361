/-
Keys as identities. A table key, a column key, or an object key together with
its table stands for one thing and never for another: what has a key is made
once, keeps its declaration as long as it is there, and once it is gone the
key names nothing.

`Spent` is what carries this along a sequence of snapshots. A key is spent in
a snapshot if the counter that gives it out has passed it. Whatever is there
has a spent key; a spent key stays spent; and what an instruction makes has a
key that is not spent. So a thing that is there under a spent key was there
before, and two things with one key, however far apart in the sequence, can
both be traced to the earlier snapshot, where a key stands for one thing.

Chain: `Snapshot.Declared` has what an instruction does to a single table.
-/
import Colonnade.Proofs.Snapshot.Declared
import Mathlib.Data.List.Nodup

namespace Colonnade

-- ============================================================ identities

/-- What names a thing in a snapshot for good: objects are named within
their table, everything else by its key alone. -/
inductive Identity where
  | table (key : TableKey)
  | column (key : ColumnKey)
  | object (table : TableKey) (key : ObjectKey)
deriving DecidableEq

/-- A thing in a snapshot, with what stays the same as long as it is
there. -/
inductive Entity where
  | table (key : TableKey) (name : String)
  | column (key : ColumnKey) (table : TableKey) (spec : ColumnSpec)
  | object (table : TableKey) (key : ObjectKey)
deriving DecidableEq

/-- The identity of a thing. -/
def Entity.id : Entity → Identity
  | .table key _ => .table key
  | .column key _ _ => .column key
  | .object k key => .object k key

/-- What an instruction makes, if it makes anything. -/
def Instruction.makes? : Instruction → Option Entity
  | addTable key name => some (.table key name)
  | addColumn table col spec => some (.column col table spec)
  | createObject table key => some (.object table key)
  | _ => none

namespace Snapshot

variable {limits : Limits} {i : Instruction} {s s' : Snapshot}
  {is : List Instruction}

/-- Whether a thing is there. -/
def Holds (s : Snapshot) : Entity → Prop
  | .table key name => ∃ t, s.table? key = some t ∧ t.name = name
  | .column col table spec =>
    ∃ t, s.table? table = some t ∧ (col, spec) ∈ t.declared
  | .object table key => ∃ t, s.table? table = some t ∧ t.contains key = true

/-- Whether something is there under an identity. -/
def Has (s : Snapshot) (id : Identity) : Prop := ∃ x, x.id = id ∧ s.Holds x

/-- Whether the counter that gives out a key has passed it. -/
def Spent (s : Snapshot) : Identity → Prop
  | .table key => key.raw.toNat < s.nextTable.raw.toNat
  | .column col => ∃ k n, col = .numbered k n ∧ n < 2 ^ 32
    ∧ k.raw.toNat < s.nextTable.raw.toNat
    ∧ ∀ t, s.table? k = some t → n < t.nextColumn.toNat
  | .object table key => table.raw.toNat < s.nextTable.raw.toNat
    ∧ ∀ t, s.table? table = some t → key.raw.toInt < t.nextObject.raw.toInt

/-- What has to hold of a snapshot for its keys to be identities. -/
structure Keyed (s : Snapshot) : Prop where
  formed : s.Formed
  aligned : s.Aligned
  distinct : ∀ k t, s.table? k = some t → t.Distinct
  numbered : ∀ k t, s.table? k = some t → t.Numbered

theorem Reached.keyed (h : Reached is s) (hfit : FitCounters is) :
    s.Keyed where
  formed := h.formed
  aligned := (h.unwrapped hfit).aligned
  distinct _ _ ht := h.distinct hfit ht
  numbered _ _ ht := h.numbered hfit ht

namespace Keyed

/-- What is there has a spent key. -/
theorem spent_of_holds (h : s.Keyed) {x : Entity} (hx : s.Holds x) :
    s.Spent x.id := by
  cases x with
  | table key name =>
      obtain ⟨t, ht, -⟩ := hx
      exact h.aligned.table_lt key t ht
  | column col table spec =>
      obtain ⟨t, ht, hcol⟩ := hx
      obtain ⟨c, hc, hkey, -⟩ := Table.mem_declared.1 hcol
      obtain ⟨n, -, hlt, hnumber⟩ := (h.numbered table t ht).column c hc
      rw [h.formed.key_eq table t ht] at hnumber
      refine ⟨table, n, hkey.symm.trans hnumber,
        Nat.lt_trans hlt t.nextColumn.toNat_lt,
        h.aligned.table_lt table t ht, fun u hu => ?_⟩
      rw [ht] at hu
      exact Option.some.inj hu ▸ hlt
  | object table key =>
      obtain ⟨t, ht, hkey⟩ := hx
      obtain ⟨slot, hslot⟩ := Table.contains_iff.1 hkey
      refine ⟨h.aligned.table_lt table t ht, fun u hu => ?_⟩
      rw [ht] at hu
      obtain rfl := Option.some.inj hu
      exact ((h.aligned.table table t ht).object_range key slot hslot).2

/-- In one snapshot an identity stands for one thing. -/
theorem holds_unique (h : s.Keyed) {x y : Entity} (hx : s.Holds x)
    (hy : s.Holds y) (hid : x.id = y.id) : x = y := by
  cases x with
  | table key name =>
      cases y with
      | table key' name' =>
          cases hid
          obtain ⟨t, ht, rfl⟩ := hx
          obtain ⟨u, hu, rfl⟩ := hy
          rw [ht] at hu
          cases hu
          rfl
      | _ => cases hid
  | column col table spec =>
      cases y with
      | column col' table' spec' =>
          cases hid
          obtain ⟨t, ht, hx⟩ := hx
          obtain ⟨u, hu, hy⟩ := hy
          obtain ⟨c, hc, hkey, rfl⟩ := Table.mem_declared.1 hx
          obtain ⟨d, hd, hkey', rfl⟩ := Table.mem_declared.1 hy
          -- the key of a column carries the key of its table
          obtain ⟨m, -, hm, hnumber⟩ := (h.numbered table t ht).column c hc
          obtain ⟨n, -, hn, hnumber'⟩ := (h.numbered table' u hu).column d hd
          have hsame : c.key = d.key := hkey.trans hkey'.symm
          rw [hnumber, hnumber', h.formed.key_eq table t ht,
            h.formed.key_eq table' u hu] at hsame
          obtain ⟨rfl, -⟩ := ColumnKey.numbered_injective
            (Nat.lt_trans hm t.nextColumn.toNat_lt)
            (Nat.lt_trans hn u.nextColumn.toNat_lt) hsame
          rw [ht] at hu
          cases hu
          obtain rfl := List.inj_on_of_nodup_map (h.distinct table t ht).keys
            hc hd (hkey.trans hkey'.symm)
          rfl
      | _ => cases hid
  | object table key =>
      cases y with
      | object table' key' =>
          cases hid
          rfl
      | _ => cases hid

end Keyed

-- ======================================================== one instruction

/-- A table under a spent key was there before. -/
theorem Applied.table_kept (h : Applied limits s i s') {k : TableKey}
    {t' : Table} (hk : k.raw.toNat < s.nextTable.raw.toNat)
    (ht' : s'.table? k = some t') :
    ∃ t, s.table? k = some t ∧ t.Became limits i k t' := by
  rcases h.table_became ht' with ⟨name, -, rfl, -⟩ | hold
  · cases h
    exact absurd hk (Nat.lt_irrefl _)
  · exact hold

/-- No instruction that finds room turns the counter of tables back. -/
theorem Applied.nextTable_mono (h : Applied limits s i s')
    (hroom : s.HasRoom i) :
    s.nextTable.raw.toNat ≤ s'.nextTable.raw.toNat := by
  rw [h.nextTable_eq]
  split
  next hi =>
    cases h with
    | addTable =>
        show _ ≤ (s.nextTable.raw + 1).toNat
        rw [UInt32.toNat_add]
        exact Nat.le_trans (Nat.le_succ _)
          (Nat.le_of_eq (Nat.mod_eq_of_lt hroom).symm)
    | _ => cases hi
  next => exact Nat.le_refl _

/-- A spent key stays spent. -/
theorem Applied.spent (h : Applied limits s i s') (hs : s.Keyed)
    (hroom : s.HasRoom i) {id : Identity} (hid : s.Spent id) :
    s'.Spent id := by
  have hmono := h.nextTable_mono hroom
  cases id with
  | table key => exact Nat.lt_of_lt_of_le hid hmono
  | column col =>
      obtain ⟨k, n, rfl, hn, hk, hnext⟩ := hid
      refine ⟨k, n, rfl, hn, Nat.lt_of_lt_of_le hk hmono, fun t' ht' => ?_⟩
      obtain ⟨t, ht, hbecame⟩ := h.table_kept hk ht'
      exact Nat.lt_of_lt_of_le (hnext t ht)
        (hbecame.nextColumn_mono (hroom.column ht))
  | object table key =>
      obtain ⟨hk, hnext⟩ := hid
      refine ⟨Nat.lt_of_lt_of_le hk hmono, fun t' ht' => ?_⟩
      obtain ⟨t, ht, hbecame⟩ := h.table_kept hk ht'
      exact Int.lt_of_lt_of_le (hnext t ht)
        (hbecame.nextObject_mono (hs.aligned.table table t ht).next_nonneg
          (hroom.object ht))

/-- What an instruction makes is there afterwards. -/
theorem Applied.holds_made (h : Applied limits s i s') {x : Entity}
    (hx : i.makes? = some x) : s'.Holds x := by
  cases h with
  | addTable hname hnew =>
      cases hx
      refine ⟨{ key := s.nextTable, name := _ }, ?_, rfl⟩
      rw [table?_withNewTable, if_pos rfl]
  | @addColumn table t spec ht htarget hvalid hnew =>
      cases hx
      refine ⟨t.withColumn t.nextColumnKey spec, ?_, ?_⟩
      · rw [table?_withTable, if_pos rfl]
      · rw [Table.declared_withColumn]
        exact List.mem_append_right _ (List.mem_singleton_self _)
  | @createObject table t ht =>
      cases hx
      refine ⟨t.withObject t.nextObject, ?_, ?_⟩
      · rw [table?_withTable, if_pos rfl]
      · refine Table.contains_iff.2 ⟨t.rows.size, ?_⟩
        show (t.rows.push t.nextObject).slot? t.nextObject = _
        rw [Rows.slot?_push, if_pos rfl]
  | _ => cases hx

/-- What an instruction makes has a key that was not spent, and is there
afterwards. -/
theorem Applied.made (h : Applied limits s i s') (hs : s.Keyed) {x : Entity}
    (hx : i.makes? = some x) : ¬ s.Spent x.id ∧ s'.Holds x := by
  refine ⟨?_, h.holds_made hx⟩
  cases h with
  | addTable hname hnew =>
      cases hx
      exact Nat.lt_irrefl _
  | @addColumn table t spec ht htarget hvalid hnew =>
      cases hx
      rintro ⟨k, n, hkey, hn, -, hlt⟩
      have hsame : ColumnKey.numbered t.key t.nextColumn.toNat
        = .numbered k n := hkey
      obtain ⟨rfl, rfl⟩ := ColumnKey.numbered_injective
        t.nextColumn.toNat_lt hn hsame
      rw [hs.formed.key_eq table t ht] at hlt
      exact Nat.lt_irrefl _ (hlt t ht)
  | @createObject table t ht =>
      cases hx
      exact fun hspent => Int.lt_irrefl _ (hspent.2 t ht)
  | _ => cases hx

/-- An object that is there afterwards was there before, or it is the one
that was created. -/
theorem Applied.object_before (h : Applied limits s i s') (hs : s.Keyed)
    {k : TableKey} {key : ObjectKey} (hx : s'.Holds (.object k key)) :
    s.Holds (.object k key) ∨ i = .createObject k key := by
  have hwith {table : TableKey} {t u : Table} (ht : s.table? table = some t)
      (hx : (s.withTable table u).Holds (.object k key))
      (hu : u.contains key = true →
        t.contains key = true ∨ i = .createObject table key) :
      s.Holds (.object k key) ∨ i = .createObject k key := by
    obtain ⟨t', ht', hkey⟩ := hx
    rw [table?_withTable] at ht'
    split at ht'
    next he =>
      cases ht'
      subst he
      exact (hu hkey).imp (fun hold => ⟨t, ht, hold⟩) id
    next => exact .inl ⟨t', ht', hkey⟩
  have hstore {table : TableKey} {t : Table} {col : ColumnKey} {slot : Nat}
      {x : CellContent} (ht : s.table? table = some t)
      (hx : (s.withTable table (t.store col slot x)).Holds (.object k key)) :
      s.Holds (.object k key) ∨ i = .createObject k key := by
    refine hwith ht hx fun hkey => .inl ?_
    unfold Table.contains at hkey ⊢
    rwa [Table.rows_store] at hkey
  cases h with
  | addTable hname hnew =>
      obtain ⟨t', ht', hkey⟩ := hx
      rw [table?_withNewTable] at ht'
      split at ht'
      next =>
        cases ht'
        obtain ⟨slot, hslot⟩ := Table.contains_iff.1 hkey
        rw [Rows.slot?_empty] at hslot
        cases hslot
      next => exact .inl ⟨t', ht', hkey⟩
  | removeTable ht hfree =>
      obtain ⟨t', ht', hkey⟩ := hx
      rw [table?_withoutTable] at ht'
      split at ht'
      next => cases ht'
      next => exact .inl ⟨t', ht', hkey⟩
  | addColumn ht => exact hwith ht hx fun hkey => .inl hkey
  | removeColumn ht => exact hwith ht hx fun hkey => .inl hkey
  | @createObject table t ht =>
      refine hwith ht hx fun hkey => ?_
      obtain ⟨slot, hslot⟩ := Table.contains_iff.1 hkey
      change (t.rows.push t.nextObject).slot? key = _ at hslot
      rw [Rows.slot?_push] at hslot
      split at hslot
      next hnew => exact .inr (hnew ▸ rfl)
      next => exact .inl (Table.contains_iff.2 ⟨slot, hslot⟩)
  | @removeObject table t gone slot ht hslot =>
      obtain ⟨t', ht', hkey⟩ := hx
      rw [table?_withoutLinks] at ht'
      obtain ⟨u, hu, rfl⟩ := Option.map_eq_some_iff.1 ht'
      refine hwith ht ⟨u, hu, hkey⟩ fun hkey => .inl ?_
      obtain ⟨j, hj⟩ := Table.contains_iff.1 hkey
      change (t.rows.remove gone slot).slot? key = _ at hj
      rw [Rows.slot?_remove (hs.aligned.table table t ht).rows hslot] at hj
      split at hj
      next => cases hj
      next =>
        obtain ⟨l, hl, -⟩ := Option.map_eq_some_iff.1 hj
        exact Table.contains_iff.2 ⟨l, hl⟩
  | set ht => exact hstore ht hx
  | listInsert ht => exact hstore ht hx
  | listSet ht => exact hstore ht hx
  | listRemove ht => exact hstore ht hx
  | listClear ht => exact hstore ht hx

/-- What is there afterwards was there before, or the instruction made
it. -/
theorem Applied.holds_before (h : Applied limits s i s') (hs : s.Keyed)
    {x : Entity} (hx : s'.Holds x) : s.Holds x ∨ i.makes? = some x := by
  cases x with
  | table key name =>
      obtain ⟨t', ht', rfl⟩ := hx
      rcases h.table_became ht' with ⟨name, -, rfl, rfl⟩ | ⟨t, ht, hbecame⟩
      · exact .inr rfl
      · exact .inl ⟨t, ht, hbecame.name_eq.symm⟩
  | column col table spec =>
      obtain ⟨t', ht', hcol⟩ := hx
      rcases h.table_became ht' with ⟨name, -, -, rfl⟩ | ⟨t, ht, hbecame⟩
      · cases hcol
      · rcases hbecame.declared_before hcol with hold | ⟨rfl, -⟩
        · exact .inl ⟨t, ht, hold⟩
        · exact .inr rfl
  | object table key =>
      rcases h.object_before hs hx with hold | rfl
      · exact .inl hold
      · exact .inr rfl

-- ========================================================= the sequence

/-- A sequence of snapshots from the empty one on. Each is what the next
instruction makes of the one before, under limits of its own, and it may have
been given another version number. -/
structure Lineage (is : List Instruction) (us : Nat → Snapshot) : Prop where
  start : us 0 = .empty
  step : ∀ n i, is[n]? = some i → ∃ limits t version,
    Edit.Gives (apply limits i) (us n) () t ∧ us (n + 1) = { t with version }

theorem FitCounters.take (h : FitCounters is) (n : Nat) :
    FitCounters (is.take n) := by
  have hle (p : Instruction → Bool) : (is.take n).countP p ≤ is.countP p :=
    (List.take_sublist n is).countP_le
  exact ⟨Nat.lt_of_le_of_lt (hle _) h.tables,
    fun k => Nat.lt_of_le_of_lt (hle _) (h.columns k),
    fun k => Nat.lt_of_le_of_lt (hle _) (h.objects k)⟩

namespace Lineage

variable {us : Nat → Snapshot}

theorem take_succ {n : Nat} (hi : is[n]? = some i) :
    is.take (n + 1) = is.take n ++ [i] := by
  rw [List.take_add_one, hi]
  rfl

theorem reached (h : Lineage is us) {n : Nat} (hn : n ≤ is.length) :
    Reached (is.take n) (us n) := by
  induction n with
  | zero =>
      rw [h.start]
      exact .empty
  | succ n ih =>
      have hi := List.getElem?_eq_getElem hn
      obtain ⟨limits, t, version, happ, hnext⟩ := h.step n _ hi
      rw [hnext, take_succ hi]
      exact ((ih (Nat.le_of_succ_le hn)).step happ).renumber version

theorem keyed (h : Lineage is us) (hfit : FitCounters is) {n : Nat}
    (hn : n ≤ is.length) : (us n).Keyed :=
  (h.reached hn).keyed (hfit.take n)

/-- What one step of the sequence does to the things that are there and to
the keys that are spent. -/
theorem step_things (h : Lineage is us) (hfit : FitCounters is) {n : Nat}
    {i : Instruction} (hi : is[n]? = some i) :
    (∀ id, (us n).Spent id → (us (n + 1)).Spent id)
      ∧ (∀ x, i.makes? = some x → ¬ (us n).Spent x.id ∧ (us (n + 1)).Holds x)
      ∧ ∀ x, (us (n + 1)).Holds x → (us n).Holds x ∨ i.makes? = some x := by
  obtain ⟨hn, -⟩ := List.getElem?_eq_some_iff.1 hi
  obtain ⟨limits, t, version, happ, hnext⟩ := h.step n i hi
  have happ := apply_gives_iff.1 happ
  have hreached := h.reached (Nat.le_of_lt hn)
  have hkeyed := h.keyed hfit (Nat.le_of_lt hn)
  have hroom : (us n).HasRoom i :=
    FitCounters.hasRoom (take_succ hi ▸ hfit.take (n + 1))
      hreached.countersWithin
  rw [hnext]
  exact ⟨fun id => happ.spent hkeyed hroom, fun x => happ.made hkeyed,
    fun x => happ.holds_before hkeyed⟩

/-- A key that is spent stays spent along the sequence. -/
theorem spent_mono (h : Lineage is us) (hfit : FitCounters is) {m n : Nat}
    (hmn : m ≤ n) (hn : n ≤ is.length) {id : Identity}
    (hid : (us m).Spent id) : (us n).Spent id := by
  induction hmn with
  | refl => exact hid
  | step _ ih =>
      exact (h.step_things hfit (List.getElem?_eq_getElem hn)).1 id
        (ih (Nat.le_of_succ_le hn))

/-- A thing that is there under a key that was spent before was there before,
the same thing. -/
theorem holds_back (h : Lineage is us) (hfit : FitCounters is) {m n : Nat}
    (hmn : m ≤ n) (hn : n ≤ is.length) {x : Entity}
    (hspent : (us m).Spent x.id) (hx : (us n).Holds x) : (us m).Holds x := by
  induction hmn with
  | refl => exact hx
  | step hmn ih =>
      obtain ⟨-, hmade, hbefore⟩ :=
        h.step_things hfit (List.getElem?_eq_getElem hn)
      have hle := Nat.le_of_succ_le hn
      rcases hbefore x hx with hold | hnew
      · exact ih hle hold
      · exact absurd (h.spent_mono hfit hmn hle hspent) (hmade x hnew).1

/-- Two things with one key, anywhere in the sequence, are the same. -/
theorem same_of_id (h : Lineage is us) (hfit : FitCounters is) {m n : Nat}
    (hmn : m ≤ n) (hn : n ≤ is.length) {x y : Entity}
    (hx : (us m).Holds x) (hy : (us n).Holds y) (hid : x.id = y.id) :
    x = y := by
  have hkeyed := h.keyed hfit (Nat.le_trans hmn hn)
  have hspent := hkeyed.spent_of_holds hx
  rw [hid] at hspent
  exact hkeyed.holds_unique hx (h.holds_back hfit hmn hn hspent hy) hid

/-- Column keys are positive while there are fewer than 2^31 tables. -/
theorem column_pos (h : Lineage is us) (hfit : FitCounters is)
    (htables : tablesAdded is < 2 ^ 31) {n : Nat} (hn : n ≤ is.length)
    {col : ColumnKey} {table : TableKey} {spec : ColumnSpec}
    (hx : (us n).Holds (.column col table spec)) : 0 < col.raw := by
  have hkeyed := h.keyed hfit hn
  have hbelow := ((h.reached hn).nextTable_eq (hfit.take n).tables).2
  have hadded : tablesAdded (is.take n) ≤ tablesAdded is :=
    (List.take_sublist n is).countP_le
  obtain ⟨t, ht, hcol⟩ := hx
  obtain ⟨c, hc, rfl, -⟩ := Table.mem_declared.1 hcol
  obtain ⟨number, hpos, hlt, hkey⟩ := (hkeyed.numbered table t ht).column c hc
  have htable := hbelow table t ht
  rw [hkey, hkeyed.formed.key_eq table t ht]
  exact ColumnKey.numbered_pos (by omega) hpos
    (Nat.lt_trans hlt t.nextColumn.toNat_lt)

/-- Along a sequence of instructions that succeed, so few that no counter
comes round, keys are identities. What an instruction makes has a key that
nothing had before, and is there afterwards; a key that is in use, and in use
again later, was in use all the time between; things with one key, in any two
snapshots, are one thing, with one name, or with one table and one
declaration; and column keys are positive. -/
theorem keys_identify (h : Lineage is us) (hfit : FitCounters is)
    (htables : tablesAdded is < 2 ^ 31) :
    (∀ n i x, is[n]? = some i → i.makes? = some x →
      (∀ m ≤ n, ¬ (us m).Has x.id) ∧ (us (n + 1)).Holds x)
    ∧ (∀ l m n id, l ≤ m → m ≤ n → n ≤ is.length →
      (us l).Has id → (us n).Has id → (us m).Has id)
    ∧ (∀ m n x y, m ≤ is.length → n ≤ is.length →
      (us m).Holds x → (us n).Holds y → x.id = y.id → x = y)
    ∧ ∀ n ≤ is.length, ∀ col table spec,
      (us n).Holds (.column col table spec) → 0 < col.raw := by
  refine ⟨fun n i x hi hx => ?_, fun l m n id hlm hmn hn hl hn' => ?_,
    fun m n x y hm hn hx hy hid => ?_,
    fun n hn col table spec => h.column_pos hfit htables hn⟩
  · obtain ⟨hn, -⟩ := List.getElem?_eq_some_iff.1 hi
    obtain ⟨-, hmade, -⟩ := h.step_things hfit hi
    obtain ⟨hfresh, hthere⟩ := hmade x hx
    refine ⟨fun m hm hhas => hfresh ?_, hthere⟩
    obtain ⟨y, hid, hy⟩ := hhas
    have hle := Nat.le_of_lt hn
    have hspent := (h.keyed hfit (Nat.le_trans hm hle)).spent_of_holds hy
    exact h.spent_mono hfit hm hle (hid ▸ hspent)
  · obtain ⟨x, rfl, hx⟩ := hl
    obtain ⟨y, hid, hy⟩ := hn'
    have hm := Nat.le_trans hmn hn
    have hspent := (h.keyed hfit (Nat.le_trans hlm hm)).spent_of_holds hx
    have hspent := h.spent_mono hfit hlm hm hspent
    exact ⟨y, hid, h.holds_back hfit hmn hn (hid ▸ hspent) hy⟩
  · rcases Nat.le_total m n with hmn | hnm
    · exact h.same_of_id hfit hmn hn hx hy hid
    · exact (h.same_of_id hfit hnm hm hy hx hid.symm).symm

end Lineage

-- ============================================= a list of instructions

/-- What instructions leave of the empty snapshot. -/
def after (limits : Limits) (is : List Instruction) : Snapshot :=
  match (applyAll limits is).run .empty with
  | .ok _ s => s
  | .error _ s => s

theorem after_eq {s : Snapshot}
    (h : Edit.Gives (applyAll limits is) .empty () s) :
    after limits is = s := by
  unfold after
  rw [show (applyAll limits is).run .empty = _ from h]

/-- A list of instructions that succeed makes a sequence. -/
theorem lineage_after {s : Snapshot}
    (h : Edit.Gives (applyAll limits is) .empty () s) :
    Lineage is fun n => after limits (is.take n) where
  start := rfl
  step n i hi := by
    have hfront : ∃ t, Edit.Gives (applyAll limits (is.take (n + 1))) .empty ()
        t := by
      rw [← List.take_append_drop (n + 1) is, gives_applyAll_append] at h
      obtain ⟨t, ht, -⟩ := h
      exact ⟨t, ht⟩
    obtain ⟨t, ht⟩ := hfront
    have hnext := after_eq ht
    rw [Lineage.take_succ hi, gives_applyAll_append] at ht
    obtain ⟨u, hu, happ⟩ := ht
    rw [gives_applyAll_singleton] at happ
    refine ⟨limits, t, t.version, ?_, hnext⟩
    rw [after_eq hu]
    exact happ

/-- A table, a column and an object that are made, taken out and made again
under the names they had. -/
def sameNames : List Instruction :=
  [.addTable ⟨0⟩ "t", .addColumn ⟨0⟩ ⟨1⟩ (.scalar "c" .int false),
    .createObject ⟨0⟩ ⟨0⟩, .removeObject ⟨0⟩ ⟨0⟩, .createObject ⟨0⟩ ⟨1⟩,
    .removeColumn ⟨0⟩ ⟨1⟩, .addColumn ⟨0⟩ ⟨2⟩ (.scalar "c" .string true),
    .removeTable ⟨0⟩, .addTable ⟨1⟩ "t",
    .addColumn ⟨1⟩ ⟨0x100000001⟩ (.scalar "c" .int false)]

/-- They come under other keys: before the ninth instruction nothing was ever
there under the key of its table. -/
theorem Lineage.keys_identify_sameNames :
    ∃ us, Lineage sameNames us ∧ FitCounters sameNames
      ∧ tablesAdded sameNames < 2 ^ 31
      ∧ (us 1).Holds (.table ⟨0⟩ "t") ∧ (us 9).Holds (.table ⟨1⟩ "t")
      ∧ ∀ m ≤ 8, ¬ (us m).Has (.table ⟨1⟩) := by
  have hruns : (match (applyAll .none sameNames).run .empty with
      | .ok _ _ => true
      | .error _ _ => false) = true := by
    decide +kernel
  cases hrun : (applyAll .none sameNames).run .empty with
  | error err s => simp [hrun] at hruns
  | ok _ s =>
  have hlineage := lineage_after hrun
  have hfew (p : Instruction → Bool) : sameNames.countP p ≤ 10 :=
    List.countP_le_length
  have hfit : FitCounters sameNames :=
    ⟨Nat.lt_of_le_of_lt (hfew _) (by decide),
      fun k => Nat.lt_of_le_of_lt (hfew _) (by decide),
      fun k => Nat.lt_of_le_of_lt (hfew _) (by decide)⟩
  have htables : tablesAdded sameNames < 2 ^ 31 := by decide
  obtain ⟨hmakes, -⟩ := hlineage.keys_identify hfit htables
  have hfirst := hmakes 0 _ _ rfl rfl
  have hsecond := hmakes 8 _ _ rfl rfl
  exact ⟨_, hlineage, hfit, htables, hfirst.2, hsecond.2, hsecond.1⟩

end Snapshot

end Colonnade
